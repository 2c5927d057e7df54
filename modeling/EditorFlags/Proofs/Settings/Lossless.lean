import EditorFlags.Proofs.Json.Unambiguous
import EditorFlags.Proofs.Text.Cut
import EditorFlags.Settings

/-!
# Settings are printed without loss

The text of some settings denotes one value, an object in which their flags stand as they
are. Its only control characters are the LFs that the layout puts between lines, since a
literal has none (`visible_quote`). So the lines of the text are those of the layout, and
each flag is on one of its own.
-/

namespace EditorFlags.Settings

open Json

/-! ## What is printed -/

/-- The value that settings are printed as. -/
def tree (settings : Settings) : Tree :=
  .object [(units "flags".toList,
    .array (settings.flags.map fun flag => .string (units flag.toList)))]

/-- The lines for some flags, with a comma after all but the last. -/
def flagLines : List String → List String
  | [] => []
  | [last] => ["    " ++ quote last]
  | flag :: others => ("    " ++ quote flag ++ ",") :: flagLines others

/-- The lines for settings that have a flag. -/
def lines (settings : Settings) : List String :=
  ["\x7b", "  \"flags\": ["] ++ flagLines settings.flags ++ ["  ]", "\x7d"]

theorem tree_injective : Function.Injective tree := by
  intro settings others same
  simp only [tree, Tree.object.injEq, List.cons.injEq, Prod.mk.injEq, Tree.array.injEq, and_true,
    true_and] at same
  have flags : Function.Injective fun flag : String => Tree.string (units flag.toList) := by
    intro flag other same
    exact String.toList_inj.mp (units_injective (Tree.string.inj same))
  cases settings
  cases others
  exact congrArg Settings.mk (flags.list_map same)

@[simp] theorem length_flagLines (flags : List String) :
    (flagLines flags).length = flags.length := by
  fun_induction flagLines flags <;> simp_all

/-! ## The value -/

theorem denotes_quote (text : String) :
    Denotes (quote text).toList (.value (.string (units text.toList))) := by
  rw [quote, String.toList_ofList]
  exact .string (spells_flatMap_escapeChar text.toList)

/-- What stands between the brackets: each flag on a line of its own. -/
def inside (flags : List String) : List Char :=
  (flagLines flags).flatMap fun line => '\n' :: line.toList

theorem blank_indent : Blank ['\n', ' ', ' ', ' ', ' '] :=
  blank_of_all rfl

theorem blank_outdent : Blank ['\n', ' ', ' '] :=
  blank_of_all rfl

theorem denotes_inside {flags : List String} (some : flags ≠ []) :
    Denotes (inside flags ++ ['\n', ' ', ' '])
      (.items (flags.map fun flag => .string (units flag.toList))) := by
  fun_induction flagLines flags with
  | case1 => exact absurd rfl some
  | case2 last =>
      have printed := Denotes.lastItem blank_indent (denotes_quote last) blank_outdent
      simpa [inside, flagLines] using printed
  | case3 flag others more ih =>
      have printed := Denotes.item blank_indent (denotes_quote flag) blank_nil (ih more)
      simpa [inside, flagLines] using printed

theorem cons_intercalate_flags {flags : List String} (some : flags ≠ []) :
    '\n' :: (String.intercalate ",\n" (flags.map fun flag => "    " ++ quote flag)).toList =
      inside flags := by
  fun_induction flagLines flags with
  | case1 => exact absurd rfl some
  | case2 last => simp [inside, flagLines]
  | case3 flag others more ih =>
      obtain ⟨next, later, rfl⟩ := List.exists_cons_of_ne_nil more
      have rest := ih more
      simp only [inside, flagLines, List.flatMap_cons] at rest ⊢
      rw [← rest]
      simp [String.intercalate_cons_cons]

theorem toList_render {flags : List String} (some : flags ≠ []) :
    (render ⟨flags⟩).toList =
      "\x7b\n  \"flags\": [".toList ++ (inside flags ++ "\n  ]\n\x7d".toList) := by
  have nonempty : ¬ flags.isEmpty := by simpa using some
  rw [render, if_neg nonempty, ← cons_intercalate_flags some]
  simp

theorem isText_render (settings : Settings) : IsText settings.render.toList settings.tree := by
  obtain ⟨flags⟩ := settings
  have key : IsKey "\n  \"flags\":".toList (units "flags".toList) :=
    .key blank_outdent (spells_flatMap_escapeChar "flags".toList) blank_nil
  have space : Blank [' '] := blank_of_all rfl
  have newline : Blank ['\n'] := blank_of_all rfl
  have whole {text : List Char}
      (array : Denotes text (.value (.array (flags.map fun flag => .string (units flag.toList))))) :
      IsText ("\x7b\n  \"flags\": ".toList ++ (text ++ "\n\x7d".toList)) (tree ⟨flags⟩) := by
    refine ⟨[], _, [], ?_, blank_nil, .object (.lastMember key space array newline), blank_nil⟩
    simp
  by_cases nothing : flags = []
  · subst nothing
    exact whole (.noItems blank_nil)
  · rw [toList_render nothing]
    simpa using whole (.array (denotes_inside nothing))

/-! ## The lines -/

/-- What is written for a character is visible. -/
theorem visible_escapeChar {c d : Char} (member : d ∈ escapeChar c) : 0x20 ≤ d.toNat := by
  have digit {value : Nat} (small : value < 16) : 0x20 ≤ (Nat.digitChar value).toNat := by
    revert value
    decide
  have pair {letter : Char} (visible : 0x20 ≤ letter.toNat) (member : d ∈ ['\\', letter]) :
      0x20 ≤ d.toNat := by
    simp only [List.mem_cons, List.not_mem_nil, or_false] at member
    rcases member with rfl | rfl
    · decide
    · exact visible
  unfold escapeChar at member
  split_ifs at member with quote backslash backspace feed newline turn tab control
  · exact pair (by decide) member
  · exact pair (by decide) member
  · exact pair (by decide) member
  · exact pair (by decide) member
  · exact pair (by decide) member
  · exact pair (by decide) member
  · exact pair (by decide) member
  · simp only [List.mem_cons, List.not_mem_nil, or_false] at member
    rcases member with rfl | rfl | rfl | rfl | rfl | rfl
    · decide
    · decide
    · decide
    · decide
    · exact digit (by omega)
    · exact digit (by omega)
  · rw [List.mem_singleton] at member
    exact member ▸ Nat.le_of_not_lt control

/-- That a text has no control character. -/
def Visible (text : String) : Prop :=
  ∀ c ∈ text.toList, 0x20 ≤ c.toNat

theorem visible_quote (text : String) : Visible (quote text) := by
  intro c member
  rw [quote, String.toList_ofList, List.mem_append, List.mem_cons, List.mem_flatMap,
    List.mem_singleton] at member
  rcases member with (rfl | ⟨_, -, written⟩) | rfl
  · decide
  · exact visible_escapeChar written
  · decide

theorem Visible.append {first second : String} (visible : Visible first)
    (visibleToo : Visible second) : Visible (first ++ second) := by
  rw [Visible, String.toList_append]
  exact List.forall_mem_append.mpr ⟨visible, visibleToo⟩

theorem visible_flagLines {flags : List String} : ∀ line ∈ flagLines flags, Visible line := by
  have indent : Visible "    " := by simp [Visible]
  have comma : Visible "," := by simp [Visible]
  fun_induction flagLines flags with
  | case1 => exact fun _ member => nomatch member
  | case2 last =>
      intro line member
      obtain rfl := List.mem_singleton.mp member
      exact indent.append (visible_quote last)
  | case3 flag others more ih =>
      intro line member
      rcases List.mem_cons.mp member with rfl | later
      · exact (indent.append (visible_quote flag)).append comma
      · exact ih line later

theorem visible_lines (settings : Settings) : ∀ line ∈ settings.lines, Visible line := by
  intro line member
  simp only [lines, List.mem_append, List.mem_cons, List.not_mem_nil, or_false] at member
  rcases member with ((rfl | rfl) | inFlags) | rfl | rfl
  · simp [Visible]
  · simp [Visible]
  · exact visible_flagLines line inFlags
  · simp [Visible]
  · simp [Visible]

/-- The text of settings with a flag is that of their lines. -/
theorem toList_render_eq_intercalate {flags : List String} (flagged : flags ≠ []) :
    (render ⟨flags⟩).toList = ['\n'].intercalate ((lines ⟨flags⟩).map String.toList) := by
  have some : (lines ⟨flags⟩).map String.toList ≠ [] := by simp [lines]
  have whole := Cut.cons_intercalate '\n' some
  have printed : '\n' :: (render ⟨flags⟩).toList =
      ((lines ⟨flags⟩).map String.toList).flatMap ('\n' :: ·) := by
    simp [toList_render flagged, lines, inside, List.flatMap_map]
  exact (List.cons.inj (printed.trans whole.symm)).2

theorem splitOn_render {flags : List String} (some : flags ≠ []) :
    (render ⟨flags⟩).toList.splitOn '\n' = (lines ⟨flags⟩).map String.toList := by
  rw [toList_render_eq_intercalate some]
  refine List.splitOn_intercalate '\n' ?_ (by simp [lines])
  intro line member broken
  obtain ⟨line, inLines, rfl⟩ := List.mem_map.mp member
  exact absurd (visible_lines _ line inLines '\n' broken) (by decide)

theorem visible_or_newline (settings : Settings) {c : Char}
    (member : c ∈ settings.render.toList) : 0x20 ≤ c.toNat ∨ c = '\n' := by
  obtain ⟨flags⟩ := settings
  by_cases nothing : flags = []
  · subst nothing
    have only : ∀ c ∈ "\x7b\n  \"flags\": []\n\x7d".toList, 0x20 ≤ c.toNat ∨ c = '\n' := by
      simp
    exact only c member
  · have inLines := List.mem_cons_of_mem '\n' member
    rw [toList_render_eq_intercalate nothing,
      Cut.mem_cons_intercalate_iff (by simp [lines])] at inLines
    obtain newline | ⟨part, isPart, inLine⟩ := inLines
    · exact .inr newline
    · obtain ⟨line, isLine, rfl⟩ := List.mem_map.mp isPart
      exact .inl (visible_lines _ line isLine c inLine)

/-- **Settings are printed without loss.** What is printed denotes the object with their flags
and no other value, so no two settings are printed alike. All its control characters are LFs,
and if there is a flag then these make a line for each one and four lines around them. -/
theorem render_lossless :
    (∀ (settings : Settings) (value : Tree),
      IsText settings.render.toList value ↔ value = settings.tree) ∧
    Function.Injective render ∧
    (∀ settings : Settings, ∀ c ∈ settings.render.toList, 0x20 ≤ c.toNat ∨ c = '\n') ∧
    ∀ settings : Settings, settings.flags ≠ [] →
      settings.render.toList.splitOn '\n' = settings.lines.map String.toList ∧
        settings.lines.length = settings.flags.length + 4 := by
  refine ⟨?_, ?_, fun settings c member => visible_or_newline settings member, ?_⟩
  · intro settings value
    constructor
    · exact fun isText => isText.unique (isText_render settings)
    · rintro rfl
      exact isText_render settings
  · intro settings others same
    have isText := isText_render settings
    rw [same] at isText
    exact tree_injective (isText.unique (isText_render others))
  · intro settings some
    exact ⟨splitOn_render some, by simp [lines]⟩

/-- Six lines for two flags, with the quotes of the second one escaped. -/
theorem splitOn_render_pair :
    (render ⟨["-O2", "-DNAME=\"a b\""]⟩).toList.splitOn '\n' =
      ["\x7b", "  \"flags\": [", "    \"-O2\",", "    \"-DNAME=\\\"a b\\\"\"", "  ]",
        "\x7d"].map String.toList := by
  obtain ⟨-, -, -, printed⟩ := render_lossless
  exact (printed ⟨["-O2", "-DNAME=\"a b\""]⟩ (by decide)).1

end EditorFlags.Settings
