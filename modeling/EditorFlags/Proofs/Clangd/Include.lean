import Mathlib.Data.List.TakeWhile
import EditorFlags.Proofs.Clangd.Entry
import EditorFlags.Proofs.Text.Words

/-!
# Lines that include a relative path

`IsInclude` says which source lines are the include of a relative path: a dash and
an `I` among any number of spaces, at least one space, and an operand that begins
with a dot. `lineEntry` is what a line as a whole becomes in the document. An
entry is put together from tokens and never sees a line, but the two agree
(`entry_words`): some tokens spell `-I` and the next one begins with a dot
exactly if the line has that shape (`isInclude_of_words`, `words_of_isInclude`).
-/

namespace EditorFlags.Clangd

open Lines

/-- That a line is `-` and `I`, each with any spaces before it, then one or more
spaces, an operand that begins with `.` and goes on to the next space, and the
rest of the line. -/
structure IsInclude (line operand rest : String) : Prop where
  spelled : ∃ indent gap more : Nat, line.toList =
    List.replicate indent ' ' ++ '-' :: (List.replicate gap ' ' ++ 'I' ::
      (List.replicate (more + 1) ' ' ++ (operand.toList ++ rest.toList)))
  dotted : operand.toList.head? = some '.'
  spaceless : ' ' ∉ operand.toList
  apart : rest = "" ∨ rest.toList.head? = some ' '

/-- The operand of the include that a line is, and the rest of the line. -/
def include? (line : String) : Option (String × String) :=
  match line.toList.dropWhile (· == ' ') with
  | '-' :: afterDash =>
      match afterDash.dropWhile (· == ' ') with
      | 'I' :: ' ' :: gap =>
          match gap.dropWhile (· == ' ') with
          | '.' :: tail =>
              some (String.ofList ('.' :: tail.takeWhile (· != ' ')),
                String.ofList (tail.dropWhile (· != ' ')))
          | _ => none
      | _ => none
  | _ => none

/-- What a source line becomes in a document. -/
def lineEntry (base : Path) (line : String) : String :=
  match include? line with
  | some (operand, rest) =>
      "-I" ++ (base.resolve (.ofText operand)).lossyText ++ withoutSpaces rest
  | none => withoutSpaces line

/-! ## The shape of an include -/

theorem eq_replicate_of_dropWhile {chars left : List Char}
    (dropped : chars.dropWhile (· == ' ') = left) :
    ∃ count, chars = List.replicate count ' ' ++ left := by
  refine ⟨(chars.takeWhile (· == ' ')).length, ?_⟩
  have spaces : chars.takeWhile (· == ' ') =
      List.replicate (chars.takeWhile (· == ' ')).length ' ' := by
    rw [List.eq_replicate_iff]
    refine ⟨rfl, fun c member => ?_⟩
    simpa using List.mem_takeWhile_imp member
  rw [← spaces, ← dropped, List.takeWhile_append_dropWhile]

theorem isInclude_of_include? {line operand rest : String}
    (found : include? line = some (operand, rest)) : IsInclude line operand rest := by
  unfold include? at found
  split at found
  · next afterDash indented =>
      split at found
      · next gap dashed =>
          split at found
          · next tail spaced =>
              simp only [Option.some.injEq, Prod.mk.injEq] at found
              obtain ⟨rfl, rfl⟩ := found
              obtain ⟨indent, lineIs⟩ := eq_replicate_of_dropWhile indented
              obtain ⟨between, afterDashIs⟩ := eq_replicate_of_dropWhile dashed
              obtain ⟨more, gapIs⟩ := eq_replicate_of_dropWhile spaced
              refine ⟨⟨indent, between, more, ?_⟩, by simp, ?_, ?_⟩
              · rw [lineIs, afterDashIs, gapIs, List.replicate_succ]
                simp
              · simp only [String.toList_ofList, List.mem_cons, not_or]
                exact ⟨by decide, fun member => by simpa using List.mem_takeWhile_imp member⟩
              · cases left : tail.dropWhile (· != ' ') with
                | nil => exact Or.inl rfl
                | cons c rest =>
                    have stop := List.head?_dropWhile_not (· != ' ') tail
                    rw [left] at stop
                    simpa using stop
          · simp at found
      · simp at found
  · simp at found

theorem dropWhile_replicate_append {c : Char} (notSpace : c ≠ ' ') (count : Nat)
    (rest : List Char) :
    (List.replicate count ' ' ++ c :: rest).dropWhile (· == ' ') = c :: rest := by
  rw [List.dropWhile_append_of_pos]
  · simp [notSpace]
  · intro space member
    simpa using List.eq_of_mem_replicate member

theorem include?_of_isInclude {line operand rest : String} (shape : IsInclude line operand rest) :
    include? line = some (operand, rest) := by
  obtain ⟨indent, gap, more, spelled⟩ := shape.spelled
  have dotted := shape.dotted
  have spaceless := shape.spaceless
  cases chars : operand.toList with
  | nil => simp [chars] at dotted
  | cons dot tail =>
      rw [chars] at dotted spaceless spelled
      obtain rfl : dot = '.' := by simpa using dotted
      have inTail : ∀ c ∈ tail, (c != ' ') = true := by
        intro c member
        have different : c ≠ ' ' := fun same => spaceless (same ▸ List.mem_cons_of_mem _ member)
        simpa using different
      have cut : (tail ++ rest.toList).takeWhile (· != ' ') = tail ∧
          (tail ++ rest.toList).dropWhile (· != ' ') = rest.toList := by
        rw [List.takeWhile_append_of_pos inTail, List.dropWhile_append_of_pos inTail]
        rcases shape.apart with rfl | spaced
        · simp
        · cases left : rest.toList with
          | nil => simp
          | cons space left' =>
              obtain rfl : space = ' ' := by simpa [left] using spaced
              simp
      have unindented : line.toList.dropWhile (· == ' ') = _ :=
        spelled ▸ dropWhile_replicate_append (by decide) indent _
      have operandIs : String.ofList ('.' :: tail) = operand := by
        rw [← chars, String.ofList_toList]
      simp only [include?, unindented, dropWhile_replicate_append (by decide : 'I' ≠ ' '),
        List.replicate_succ, List.cons_append,
        dropWhile_replicate_append (by decide : '.' ≠ ' '), cut, operandIs, String.ofList_toList]

/-! ## Includes and the tokens of a line -/

/-- A text is `-I` but for its spaces if it is a dash and an `I` among spaces. -/
theorem withoutSpaces_eq_flag_iff {text : String} :
    withoutSpaces text = "-I" ↔ ∃ indent gap more : Nat, text.toList =
      List.replicate indent ' ' ++ '-' :: (List.replicate gap ' ' ++ 'I' ::
        List.replicate more ' ') := by
  have spaces (chars : List Char) (allSpaces : ∀ c ∈ chars, ¬ (c != ' ') = true) :
      chars = List.replicate chars.length ' ' := by
    rw [List.eq_replicate_iff]
    exact ⟨rfl, fun c member => by simpa using allSpaces c member⟩
  have letters : "-I".toList = ['-', 'I'] := by decide
  rw [withoutSpaces, ← String.toList_inj, String.toList_ofList, letters]
  constructor
  · intro filtered
    obtain ⟨indent, rest, textIs, indentSpaces, -, filtered⟩ := List.filter_eq_cons_iff.mp filtered
    obtain ⟨gap, behind, restIs, gapSpaces, -, filtered⟩ := List.filter_eq_cons_iff.mp filtered
    have behindSpaces := spaces behind (List.filter_eq_nil_iff.mp filtered)
    refine ⟨indent.length, gap.length, behind.length, ?_⟩
    rw [textIs, restIs, ← spaces indent indentSpaces, ← spaces gap gapSpaces, ← behindSpaces]
  · rintro ⟨indent, gap, more, textIs⟩
    rw [textIs]
    simp

theorem words_of_isInclude {line operand rest : String} (shape : IsInclude line operand rest) :
    ∃ before after, words line = before ++ operand :: after ∧ String.join before = "-I" ∧
      String.join after = withoutSpaces rest := by
  obtain ⟨indent, gap, more, spelled⟩ := shape.spelled
  obtain ⟨lead, leadIs⟩ : ∃ lead : String, lead.toList =
      List.replicate indent ' ' ++ '-' :: (List.replicate gap ' ' ++ 'I' ::
        List.replicate more ' ') := ⟨_, String.toList_ofList⟩
  have flag : withoutSpaces lead = "-I" := withoutSpaces_eq_flag_iff.mpr ⟨_, _, _, leadIs⟩
  have lineIs : line = lead ++ " " ++ (operand ++ rest) := by
    rw [← String.toList_inj, spelled]
    simp [leadIs, List.replicate_succ']
  rw [← join_words] at flag
  have operandWord := words_of_spaceless shape.spaceless
  rcases shape.apart with rfl | spaced
  · refine ⟨words lead, [], ?_, flag, rfl⟩
    rw [lineIs, words_append_space, String.append_empty, operandWord]
  · obtain ⟨behind, rfl⟩ : ∃ behind, rest = " " ++ behind := by
      cases chars : rest.toList with
      | nil => simp [chars] at spaced
      | cons c behind =>
          obtain rfl : c = ' ' := by simpa [chars] using spaced
          exact ⟨String.ofList behind, by simp [← String.toList_inj, chars]⟩
    refine ⟨words lead, words behind, ?_, flag, ?_⟩
    · rw [lineIs, words_append_space, ← String.append_assoc, words_append_space, operandWord,
        List.singleton_append]
    · rw [join_words, withoutSpaces_append, withoutSpaces_space, String.empty_append]

theorem isInclude_of_words {line operand : String} {before after : List String}
    (cut : words line = before ++ operand :: after) (flag : String.join before = "-I")
    (dotted : operand.toList.head? = some '.') : ∃ rest, IsInclude line operand rest := by
  have nonempty : before ≠ [] := by
    rintro rfl
    exact absurd flag (by decide)
  obtain ⟨lead, behind, rfl, rfl, behindWords⟩ :=
    words_eq_append cut nonempty (List.cons_ne_nil operand after)
  rw [join_words, withoutSpaces_eq_flag_iff] at flag
  obtain ⟨indent, gap, more, leadIs⟩ := flag
  have spaceless : ' ' ∉ operand.toList :=
    spaceless_of_mem_words (behindWords ▸ List.mem_cons_self : operand ∈ words behind)
  -- The operand goes to the end of the line or to a space.
  obtain ⟨rest, rfl, apart⟩ : ∃ rest, behind = operand ++ rest ∧
      (rest = "" ∨ rest.toList.head? = some ' ') := by
    by_cases last : after = []
    · refine ⟨"", ?_, Or.inl rfl⟩
      rw [← intercalate_words behind, behindWords, last]
      simp
    · have cutAgain : words behind = [operand] ++ after := behindWords
      obtain ⟨word, rest, rfl, wordIs, -⟩ :=
        words_eq_append cutAgain (List.cons_ne_nil operand []) last
      refine ⟨" " ++ rest, ?_, Or.inr (by simp)⟩
      rw [← intercalate_words word, wordIs]
      simp [String.append_assoc]
  refine ⟨rest, ⟨⟨indent, gap, more, ?_⟩, dotted, spaceless, apart⟩⟩
  simp [leadIs, List.replicate_succ']

/-- None of the words of a line that is no include is resolved. -/
theorem plain_words {line : String} (noInclude : include? line = none) :
    Entry.Plain "" (words line) := by
  intro before token after cut flag dotted
  rw [String.empty_append] at flag
  obtain ⟨rest, shape⟩ := isInclude_of_words cut flag dotted
  rw [include?_of_isInclude shape] at noInclude
  cases noInclude

/-- The entry of a line is put together from its words. -/
theorem entry_words {base : Path} (absolute : base.isAbsolute = true) (line : String) :
    Entry.empty.addAll base (words line) =
      ⟨lineEntry base line, line.toList.count ' ' + 1, (include? line).isSome⟩ := by
  have counted := length_words line
  unfold lineEntry
  split
  · next operand rest found =>
      have shape := isInclude_of_include? found
      obtain ⟨before, after, cut, flag, restIs⟩ := words_of_isInclude shape
      rw [cut, List.length_append, List.length_cons, ← Nat.add_assoc, Nat.add_right_comm] at counted
      rw [cut, Entry.addAll_include absolute flag shape.dotted, restIs, counted, found]
      rfl
  · next notFound =>
      rw [Entry.addAll_plain (plain_words notFound), join_words, counted, notFound]
      simp [Entry.empty]

theorem addAll_words {base : Path} (absolute : base.isAbsolute = true) (line : String) :
    (Entry.empty.addAll base (words line)).text = lineEntry base line := by
  rw [entry_words absolute]

end EditorFlags.Clangd
