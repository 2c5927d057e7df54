import EditorFlags.Proofs.Path
import EditorFlags.Proofs.Text.Cut
import Mathlib.Data.List.Basic

/-!
# Resolving keeps a stack of names

Resolving a path without a disk comes to this: the pieces of the path are gone through with
a stack of names, where a piece that names nothing is passed over, a parent takes the last
name away and any other piece is put on. The resolved path spells the stack, from the root
if the path is absolute (`resolve_eq_spell`). The stack is kept as text on the way; that
text always spells it (`follow_name`, `follow_up`), because no name has a separator in it.
-/

namespace EditorFlags.Path

/-- That a piece names an entry of a directory. -/
structure IsName (piece : Bytes) : Prop where
  nonempty : piece ≠ []
  notSelf : piece ≠ self
  notParent : piece ≠ parent

/-- The stack of names after one more piece. -/
def settle (names : List Bytes) (piece : Bytes) : List Bytes :=
  if piece = [] ∨ piece = self then names
  else if piece = parent then names.dropLast
  else names ++ [piece]

/-- The names that the pieces of a path come to. -/
def settled (path : Path) : List Bytes :=
  path.pieces.foldl settle []

/-- The path that some names spell, from the root or not. -/
def spell (rooted : Bool) (names : List Bytes) : Path :=
  ⟨(if rooted then [slash] else []) ++ [slash].intercalate names⟩

/-- Nothing stands before the separator that a path begins with. -/
theorem pieces_of_rooted {path : Path} {rest : Bytes} (rooted : path.bytes = slash :: rest) :
    path.pieces = [] :: rest.splitOn slash := by
  rw [pieces, rooted, List.splitOn_cons_eq_if_modifyHead, if_pos BEq.rfl]

/-! ## Single pieces -/

section
variable {names : List Bytes} {piece : Bytes}

theorem settle_of_nowhere (nowhere : piece = [] ∨ piece = self) : settle names piece = names :=
  if_pos nowhere

@[simp] theorem settle_parent : settle names parent = names.dropLast := by
  simp [settle, parent, self]

theorem settle_of_isName (proper : IsName piece) : settle names piece = names ++ [piece] := by
  simp [settle, proper.nonempty, proper.notSelf, proper.notParent]

theorem piece_cases (piece : Bytes) :
    (piece = [] ∨ piece = self) ∨ piece = parent ∨ IsName piece := by
  by_cases nowhere : piece = [] ∨ piece = self
  · exact Or.inl nowhere
  · by_cases up : piece = parent
    · exact Or.inr (Or.inl up)
    · rw [not_or] at nowhere
      exact Or.inr (Or.inr ⟨nowhere.1, nowhere.2, up⟩)

/-! What a piece stands for as a component goes by the same three cases. -/

theorem ofPiece?_of_nowhere (nowhere : piece = [] ∨ piece = self) :
    Component.ofPiece? piece = none := by
  simp [Component.ofPiece?, nowhere]

@[simp] theorem ofPiece?_parent : Component.ofPiece? parent = some .up := by decide

theorem ofPiece?_of_isName (proper : IsName piece) :
    Component.ofPiece? piece = some (.name piece) := by
  simp [Component.ofPiece?, proper.nonempty, proper.notSelf, proper.notParent]

end

/-- What holds of all names on the stack and of all names among the pieces holds of the names
that are left. -/
theorem forall_mem_foldl_settle {P : Bytes → Prop} {pieces names : List Bytes}
    (onStack : ∀ name ∈ names, P name) (coming : ∀ piece ∈ pieces, IsName piece → P piece) :
    ∀ name ∈ pieces.foldl settle names, P name := by
  induction pieces generalizing names with
  | nil => exact onStack
  | cons piece rest ih =>
      refine ih ?_ fun other member => coming other (List.mem_cons_of_mem piece member)
      rcases piece_cases piece with nowhere | rfl | proper
      · rwa [settle_of_nowhere nowhere]
      · intro name member
        exact onStack name ((List.dropLast_sublist names).subset (settle_parent ▸ member))
      · rw [settle_of_isName proper]
        intro name member
        rcases List.mem_append.mp member with old | new
        · exact onStack name old
        · obtain rfl : name = piece := by simpa using new
          exact coming name List.mem_cons_self proper

/-- The names that are left have stood among the pieces in this order. -/
theorem foldl_settle_sublist (pieces names : List Bytes) :
    (pieces.foldl settle names).Sublist (names ++ pieces) := by
  induction pieces generalizing names with
  | nil => simp
  | cons piece rest ih =>
      refine (ih (settle names piece)).trans ?_
      have shorter : (settle names piece).Sublist (names ++ [piece]) := by
        rcases piece_cases piece with nowhere | rfl | proper
        · rw [settle_of_nowhere nowhere]
          exact List.sublist_append_left names [piece]
        · rw [settle_parent]
          exact (List.dropLast_sublist names).trans (List.sublist_append_left names [parent])
        · rw [settle_of_isName proper]
      simpa using shorter.append_right rest

/-- What names of a path are made of: they have no separator in them. -/
theorem isName_of_mem_settled {path : Path} {name : Bytes} (member : name ∈ path.settled) :
    IsName name ∧ slash ∉ name := by
  refine forall_mem_foldl_settle (P := fun name => IsName name ∧ slash ∉ name) (by simp) ?_ name
    member
  exact fun piece found proper => ⟨proper, Cut.not_mem_of_mem_splitOn found⟩

/-! ## Spelled stacks -/

/-- Names that can be told from each other when they are put together with separators. -/
def Apart (names : List Bytes) : Prop :=
  ∀ name ∈ names, name ≠ [] ∧ slash ∉ name

theorem head?_ne_slash {name : Bytes} (whole : slash ∉ name) : name.head? ≠ some slash := by
  intro first
  exact whole (List.mem_of_mem_head? first)

theorem isAbsolute_spell {rooted : Bool} {names : List Bytes} (apart : Apart names) :
    (spell rooted names).isAbsolute = rooted := by
  cases rooted with
  | true => simp [spell, isAbsolute]
  | false =>
      cases names with
      | nil => rfl
      | cons name others =>
          obtain ⟨nonempty, whole⟩ := apart name List.mem_cons_self
          obtain ⟨first, rest, rfl⟩ := List.exists_cons_of_ne_nil nonempty
          have other : first ≠ slash := fun same => whole (same ▸ List.mem_cons_self)
          simp [spell, isAbsolute, List.intercalate_cons_cons_left, other]

theorem spell_singleton (rooted : Bool) (name : Bytes) :
    spell rooted [name] = ⟨(spell rooted []).bytes ++ name⟩ := by
  simp [spell, List.intercalate_singleton, List.intercalate_nil]

theorem spell_concat (rooted : Bool) {names : List Bytes} (some : names ≠ []) (last : Bytes) :
    spell rooted (names ++ [last]) = ⟨(spell rooted names).bytes ++ slash :: last⟩ := by
  simp [spell, Cut.intercalate_concat slash some]

/-- A spelled path ends with its last name. -/
theorem exists_bytes_spell (rooted : Bool) (names : List Bytes) (last : Bytes) :
    ∃ before, (spell rooted (names ++ [last])).bytes = before ++ last := by
  by_cases first : names = []
  · subst first
    exact ⟨_, congrArg bytes (spell_singleton rooted last)⟩
  · rw [spell_concat rooted first]
    exact ⟨(spell rooted names).bytes ++ [slash], by simp⟩

theorem bytes_spell_ne_nil {rooted : Bool} {names : List Bytes} (apart : Apart names)
    (some : names ≠ []) : (spell rooted names).bytes ≠ [] := by
  obtain ⟨others, last, rfl⟩ := (List.eq_nil_or_concat' names).resolve_left some
  obtain ⟨before, spelled⟩ := exists_bytes_spell rooted others last
  rw [spelled]
  exact List.append_ne_nil_of_right_ne_nil before (apart last (by simp)).1

/-- A path that spells some names does not end in a separator. -/
theorem endsInSlash_spell {rooted : Bool} {names : List Bytes} (apart : Apart names)
    (some : names ≠ []) : (spell rooted names).endsInSlash = false := by
  obtain ⟨others, last, rfl⟩ := (List.eq_nil_or_concat' names).resolve_left some
  obtain ⟨before, spelled⟩ := exists_bytes_spell rooted others last
  obtain ⟨nonempty, whole⟩ := apart last (by simp)
  have other : last.getLast? ≠ Option.some slash := fun same => whole (List.mem_of_getLast? same)
  rw [endsInSlash, spelled, List.getLast?_append_of_ne_nil _ nonempty]
  simpa using other

/-- Spelled from the root, names are the pieces that come after the first separator. -/
theorem pieces_spell_true {names : List Bytes} (apart : Apart names) (some : names ≠ []) :
    (spell true names).pieces = [] :: names := by
  have rooted : (spell true names).bytes = slash :: [slash].intercalate names := rfl
  rw [pieces_of_rooted rooted,
    List.splitOn_intercalate _ (fun name member => (apart name member).2) some]

/-- Joining a name puts it on the stack. -/
theorem join_spell {rooted : Bool} {names : List Bytes} {name : Bytes} (apart : Apart names)
    (whole : slash ∉ name) : (spell rooted names).join ⟨name⟩ = spell rooted (names ++ [name]) := by
  have relative : isAbsolute ⟨name⟩ = false := by
    simpa [isAbsolute] using head?_ne_slash whole
  rw [join, if_neg (by simp [relative])]
  by_cases first : names = []
  · subst first
    rw [if_pos (by cases rooted <;> rfl), List.nil_append, spell_singleton]
  · have inside :
        ¬ ((spell rooted names).bytes.isEmpty || (spell rooted names).endsInSlash) = true := by
      simp [bytes_spell_ne_nil apart first, endsInSlash_spell apart first]
    rw [if_neg inside, spell_concat rooted first]

/-- Taking the last name away takes it from the stack. -/
theorem dropLast_spell {rooted : Bool} {names : List Bytes} (apart : Apart names) :
    (spell rooted names).dropLast = spell rooted names.dropLast := by
  rcases List.eq_nil_or_concat' names with rfl | ⟨others, last, rfl⟩
  · cases rooted <;> rfl
  · obtain ⟨-, whole⟩ := apart last (by simp)
    have skipped : ∀ byte ∈ last.reverse, (byte != slash) = true := by
      intro byte member
      have other : byte ≠ slash := fun same => whole (same ▸ List.mem_reverse.mp member)
      simpa using other
    rw [List.dropLast_concat]
    by_cases first : others = []
    · subst first
      rw [List.nil_append, spell_singleton, dropLast, List.reverse_append,
        List.dropWhile_append_of_pos skipped]
      cases rooted <;> rfl
    · have apartBefore : Apart others := fun name member => apart name (by simp [member])
      have nonempty : (spell rooted others).bytes ≠ [] := bytes_spell_ne_nil apartBefore first
      obtain ⟨byte, above, spelled⟩ :=
        List.exists_cons_of_ne_nil (List.reverse_ne_nil_iff.mpr nonempty)
      have whole : (spell rooted others).bytes = (byte :: above).reverse := by
        rw [← spelled, List.reverse_reverse]
      rw [spell_concat rooted first, dropLast]
      simp only [List.reverse_append, List.reverse_cons, List.append_assoc]
      rw [List.dropWhile_append_of_pos skipped, spelled, List.singleton_append,
        List.dropWhile_cons_of_neg (by simp)]
      show (⟨(byte :: above).reverse⟩ : Path) = spell rooted others
      rw [← whole]

/-! ## Resolving -/

theorem Trail.path_follow_name (trail : Trail) (name : Bytes) :
    (trail.follow (.name name)).path = trail.path.join ⟨name⟩ :=
  Trail.path_join trail ⟨name⟩

theorem apart_of_isName {names : List Bytes}
    (proper : ∀ name ∈ names, IsName name ∧ slash ∉ name) : Apart names :=
  fun name member => ⟨(proper name member).1.nonempty, (proper name member).2⟩

theorem apart_settled (path : Path) : Apart path.settled :=
  apart_of_isName fun _ => isName_of_mem_settled

/-- A trail that spells a stack still does after any pieces. -/
theorem path_foldl_follow {pieces : List Bytes} (whole : ∀ piece ∈ pieces, slash ∉ piece)
    {rooted : Bool} {names : List Bytes} (proper : ∀ name ∈ names, IsName name ∧ slash ∉ name)
    {trail : Trail} (spells : trail.path = spell rooted names) :
    ((pieces.filterMap Component.ofPiece?).foldl Trail.follow trail).path =
      spell rooted (pieces.foldl settle names) := by
  induction pieces generalizing names trail with
  | nil => exact spells
  | cons piece rest ih =>
      have wholeRest : ∀ other ∈ rest, slash ∉ other := fun other member =>
        whole other (List.mem_cons_of_mem piece member)
      have apart := apart_of_isName proper
      rcases piece_cases piece with nowhere | rfl | isName
      · rw [List.filterMap_cons_none (ofPiece?_of_nowhere nowhere), List.foldl_cons,
          settle_of_nowhere nowhere]
        exact ih wholeRest proper spells
      · rw [List.filterMap_cons_some ofPiece?_parent, List.foldl_cons, List.foldl_cons,
          settle_parent]
        have fewer := (List.dropLast_sublist names).subset
        refine ih wholeRest (fun name member => proper name (fewer member)) ?_
        rw [Trail.follow, Trail.path_dropLast, spells, dropLast_spell apart]
      · have wholePiece := whole piece List.mem_cons_self
        rw [List.filterMap_cons_some (ofPiece?_of_isName isName), List.foldl_cons, List.foldl_cons,
          settle_of_isName isName]
        refine ih wholeRest ?_ ?_
        · intro name member
          rcases List.mem_append.mp member with old | new
          · exact proper name old
          · obtain rfl : name = piece := by simpa using new
            exact ⟨isName, wholePiece⟩
        · rw [Trail.path_follow_name, spells, join_spell apart wholePiece]

/-- **Resolving spells the stack** that the pieces of the path come to. -/
theorem resolve_eq_spell (base path : Path) :
    base.resolve path = spell (base.join path).isAbsolute (base.join path).settled := by
  have whole : ∀ piece ∈ (base.join path).pieces, slash ∉ piece := fun piece member =>
    Cut.not_mem_of_mem_splitOn member
  rw [resolve, components]
  cases rooted : (base.join path).isAbsolute with
  | true => exact path_foldl_follow whole (by simp) rfl
  | false => exact path_foldl_follow whole (by simp) rfl

/-- What is resolved depends on the stack alone, and on whether it begins at the root. -/
theorem resolve_congr_join {base other path otherPath : Path}
    (rooted : (base.join path).isAbsolute = (other.join otherPath).isAbsolute)
    (names : (base.join path).settled = (other.join otherPath).settled) :
    base.resolve path = other.resolve otherPath := by
  rw [resolve_eq_spell, resolve_eq_spell, rooted, names]

section
variable {base : Path} (absolute : base.isAbsolute = true) (path : Path)
include absolute

/-- What is resolved against an absolute base spells names from the root. -/
theorem resolve_of_isAbsolute : base.resolve path = spell true (base.join path).settled := by
  rw [resolve_eq_spell, isAbsolute_join absolute]

theorem isAbsolute_resolve : (base.resolve path).isAbsolute = true := by
  rw [resolve_of_isAbsolute absolute]
  rfl

theorem lossyText_resolve_ne_empty : (base.resolve path).lossyText ≠ "" := by
  obtain ⟨rest, spelled⟩ := isAbsolute_iff.mp (isAbsolute_resolve absolute path)
  rw [lossyText, Ne, Utf8.lossy_eq_empty_iff, spelled]
  exact List.cons_ne_nil slash rest

/-- Resolving only takes bytes away. -/
theorem resolve_sublist : (base.resolve path).bytes.Sublist (base.join path).bytes := by
  obtain ⟨rest, joined⟩ := isAbsolute_iff.mp (isAbsolute_join absolute path)
  have left : (base.join path).settled = (rest.splitOn slash).foldl settle [] := by
    rw [settled, pieces_of_rooted joined, List.foldl_cons, settle_of_nowhere (Or.inl rfl)]
  rw [resolve_of_isAbsolute absolute, left, joined]
  by_cases nothing : (rest.splitOn slash).foldl settle [] = []
  · rw [nothing]
    exact (List.nil_sublist rest).cons_cons slash
  · show (slash :: [slash].intercalate _).Sublist _
    have whole : (rest.splitOn slash).flatMap (slash :: ·) = slash :: rest := by
      rw [← Cut.cons_intercalate slash (List.splitOn_ne_nil slash rest), List.intercalate_splitOn]
    rw [Cut.cons_intercalate slash nothing, ← whole]
    exact (foldl_settle_sublist _ []).flatMap _

end

end EditorFlags.Path
