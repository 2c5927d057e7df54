import EditorFlags.Proofs.Text.Words

/-!
# The lines of a text

No line has a CR or an LF in it (`unbroken_of_mem_split`), and lines that have none are
read back from the text in which an LF is put after each of them (`split_flatMap_ended`). A
text has at least as many lines as it has LFs.
-/

namespace EditorFlags.Lines

/-- That there is nothing in a line that would end it. -/
def Unbroken (line : List Char) : Prop :=
  ∀ c ∈ line, c ≠ '\r' ∧ c ≠ '\n'

/-- Words with nothing in them that would end a line make a line of that kind. -/
theorem unbroken_intercalate_iff {cut : List String} (nonempty : cut ≠ []) :
    Unbroken (" ".intercalate cut).toList ↔ ∀ word ∈ cut, Unbroken word.toList := by
  constructor
  · intro unbroken word member c found
    by_cases space : c = ' '
    · subst space
      decide
    · exact unbroken c ((mem_intercalate_iff nonempty space).mpr ⟨word, member, found⟩)
  · intro unbroken c found
    by_cases space : c = ' '
    · subst space
      decide
    · obtain ⟨word, member, inWord⟩ := (mem_intercalate_iff nonempty space).mp found
      exact unbroken word member c inWord

theorem split_cons {c : Char} (plain : c ≠ '\r' ∧ c ≠ '\n') (rest : List Char) :
    split (c :: rest) =
      match split rest with
      | [] => [[c]]
      | line :: lines => (c :: line) :: lines :=
  split.eq_5 c rest (fun _ same _ => plain.1 same) plain.1 plain.2

theorem unbroken_of_mem_split {text line : List Char} (member : line ∈ split text) :
    Unbroken line := by
  fun_induction split text generalizing line with
  | case1 => simp at member
  | case2 rest ih =>
      rcases List.mem_cons.mp member with rfl | later
      · simp [Unbroken]
      · exact ih later
  | case3 rest _ ih =>
      rcases List.mem_cons.mp member with rfl | later
      · simp [Unbroken]
      · exact ih later
  | case4 rest ih =>
      rcases List.mem_cons.mp member with rfl | later
      · simp [Unbroken]
      · exact ih later
  | case5 c rest _ notCr notLf nothing ih =>
      obtain rfl : line = [c] := by simpa using member
      simpa [Unbroken] using And.intro notCr notLf
  | case6 c rest _ notCr notLf first others cut ih =>
      rw [cut] at ih
      rcases List.mem_cons.mp member with rfl | later
      · have firstUnbroken := ih List.mem_cons_self
        exact List.forall_mem_cons.mpr ⟨⟨notCr, notLf⟩, firstUnbroken⟩
      · exact ih (List.mem_cons_of_mem first later)

theorem unbroken_of_mem_ofText {text line : String} (member : line ∈ ofText text) :
    Unbroken line.toList := by
  obtain ⟨chars, found, rfl⟩ := List.mem_map.mp member
  simpa using unbroken_of_mem_split found

theorem split_append_ended {line : List Char} (unbroken : Unbroken line) (rest : List Char) :
    split (line ++ '\n' :: rest) = line :: split rest := by
  induction line with
  | nil => exact split.eq_4 rest
  | cons c line ih =>
      obtain ⟨plain, unbrokenRest⟩ := List.forall_mem_cons.mp unbroken
      rw [List.cons_append, split_cons plain, ih unbrokenRest]

/-- Lines that an LF is put after are read back. -/
theorem split_flatMap_ended {lines : List (List Char)} (unbroken : ∀ line ∈ lines, Unbroken line) :
    split (lines.flatMap (· ++ ['\n'])) = lines := by
  induction lines with
  | nil => rfl
  | cons line lines ih =>
      obtain ⟨first, others⟩ := List.forall_mem_cons.mp unbroken
      rw [List.flatMap_cons, List.append_assoc, List.singleton_append, split_append_ended first,
        ih others]

theorem ofText_ended {lines : List String} (unbroken : ∀ line ∈ lines, Unbroken line.toList) :
    ofText (String.join (lines.map (· ++ "\n"))) = lines := by
  have chars : (String.join (lines.map (· ++ "\n"))).toList =
      (lines.map String.toList).flatMap (· ++ ['\n']) := by
    simp [String.toList_join, List.flatMap_map]
  rw [ofText, chars, split_flatMap_ended (by simpa using unbroken)]
  simp

/-- Each LF of a text ends a line of it. -/
theorem count_le_length_split (text : List Char) : text.count '\n' ≤ (split text).length := by
  fun_induction split text with
  | case1 => exact Nat.le_refl 0
  | case2 rest ih => simpa using ih
  | case3 rest _ ih => simpa using Nat.le_succ_of_le ih
  | case4 rest ih => simpa using ih
  | case5 c rest _ notCr notLf nothing ih =>
      rw [List.count_cons_of_ne notLf]
      simp [nothing] at ih
      omega
  | case6 c rest _ notCr notLf first others cut ih =>
      rw [List.count_cons_of_ne notLf]
      simpa [cut] using ih

end EditorFlags.Lines
