import Mathlib.Data.List.Basic
import Mathlib.Data.List.Flatten

/-!
# Lists cut at a separator

What stands between two separators has no separator in it. Put after each other with
separators between them, parts take up the separators of the parts but for the first.
-/

namespace EditorFlags.Cut

variable {α : Type}

theorem not_mem_of_mem_splitOn [BEq α] [LawfulBEq α] {separator : α} {list part : List α}
    (member : part ∈ list.splitOn separator) : separator ∉ part := by
  induction list generalizing part with
  | nil =>
      obtain rfl : part = [] := by simpa using member
      exact List.not_mem_nil
  | cons first rest ih =>
      rw [List.splitOn_cons_eq_if_modifyHead] at member
      split at member
      · rcases List.mem_cons.mp member with rfl | member
        · exact List.not_mem_nil
        · exact ih member
      · next other =>
          obtain ⟨head, others, cut⟩ :=
            List.exists_cons_of_ne_nil (List.splitOn_ne_nil separator rest)
          rw [cut, List.modifyHead_cons, List.mem_cons] at member
          rcases member with rfl | member
          · have inHead : separator ∉ head := ih (by simp [cut])
            have different : separator ≠ first := by
              rintro rfl
              exact other (BEq.rfl)
            simp [inHead, different]
          · exact ih (by simp [cut, member])

/-- There is a separator between any two parts. -/
theorem length_splitOn [BEq α] [LawfulBEq α] (separator : α) (list : List α) :
    (list.splitOn separator).length = list.count separator + 1 := by
  induction list with
  | nil => rfl
  | cons first rest ih =>
      rw [List.splitOn_cons_eq_if_modifyHead, List.count_cons]
      split <;> simp [ih]

/-- Parts with a separator put after each are cut at those, and wherever else they have one. -/
theorem splitOn_flatMap_ended [BEq α] [LawfulBEq α] (separator : α) (parts : List (List α)) :
    (parts.flatMap (· ++ [separator])).splitOn separator =
      (parts.flatMap fun part => part.splitOn separator) ++ [[]] := by
  induction parts with
  | nil => rfl
  | cons part others ih =>
      rw [List.flatMap_cons, List.append_assoc, List.singleton_append,
        List.splitOn_append_cons_self, ih, List.flatMap_cons, List.append_assoc]

/-- Parts stay as they are if there is no separator in them, and only then. -/
theorem flatMap_splitOn_eq_self_iff [BEq α] [LawfulBEq α] {separator : α}
    {parts : List (List α)} :
    (parts.flatMap fun part => part.splitOn separator) = parts ↔
      ∀ part ∈ parts, separator ∉ part := by
  constructor
  · intro same part member
    rw [← same] at member
    obtain ⟨whole, -, inWhole⟩ := List.mem_flatMap.mp member
    exact not_mem_of_mem_splitOn inWhole
  · intro whole
    have each : ∀ part ∈ parts, part.splitOn separator = [part] := fun part member =>
      List.splitOn_eq_singleton (whole part member)
    rw [List.flatMap_congr each, List.flatMap_singleton']

/-- With a separator put before them, parts are each a separator and the part. -/
theorem cons_intercalate (separator : α) {parts : List (List α)} (some : parts ≠ []) :
    separator :: [separator].intercalate parts = parts.flatMap (separator :: ·) := by
  induction parts with
  | nil => exact absurd rfl some
  | cons part others ih =>
      cases others with
      | nil => simp
      | cons next others =>
          rw [List.intercalate_cons_cons, List.flatMap_cons, ← ih (List.cons_ne_nil _ _)]
          simp

/-- What is in the whole is a separator or in a part. -/
theorem mem_cons_intercalate_iff {separator element : α} {parts : List (List α)}
    (some : parts ≠ []) :
    element ∈ separator :: [separator].intercalate parts ↔
      element = separator ∨ ∃ part ∈ parts, element ∈ part := by
  obtain ⟨first, others, rfl⟩ := List.exists_cons_of_ne_nil some
  rw [cons_intercalate separator some]
  simp only [List.mem_flatMap, List.mem_cons]
  constructor
  · rintro ⟨part, member, rfl | found⟩
    · exact .inl rfl
    · exact .inr ⟨part, member, found⟩
  · rintro (rfl | ⟨part, member, found⟩)
    · exact ⟨first, .inl rfl, .inl rfl⟩
    · exact ⟨part, member, .inr found⟩

theorem intercalate_concat (separator : α) {parts : List (List α)} (some : parts ≠ [])
    (last : List α) :
    [separator].intercalate (parts ++ [last]) =
      [separator].intercalate parts ++ separator :: last := by
  have whole := cons_intercalate separator (List.append_ne_nil_of_left_ne_nil some [last])
  rw [List.flatMap_append, ← cons_intercalate separator some] at whole
  simpa using whole

end EditorFlags.Cut
