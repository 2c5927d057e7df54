import EditorFlags.Proofs.Text.Cut
import EditorFlags.Text.Lines
import Mathlib.Logic.Basic

/-!
# The words of a line

Cutting a line into words loses its spaces and nothing else: joined by single
spaces the words are the line again (`intercalate_words`), and put together
without anything between them they are the line without its spaces
(`join_words`). A line cut at one of its spaces has the words of the two sides
(`words_append_space`), and every cut between words comes from such a space
(`words_eq_append`).
-/

namespace EditorFlags.Lines

/-- A text without its spaces. -/
def withoutSpaces (text : String) : String :=
  String.ofList (text.toList.filter (· != ' '))

@[simp] theorem withoutSpaces_append (left right : String) :
    withoutSpaces (left ++ right) = withoutSpaces left ++ withoutSpaces right := by
  simp [withoutSpaces]

@[simp] theorem withoutSpaces_space : withoutSpaces " " = "" := by
  decide

theorem withoutSpaces_of_spaceless {text : String} (spaceless : ' ' ∉ text.toList) :
    withoutSpaces text = text := by
  have all : text.toList.filter (· != ' ') = text.toList := by
    rw [List.filter_eq_self]
    intro c member
    have notSpace : c ≠ ' ' := fun same => spaceless (same ▸ member)
    simpa using notSpace
  rw [withoutSpaces, all, String.ofList_toList]

theorem words_of_spaceless {line : String} (spaceless : ' ' ∉ line.toList) :
    words line = [line] := by
  simp [words, List.splitOn_eq_singleton spaceless]

theorem words_append_space (left right : String) :
    words (left ++ " " ++ right) = words left ++ words right := by
  simp [words, List.splitOn_append_cons_self]

/-- No word has a space in it. -/
theorem spaceless_of_mem_words {line word : String} (member : word ∈ words line) :
    ' ' ∉ word.toList := by
  obtain ⟨piece, found, rfl⟩ := List.mem_map.mp member
  simpa using Cut.not_mem_of_mem_splitOn found

/-- A line has one word more than it has spaces. -/
theorem length_words (line : String) : (words line).length = line.toList.count ' ' + 1 := by
  rw [words, List.length_map, Cut.length_splitOn]

theorem words_ne_nil (line : String) : words line ≠ [] := by
  simp [words, List.splitOn_ne_nil]

theorem intercalate_words (line : String) : " ".intercalate (words line) = line := by
  rw [← String.toList_inj, String.toList_intercalate]
  simp [words, Function.comp_def]

/-- Putting spaces between words adds no other characters. -/
theorem mem_intercalate_iff {c : Char} {cut : List String} (nonempty : cut ≠ [])
    (notSpace : c ≠ ' ') :
    c ∈ (" ".intercalate cut).toList ↔ ∃ word ∈ cut, c ∈ word.toList := by
  have whole := @Cut.mem_cons_intercalate_iff _ ' ' c (cut.map String.toList) (by simpa)
  rw [String.toList_intercalate]
  simpa [notSpace] using whole

theorem join_eq_withoutSpaces {cut : List String} (spaceless : ∀ word ∈ cut, ' ' ∉ word.toList) :
    String.join cut = withoutSpaces (" ".intercalate cut) := by
  induction cut with
  | nil => rfl
  | cons word others ih =>
      have whole := withoutSpaces_of_spaceless (spaceless word List.mem_cons_self)
      have rest := ih fun other member => spaceless other (List.mem_cons_of_mem word member)
      cases others with
      | nil => simp [whole]
      | cons next others =>
          rw [String.join_cons, rest, String.intercalate_cons_cons, withoutSpaces_append,
            withoutSpaces_append, whole, withoutSpaces_space, String.append_empty]

theorem join_words (line : String) : String.join (words line) = withoutSpaces line := by
  rw [join_eq_withoutSpaces fun word => spaceless_of_mem_words, intercalate_words]

theorem words_intercalate {cut : List String} (nonempty : cut ≠ [])
    (spaceless : ∀ word ∈ cut, ' ' ∉ word.toList) : words (" ".intercalate cut) = cut := by
  have pieces : (" ".intercalate cut).toList.splitOn ' ' = cut.map String.toList := by
    rw [String.toList_intercalate]
    apply List.splitOn_intercalate
    · intro piece member
      obtain ⟨word, found, rfl⟩ := List.mem_map.mp member
      exact spaceless word found
    · simpa using nonempty
  rw [words, pieces, List.map_map]
  simp [Function.comp_def]

/-- A cut between the words of a line is at a space of the line. -/
theorem words_eq_append {line : String} {before after : List String}
    (cut : words line = before ++ after) (nonemptyBefore : before ≠ [])
    (nonemptyAfter : after ≠ []) :
    ∃ left right, line = left ++ " " ++ right ∧ words left = before ∧ words right = after := by
  have spaceless : ∀ word ∈ before ++ after, ' ' ∉ word.toList := by
    intro word member
    exact spaceless_of_mem_words (cut ▸ member)
  refine ⟨" ".intercalate before, " ".intercalate after, ?_, ?_, ?_⟩
  · rw [← String.intercalate_append_of_ne_nil nonemptyBefore nonemptyAfter, ← cut,
      intercalate_words]
  · exact words_intercalate nonemptyBefore fun word member =>
      spaceless word (List.mem_append_left after member)
  · exact words_intercalate nonemptyAfter fun word member =>
      spaceless word (List.mem_append_right before member)

end EditorFlags.Lines
