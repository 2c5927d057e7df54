import EditorFlags.Proofs.Text.Lines
import Mathlib.Data.List.Chain

/-!
# What ends the lines of a text

A text can be taken apart into lines and what each of them ends with: CR LF, CR, LF or, at the
end of the text, nothing. `IsCut` says which of the ways to do so are meant; what has to be
settled is that a CR and an LF after it are one ending, and that the text does not end in one
more line that is empty. There is a cut of every text (`exists_isCut`), and all cuts of a text
have the lines that it is split into (`IsCut.split_eq`).

The lines can also be had in steps: every CR LF is taken for an LF, then every CR is, and the
text is cut behind each LF, which is then taken away (`split_eq_map_withoutLf`).
-/

namespace EditorFlags.Lines

/-- What a line can end with. -/
inductive Ending where
  | crLf
  | cr
  | lf
  | none
deriving DecidableEq, Repr

/-- The characters of an ending. -/
def Ending.chars : Ending → List Char
  | .crLf => ['\r', '\n']
  | .cr => ['\r']
  | .lf => ['\n']
  | .none => []

/-- A line and what it ends with. -/
structure Part where
  line : List Char
  ending : Ending
deriving DecidableEq, Repr

/-- The line of a part as a text. -/
def Part.text (part : Part) : String :=
  String.ofList part.line

/-- All characters of a part. -/
def Part.chars (part : Part) : List Char :=
  part.line ++ part.ending.chars

/-- That some parts are the lines of a text and what these end with. -/
structure IsCut (text : List Char) (parts : List Part) : Prop where
  /-- Nothing is lost and nothing comes twice. -/
  whole : text = parts.flatMap Part.chars
  /-- What ends a line is not in it. -/
  unbroken : ∀ part ∈ parts, Unbroken part.line
  /-- A line that another one comes after has an ending. -/
  ended : parts.IsChain fun part _ => part.ending ≠ .none
  /-- A line without an ending is not empty. -/
  begun : ∀ part ∈ parts, part.ending = .none → part.line ≠ []
  /-- A CR and an LF after it do not end two lines. -/
  paired : parts.IsChain fun part next =>
    part.ending = .cr → ¬(next.line = [] ∧ next.ending = .lf)

/-! ## The lines of a cut -/

/-- A line before a text whose first line is known goes on with that line. -/
theorem split_append_of_split {line tail first : List Char} {others : List (List Char)}
    (unbroken : Unbroken line) (cut : split tail = first :: others) :
    split (line ++ tail) = (line ++ first) :: others := by
  induction line with
  | nil => exact cut
  | cons c line ih =>
      obtain ⟨plain, unbrokenRest⟩ := List.forall_mem_cons.mp unbroken
      rw [List.cons_append, split_cons plain, ih unbrokenRest]
      rfl

theorem split_of_unbroken {line : List Char} (unbroken : Unbroken line) (some : line ≠ []) :
    split line = [line] := by
  obtain ⟨front, last, rfl⟩ := (List.eq_nil_or_concat' line).resolve_left some
  have plain := unbroken last (by simp)
  have alone : split [last] = [[last]] := split_cons plain []
  exact split_append_of_split (fun c member => unbroken c (by simp [member])) alone

/-- A CR that no LF comes after ends a line. -/
theorem split_cr {rest : List Char} (noLf : rest.head? ≠ some '\n') :
    split ('\r' :: rest) = [] :: split rest :=
  split.eq_3 rest fun _ same => noLf (by rw [same, List.head?_cons])

/-- An ending before a text ends an empty line. -/
theorem split_ending_append {ending : Ending} (ends : ending ≠ .none) {rest : List Char}
    (noLf : ending = .cr → rest.head? ≠ some '\n') :
    split (ending.chars ++ rest) = [] :: split rest := by
  cases ending with
  | crLf => exact split.eq_2 rest
  | cr => exact split_cr (noLf rfl)
  | lf => exact split.eq_4 rest
  | none => exact absurd rfl ends

namespace IsCut

variable {text : List Char} {part : Part} {parts : List Part}

/-- A text begins with an LF if that is all there is of its first part. -/
theorem head?_eq_lf_iff (cut : IsCut text parts) :
    text.head? = some '\n' ↔ ∃ next ∈ parts.head?, next.line = [] ∧ next.ending = .lf := by
  cases parts with
  | nil => simp [cut.whole]
  | cons next others =>
      have unbroken := cut.unbroken next List.mem_cons_self
      have begun := cut.begun next List.mem_cons_self
      rw [cut.whole, List.flatMap_cons, Part.chars]
      cases spelled : next.line with
      | nil => cases ending : next.ending <;> simp_all [Ending.chars]
      | cons c line =>
          have plain := unbroken c (by simp [spelled])
          simpa [spelled] using plain.2

/-- An ending by itself ends an empty line. -/
theorem cons_ending (cut : IsCut text parts) (ending : Ending) (ends : ending ≠ .none)
    (noLf : ending = .cr → text.head? ≠ some '\n') :
    IsCut (ending.chars ++ text) (⟨[], ending⟩ :: parts) := by
  have unbroken : Unbroken [] := fun _ member => absurd member List.not_mem_nil
  refine ⟨?_, List.forall_mem_cons.mpr ⟨unbroken, cut.unbroken⟩, cut.ended.cons fun _ _ => ends,
    List.forall_mem_cons.mpr ⟨fun bare => absurd bare ends, cut.begun⟩, cut.paired.cons ?_⟩
  · rw [List.flatMap_cons, ← cut.whole]
    rfl
  · intro next member single bare
    exact noLf single (cut.head?_eq_lf_iff.mpr ⟨next, member, bare⟩)

theorem tail (cut : IsCut text (part :: parts)) : IsCut (parts.flatMap Part.chars) parts :=
  ⟨rfl, fun other member => cut.unbroken other (List.mem_cons_of_mem part member),
    cut.ended.tail, fun other member => cut.begun other (List.mem_cons_of_mem part member),
    cut.paired.tail⟩

/-- Whatever cut of a text is taken, it has the lines that the text is split into. -/
theorem split_eq (cut : IsCut text parts) : split text = parts.map Part.line := by
  induction parts generalizing text with
  | nil =>
      rw [cut.whole]
      rfl
  | cons part parts ih =>
      have unbroken := cut.unbroken part List.mem_cons_self
      have rest := ih cut.tail
      rw [cut.whole, List.flatMap_cons, Part.chars, List.append_assoc, List.map_cons, ← rest]
      by_cases ends : part.ending = .none
      · -- Then it is the last part.
        obtain rfl : parts = [] := by
          cases parts with
          | nil => rfl
          | cons next others => exact absurd ends (List.isChain_cons_cons.mp cut.ended).1
        have begun := cut.begun part List.mem_cons_self ends
        simpa [ends, Ending.chars, split] using split_of_unbroken unbroken begun
      · have noLf : part.ending = .cr → (parts.flatMap Part.chars).head? ≠ some '\n' := by
          intro ending lf
          obtain ⟨next, member, bare⟩ := cut.tail.head?_eq_lf_iff.mp lf
          exact (List.isChain_cons.mp cut.paired).1 next member ending bare
        simpa using split_append_of_split unbroken (split_ending_append ends noLf)

end IsCut

/-- A character that ends no line is put to the first line, or is the only one. -/
theorem IsCut.exists_cons {text : List Char} {parts : List Part} (cut : IsCut text parts) {c : Char}
    (plain : c ≠ '\r' ∧ c ≠ '\n') : ∃ more, IsCut (c :: text) more := by
  cases parts with
  | nil =>
      obtain rfl : text = [] := cut.whole
      exact ⟨[⟨[c], .none⟩], rfl, by simpa [Unbroken] using plain, by simp, by simp, by simp⟩
  | cons part parts =>
      have unbroken := List.forall_mem_cons.mp cut.unbroken
      have begun := List.forall_mem_cons.mp cut.begun
      refine ⟨⟨c :: part.line, part.ending⟩ :: parts, ?_, ?_, ?_, ?_, ?_⟩
      · rw [cut.whole]
        rfl
      · exact List.forall_mem_cons.mpr ⟨List.forall_mem_cons.mpr ⟨plain, unbroken.1⟩, unbroken.2⟩
      · exact List.isChain_cons.mpr (List.isChain_cons.mp cut.ended)
      · exact List.forall_mem_cons.mpr ⟨fun _ => List.cons_ne_nil c part.line, begun.2⟩
      · exact List.isChain_cons.mpr (List.isChain_cons.mp cut.paired)

theorem exists_isCut (text : List Char) : ∃ parts, IsCut text parts := by
  fun_induction split text with
  | case1 => exact ⟨[], by constructor <;> simp⟩
  | case2 rest ih =>
      obtain ⟨parts, cut⟩ := ih
      have ended := cut.cons_ending .crLf (by decide) (by simp)
      exact ⟨_, ended⟩
  | case3 rest noLf ih =>
      obtain ⟨parts, cut⟩ := ih
      have notFirst : rest.head? ≠ some '\n' := by
        intro lf
        obtain ⟨others, rfl⟩ := List.head?_eq_some_iff.mp lf
        exact noLf others rfl
      have ended := cut.cons_ending .cr (by decide) fun _ => notFirst
      exact ⟨_, ended⟩
  | case4 rest ih =>
      obtain ⟨parts, cut⟩ := ih
      have ended := cut.cons_ending .lf (by decide) (by simp)
      exact ⟨_, ended⟩
  | case5 c rest _ notCr notLf nothing ih =>
      obtain ⟨parts, cut⟩ := ih
      exact cut.exists_cons ⟨notCr, notLf⟩
  | case6 c rest _ notCr notLf first others found ih =>
      obtain ⟨parts, cut⟩ := ih
      exact cut.exists_cons ⟨notCr, notLf⟩

/-- A text has no lines if it is empty, and only then. -/
theorem IsCut.eq_nil_iff {text : List Char} {parts : List Part} (cut : IsCut text parts) :
    parts = [] ↔ text = [] := by
  constructor
  · rintro rfl
    exact cut.whole
  · rintro rfl
    rw [← List.map_eq_nil_iff (f := Part.line), ← cut.split_eq]
    rfl

/-! ## Lines in steps -/

/-- A text with an LF in the place of each CR LF. -/
def joinCrLf : List Char → List Char
  | [] => []
  | '\r' :: '\n' :: rest => '\n' :: joinCrLf rest
  | c :: rest => c :: joinCrLf rest

/-- A text with an LF in the place of each CR LF, and then of each CR that is left. -/
def withLf (text : List Char) : List Char :=
  (joinCrLf text).map fun c => if c = '\r' then '\n' else c

/-- A text cut behind each of its LFs. -/
def cutBehindLf : List Char → List (List Char)
  | [] => []
  | c :: rest =>
      if c = '\n' then [c] :: cutBehindLf rest
      else
        match cutBehindLf rest with
        | [] => [[c]]
        | piece :: pieces => (c :: piece) :: pieces

/-- A piece of a text without an LF at its end. -/
def withoutLf (piece : List Char) : List Char :=
  if piece.getLast? = some '\n' then piece.dropLast else piece

theorem withoutLf_cons {c : Char} (notLf : c ≠ '\n') (piece : List Char) :
    withoutLf (c :: piece) = c :: withoutLf piece := by
  cases piece with
  | nil => simp [withoutLf, notLf]
  | cons next piece =>
      rw [withoutLf, withoutLf, List.getLast?_cons_cons]
      split <;> rfl

theorem cutBehindLf_lf (rest : List Char) :
    (cutBehindLf ('\n' :: rest)).map withoutLf = [] :: (cutBehindLf rest).map withoutLf := by
  rw [cutBehindLf, if_pos rfl]
  rfl

theorem cutBehindLf_cons {c : Char} (notLf : c ≠ '\n') (rest : List Char) :
    (cutBehindLf (c :: rest)).map withoutLf =
      match (cutBehindLf rest).map withoutLf with
      | [] => [[c]]
      | line :: lines => (c :: line) :: lines := by
  rw [cutBehindLf, if_neg notLf]
  cases cutBehindLf rest with
  | nil => simp [withoutLf, notLf]
  | cons piece pieces => simp [withoutLf_cons notLf]

theorem withLf_cons {c : Char} (plain : c ≠ '\r' ∧ c ≠ '\n') (rest : List Char) :
    withLf (c :: rest) = c :: withLf rest := by
  have alone : joinCrLf (c :: rest) = c :: joinCrLf rest :=
    joinCrLf.eq_3 c rest fun _ cr => absurd cr plain.1
  rw [withLf, alone, List.map_cons, if_neg plain.1, withLf]

/-- Taking every ending for an LF and cutting behind these gives the lines, each with an LF that is
then taken away. -/
theorem split_eq_map_withoutLf (text : List Char) :
    split text = (cutBehindLf (withLf text)).map withoutLf := by
  fun_induction split text with
  | case1 => rfl
  | case2 rest ih =>
      have single : withLf ('\r' :: '\n' :: rest) = '\n' :: withLf rest := rfl
      rw [single, cutBehindLf_lf, ih]
  | case3 rest noLf ih =>
      have single : withLf ('\r' :: rest) = '\n' :: withLf rest := by
        rw [withLf, joinCrLf.eq_3 _ _ fun others _ => noLf others]
        rfl
      rw [single, cutBehindLf_lf, ih]
  | case4 rest ih =>
      have single : withLf ('\n' :: rest) = '\n' :: withLf rest := rfl
      rw [single, cutBehindLf_lf, ih]
  | case5 c rest _ notCr notLf nothing ih =>
      rw [withLf_cons ⟨notCr, notLf⟩, cutBehindLf_cons notLf, ← ih, nothing]
  | case6 c rest _ notCr notLf first others found ih =>
      rw [withLf_cons ⟨notCr, notLf⟩, cutBehindLf_cons notLf, ← ih, found]

end EditorFlags.Lines
