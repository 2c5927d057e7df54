import EditorFlags.Proofs.FlagFile
import EditorFlags.Proofs.Text.Lines
import EditorFlags.Proofs.Text.Utf8
import Mathlib.Data.List.Basic

/-!
# Streams of items

The items of some lines can be told from other lists of items: there is at least one word
before each end of line, no word has a space in it or anything that ends a line, and nothing
comes after the last end of line (`isStream_iff`). A list of that kind can be cut back into
the lines that it came from (`lines_flatMap_ofLine`), and a file with these lines has
exactly its items (`result_extract_text`).
-/

namespace EditorFlags

namespace Item

/-- The words before each end of line, and those after the last one if there are any. -/
def groups : List Item → List (List String)
  | [] => []
  | .endOfLine :: rest => [] :: groups rest
  | .token text :: rest =>
      match groups rest with
      | [] => [[text]]
      | group :: others => (text :: group) :: others

/-- The lines that some items came from: their words, with single spaces between them. -/
def lines (items : List Item) : List String :=
  (groups items).map " ".intercalate

/-- The text in which each of these lines is followed by an LF. -/
def text (items : List Item) : String :=
  String.join ((lines items).map (· ++ "\n"))

/-- That some items come as the items of lines do. -/
structure IsStream (items : List Item) : Prop where
  /-- There is a word before each end of line. -/
  filled : ∀ group ∈ groups items, group ≠ []
  /-- Words are not cut any further. -/
  spaceless : ∀ word, .token word ∈ items → ' ' ∉ word.toList
  /-- Words do not end their line. -/
  unbroken : ∀ word, .token word ∈ items → '\r' ∉ word.toList ∧ '\n' ∉ word.toList
  /-- The last item is an end of line. -/
  ended : items = [] ∨ items.getLast? = some .endOfLine

/-! ## Cutting -/

theorem groups_append_endOfLine (words : List String) (rest : List Item) :
    groups (words.map .token ++ .endOfLine :: rest) = words :: groups rest := by
  induction words with
  | nil => rfl
  | cons word words ih =>
      show (match groups (words.map .token ++ .endOfLine :: rest) with
        | [] => [[word]]
        | group :: others => (word :: group) :: others) = _
      rw [ih]

theorem ofLine_append (line : String) (rest : List Item) :
    ofLine line ++ rest = (Lines.words line).map .token ++ .endOfLine :: rest := by
  rw [ofLine, List.append_assoc, List.singleton_append]

theorem groups_flatMap_ofLine (sources : List String) :
    groups (sources.flatMap ofLine) = sources.map Lines.words := by
  induction sources with
  | nil => rfl
  | cons line sources ih =>
      rw [List.flatMap_cons, ofLine_append, groups_append_endOfLine, ih, List.map_cons]

/-- The lines are got back from their items. -/
theorem lines_flatMap_ofLine (sources : List String) :
    lines (sources.flatMap ofLine) = sources := by
  have joined : ∀ line ∈ sources, " ".intercalate (Lines.words line) = line := by
    intro line _
    exact Lines.intercalate_words line
  rw [lines, groups_flatMap_ofLine, List.map_map]
  exact (List.map_congr_left joined).trans (List.map_id sources)

/-- Nothing but the ends of line is lost when items are cut. -/
theorem flatMap_groups {items : List Item}
    (ended : items = [] ∨ items.getLast? = some .endOfLine) :
    (groups items).flatMap (fun group => group.map .token ++ [.endOfLine]) = items := by
  induction items with
  | nil => rfl
  | cons item rest ih =>
      cases rest with
      | nil =>
          obtain rfl : item = .endOfLine := by simpa using ended
          rfl
      | cons next rest =>
          have later : (next :: rest).getLast? = some .endOfLine := by
            simpa [List.getLast?_cons_cons] using ended
          have cut := ih (.inr later)
          cases item with
          | endOfLine =>
              rw [groups, List.flatMap_cons, cut]
              rfl
          | token text =>
              rw [groups]
              -- There is an end of line to come, so the word is put before other words.
              cases others : groups (next :: rest) with
              | nil => simp [others] at cut
              | cons group others =>
                  simp only [‹groups (next :: rest) = _›] at cut ⊢
                  rw [← cut]
                  rfl

theorem token_mem_iff {items : List Item}
    (ended : items = [] ∨ items.getLast? = some .endOfLine) {word : String} :
    .token word ∈ items ↔ ∃ group ∈ groups items, word ∈ group := by
  have cut := flatMap_groups ended
  constructor
  · intro member
    rw [← cut] at member
    simpa using member
  · rintro ⟨group, found, inGroup⟩
    rw [← cut]
    simpa using ⟨group, found, inGroup⟩

/-! ## Which items come from lines -/

theorem isStream_flatMap_ofLine {sources : List String}
    (unbroken : ∀ line ∈ sources, Lines.Unbroken line.toList) :
    IsStream (sources.flatMap ofLine) := by
  have ended : sources.flatMap ofLine = [] ∨
      (sources.flatMap ofLine).getLast? = some .endOfLine := by
    rcases List.eq_nil_or_concat sources with rfl | ⟨before, last, rfl⟩
    · exact .inl rfl
    · right
      simp [ofLine]
  have inLine (word : String) (member : .token word ∈ sources.flatMap ofLine) :
      ∃ line ∈ sources, word ∈ Lines.words line := by
    simpa [groups_flatMap_ofLine] using (token_mem_iff ended).mp member
  refine ⟨?_, ?_, ?_, ended⟩
  · intro group member
    rw [groups_flatMap_ofLine] at member
    obtain ⟨line, _, rfl⟩ := List.mem_map.mp member
    exact Lines.words_ne_nil line
  · intro word member
    obtain ⟨line, _, inWords⟩ := inLine word member
    exact Lines.spaceless_of_mem_words inWords
  · intro word member
    obtain ⟨line, found, inWords⟩ := inLine word member
    have whole := unbroken line found
    rw [← Lines.intercalate_words line,
      Lines.unbroken_intercalate_iff (Lines.words_ne_nil line)] at whole
    have wordUnbroken := whole word inWords
    exact ⟨fun cr => (wordUnbroken '\r' cr).1 rfl, fun lf => (wordUnbroken '\n' lf).2 rfl⟩

namespace IsStream

variable {items : List Item}

theorem group_spaceless (stream : IsStream items) {group : List String}
    (member : group ∈ groups items) : ∀ word ∈ group, ' ' ∉ word.toList := by
  intro word inGroup
  exact stream.spaceless word ((token_mem_iff stream.ended).mpr ⟨group, member, inGroup⟩)

/-- A stream is what its own lines are cut into. -/
theorem flatMap_lines (stream : IsStream items) : (lines items).flatMap ofLine = items := by
  have each : ∀ group ∈ groups items,
      ofLine (" ".intercalate group) = group.map .token ++ [.endOfLine] := by
    intro group member
    rw [ofLine, Lines.words_intercalate (stream.filled group member)
      (stream.group_spaceless member)]
  calc (lines items).flatMap ofLine
      = (groups items).flatMap fun group => ofLine (" ".intercalate group) := by
        rw [lines, List.flatMap_map]
    _ = (groups items).flatMap fun group => group.map .token ++ [.endOfLine] :=
        List.flatMap_congr each
    _ = items := flatMap_groups stream.ended

theorem lines_unbroken (stream : IsStream items) :
    ∀ line ∈ lines items, Lines.Unbroken line.toList := by
  intro line member
  obtain ⟨group, found, rfl⟩ := List.mem_map.mp member
  rw [Lines.unbroken_intercalate_iff (stream.filled group found)]
  intro word inGroup c inWord
  obtain ⟨noCr, noLf⟩ := stream.unbroken word
    ((token_mem_iff stream.ended).mpr ⟨group, found, inGroup⟩)
  constructor
  · rintro rfl
    exact noCr inWord
  · rintro rfl
    exact noLf inWord

end IsStream

theorem isStream_iff {items : List Item} :
    IsStream items ↔
      ∃ sources : List String, (∀ line ∈ sources, Lines.Unbroken line.toList) ∧
        items = sources.flatMap ofLine := by
  constructor
  · intro stream
    exact ⟨lines items, stream.lines_unbroken, stream.flatMap_lines.symm⟩
  · rintro ⟨sources, unbroken, rfl⟩
    exact isStream_flatMap_ofLine unbroken

/-- Lines have a word each, and one more for each of their spaces. -/
theorem length_tokens_flatMap_ofLine (sources : List String) :
    (tokens (sources.flatMap ofLine)).length =
      sources.length + (sources.flatMap String.toList).count ' ' := by
  induction sources with
  | nil => rfl
  | cons line sources ih =>
      have own : tokens (ofLine line) = Lines.words line := by
        simp [tokens, ofLine, token?, List.filterMap_map, Function.comp_def]
      rw [tokens] at own ih ⊢
      rw [List.flatMap_cons, List.filterMap_append, List.length_append, own, Lines.length_words,
        ih, List.length_cons, List.flatMap_cons, List.count_append]
      omega

end Item

namespace FlagFile

variable {read? : Path → Option Bytes}

/-- The lines of flag files have nothing in them that ends a line. -/
theorem unbroken_of_mem_sourceLines {sources : List Path} {line : String}
    (member : line ∈ sourceLines read? sources) : Lines.Unbroken line.toList := by
  obtain ⟨path, _, inFile⟩ := List.mem_flatMap.mp member
  unfold linesAt at inFile
  split at inFile
  · simp at inFile
  · exact Lines.unbroken_of_mem_ofText inFile

/-- The items of a stream are read from a file with the text of the stream. -/
theorem result_extract_text {items : List Item} (stream : Item.IsStream items) {path : Path}
    (found : read? path = some (Utf8.encode (Item.text items))) :
    (extract read? [path]).result = .ok items := by
  have decoded : (read? path).bind Utf8.decode? = some (Item.text items) := by
    rw [found, Option.bind_some, Utf8.decode?_encode]
  have there : sourceLines read? [path] = Item.lines items := by
    rw [sourceLines, List.flatMap_singleton, linesAt, decoded]
    exact Lines.ofText_ended stream.lines_unbroken
  rw [result_extract_eq_ok_iff, there, stream.flatMap_lines]
  refine ⟨?_, rfl⟩
  intro other member bytes same
  obtain rfl : other = path := List.mem_singleton.mp member
  rw [found, Option.some.injEq] at same
  rw [← same, Utf8.decode?_encode]
  rfl

end FlagFile

end EditorFlags
