import EditorFlags.Proofs.Path.Moves
import EditorFlags.Proofs.Path.Normal

/-!
# Paths that are no text

A path that is no text is shown with U+FFFD in the place of what is none. It makes no difference
whether this is done to the whole path or to its names one by one, for a separator ends any run of
bytes that is replaced, and only `.` and `..` themselves are shown so (`components_mended`). Nor
does it make one whether a path is resolved before or after (`resolve_mended`), and a path is text
if all names on it are (`text?_eq_none_iff`).
-/

namespace EditorFlags.Path

/-- A path with what is no text in it replaced. -/
def mended (path : Path) : Path :=
  .ofText path.lossyText

theorem mended_ofText (text : String) : (ofText text).mended = ofText text := by
  simp only [mended, lossyText, ofText, Utf8.lossy_encode]

/-! ## Pieces -/

theorem intercalate_pieces (path : Path) : [slash].intercalate path.pieces = path.bytes :=
  List.intercalate_splitOn slash

theorem pieces_mended (path : Path) : path.mended.pieces = path.pieces.map Utf8.mend := by
  have whole : ∀ piece ∈ path.pieces.map Utf8.mend, slash ∉ piece := by
    intro piece member
    obtain ⟨original, found, rfl⟩ := List.mem_map.mp member
    exact slash_not_mem_mend (Cut.not_mem_of_mem_splitOn found)
  have some : path.pieces.map Utf8.mend ≠ [] :=
    mt List.map_eq_nil_iff.mp (List.splitOn_ne_nil slash path.bytes)
  show (Utf8.mend path.bytes).splitOn slash = _
  rw [← intercalate_pieces, mend_intercalate, List.splitOn_intercalate _ whole some]

/-- A path begins at the root if nothing stands before its first separator. -/
theorem isAbsolute_iff_pieces {path : Path} :
    path.isAbsolute = true ↔ ∃ others, path.pieces = [] :: others ∧ others ≠ [] := by
  rw [isAbsolute_iff]
  constructor
  · rintro ⟨rest, spelled⟩
    exact ⟨rest.splitOn slash, pieces_of_rooted spelled, List.splitOn_ne_nil slash rest⟩
  · rintro ⟨others, cut, some⟩
    refine ⟨[slash].intercalate others, ?_⟩
    rw [← intercalate_pieces, cut, List.intercalate_cons_of_ne_nil some]
    rfl

theorem isAbsolute_mended (path : Path) : path.mended.isAbsolute = path.isAbsolute := by
  rw [Bool.eq_iff_iff, isAbsolute_iff_pieces, isAbsolute_iff_pieces, pieces_mended]
  constructor
  · rintro ⟨others, cut, some⟩
    obtain ⟨first, rest, pieces, empty, rfl⟩ := List.map_eq_cons_iff.mp cut
    obtain rfl := Utf8.mend_eq_nil_iff.mp empty
    exact ⟨rest, pieces, by simpa using some⟩
  · rintro ⟨others, cut, some⟩
    exact ⟨others.map Utf8.mend, by rw [cut, List.map_cons, Utf8.mend_nil], by simpa using some⟩

/-! ## Components -/

/-- What names nothing still does, and nothing else does. -/
theorem mend_nowhere_iff {piece : Bytes} :
    (Utf8.mend piece = [] ∨ Utf8.mend piece = self) ↔ (piece = [] ∨ piece = self) :=
  or_congr Utf8.mend_eq_nil_iff mend_eq_self_iff

/-- A component with what is no text in it replaced. -/
def Component.mended : Component → Component
  | .name bytes => .name (Utf8.mend bytes)
  | step => step

/-- What a piece stands for does not change: only a name can be no text, and it stays a name. -/
theorem ofPiece?_mend (piece : Bytes) :
    Component.ofPiece? (Utf8.mend piece) = (Component.ofPiece? piece).map Component.mended := by
  rcases piece_cases piece with nowhere | rfl | proper
  · rw [ofPiece?_of_nowhere nowhere, ofPiece?_of_nowhere (mend_nowhere_iff.mpr nowhere)]
    rfl
  · rw [mend_eq_parent_iff.mpr rfl, ofPiece?_parent]
    rfl
  · rw [ofPiece?_of_isName proper, ofPiece?_of_isName (isName_mend_iff.mpr proper)]
    rfl

theorem components_mended (path : Path) :
    path.mended.components = path.components.map Component.mended := by
  have steps : path.mended.pieces.filterMap Component.ofPiece? =
      (path.pieces.filterMap Component.ofPiece?).map Component.mended := by
    rw [pieces_mended, List.filterMap_map, List.map_filterMap]
    exact List.filterMap_congr fun piece _ => ofPiece?_mend piece
  simp only [components, steps, isAbsolute_mended]
  split <;> rfl

/-! ## Resolving -/

theorem settle_mend (names : List Bytes) (piece : Bytes) :
    settle (names.map Utf8.mend) (Utf8.mend piece) = (settle names piece).map Utf8.mend := by
  rcases piece_cases piece with nowhere | rfl | proper
  · rw [settle_of_nowhere nowhere, settle_of_nowhere (mend_nowhere_iff.mpr nowhere)]
  · rw [mend_eq_parent_iff.mpr rfl, settle_parent, settle_parent, List.map_dropLast]
  · rw [settle_of_isName proper, settle_of_isName (isName_mend_iff.mpr proper), List.map_append,
      List.map_singleton]

theorem foldl_settle_mend (pieces names : List Bytes) :
    (pieces.map Utf8.mend).foldl settle (names.map Utf8.mend) =
      (pieces.foldl settle names).map Utf8.mend := by
  induction pieces generalizing names with
  | nil => rfl
  | cons piece rest ih => rw [List.map_cons, List.foldl_cons, settle_mend, ih, List.foldl_cons]

theorem settled_mended (path : Path) : path.mended.settled = path.settled.map Utf8.mend := by
  rw [settled, pieces_mended]
  exact foldl_settle_mend path.pieces []

theorem moves_mended (path : Path) : path.mended.moves = path.moves.map Utf8.mend := by
  rw [moves, pieces_mended, List.filter_map, moves]
  congr 1
  refine List.filter_congr fun piece _ => ?_
  simp only [Function.comp_apply, mend_nowhere_iff]

/-- What is joined comes to the same names, replaced one by one. -/
theorem settled_join_mended (base path : Path) :
    (base.mended.join path.mended).settled = (base.join path).settled.map Utf8.mend := by
  cases rooted : path.isAbsolute with
  | true =>
      have rootedToo : path.mended.isAbsolute = true := by rw [isAbsolute_mended, rooted]
      rw [join, if_pos rootedToo, join, if_pos rooted, settled_mended]
  | false =>
      have relative : path.mended.isAbsolute = false := by rw [isAbsolute_mended, rooted]
      rw [settled_join relative, settled_join rooted, settled_mended, moves_mended,
        foldl_settle_mend]

theorem isAbsolute_join_mended (base path : Path) :
    (base.mended.join path.mended).isAbsolute = (base.join path).isAbsolute := by
  cases rooted : path.isAbsolute with
  | true =>
      have rootedToo : path.mended.isAbsolute = true := by rw [isAbsolute_mended, rooted]
      rw [join, if_pos rootedToo, join, if_pos rooted, isAbsolute_mended]
  | false =>
      have relative : path.mended.isAbsolute = false := by rw [isAbsolute_mended, rooted]
      rw [isAbsolute_join_relative relative, isAbsolute_join_relative rooted, isAbsolute_mended]

/-- **Replacing what is no text commutes with resolving.** -/
theorem resolve_mended (base path : Path) :
    base.mended.resolve path.mended = (base.resolve path).mended := by
  have shown : (base.resolve path).mended = _ := ofText_lossyText_resolve base path
  rw [shown, resolve_eq_spell, settled_join_mended, isAbsolute_join_mended]

/-- A text is resolved against a base as it is shown. -/
theorem resolve_lossyText (base : Path) (text : String) :
    (ofText base.lossyText).resolve (ofText text) = (base.resolve (ofText text)).mended := by
  rw [← resolve_mended, mended_ofText]
  rfl

/-! ## Paths that are text -/

theorem name_mem_components_iff {path : Path} {name : Bytes} :
    .name name ∈ path.components ↔ name ∈ path.pieces ∧ IsName name := by
  have steps : .name name ∈ path.components ↔
      .name name ∈ path.pieces.filterMap Component.ofPiece? := by
    rw [components]
    split <;> simp
  rw [steps, List.mem_filterMap]
  constructor
  · rintro ⟨piece, member, stands⟩
    rcases piece_cases piece with nowhere | rfl | proper
    · rw [ofPiece?_of_nowhere nowhere] at stands
      cases stands
    · rw [ofPiece?_parent] at stands
      cases stands
    · rw [ofPiece?_of_isName proper] at stands
      cases stands
      exact ⟨member, proper⟩
  · rintro ⟨member, proper⟩
    exact ⟨name, member, ofPiece?_of_isName proper⟩

/-- That some name on a path is no text. -/
def HasBrokenName (path : Path) : Prop :=
  ∃ name, .name name ∈ path.components ∧ Utf8.decode? name = none

/-- Replacing leaves a path as it is if it leaves every piece of it as it is. -/
theorem mend_bytes_iff {path : Path} :
    Utf8.mend path.bytes = path.bytes ↔ ∀ piece ∈ path.pieces, Utf8.mend piece = piece := by
  constructor
  · intro same
    have pieces : path.pieces.map Utf8.mend = path.pieces := by
      rw [← pieces_mended, Path.pieces, Path.pieces]
      exact congrArg (List.splitOn slash) same
    rw [← List.map_id path.pieces, List.map_map] at pieces
    exact List.map_inj_left.mp pieces
  · intro each
    rw [← intercalate_pieces, mend_intercalate, List.map_congr_left each, List.map_id']

/-- A path is text if the names on it are. -/
theorem text?_eq_none_iff {path : Path} : path.text? = none ↔ path.HasBrokenName := by
  rw [text?, Utf8.decode?_eq_none_iff, Ne, mend_bytes_iff]
  simp only [HasBrokenName, name_mem_components_iff, Utf8.decode?_eq_none_iff]
  constructor
  · intro changed
    simp only [not_forall] at changed
    obtain ⟨piece, member, changes⟩ := changed
    refine ⟨piece, ⟨member, ?_⟩, changes⟩
    -- What is no name is text, and stays as it is.
    rcases piece_cases piece with (rfl | rfl) | rfl | proper
    · exact absurd Utf8.mend_nil changes
    · exact absurd (mend_eq_self_iff.mpr rfl) changes
    · exact absurd (mend_eq_parent_iff.mpr rfl) changes
    · exact proper
  · rintro ⟨name, ⟨member, -⟩, changes⟩ each
    exact changes (each name member)

end EditorFlags.Path
