import EditorFlags.Proofs.Path.Resolve

/-!
# Where a path leads from

Of the pieces of a path only some lead anywhere: neither the empty ones nor `.` do. These
`moves` are what paths have in common that differ in repeated separators and the like. Joining
puts the moves of the right path after those of the left one, making a path absolute puts
those of the working directory before its own, and resolving looks at nothing else.
-/

namespace EditorFlags.Path

/-- The pieces of a path that lead anywhere. -/
def moves (path : Path) : List Bytes :=
  path.pieces.filter fun piece => ¬(piece = [] ∨ piece = self)

theorem pieces_append (left right : Bytes) :
    pieces ⟨left ++ slash :: right⟩ = pieces ⟨left⟩ ++ pieces ⟨right⟩ :=
  List.splitOn_append_cons_self ..

/-- Separators aside, joining puts pieces together. -/
theorem filter_pieces_join {keeps : Bytes → Bool} (noSlash : keeps [] = false) {right : Path}
    (relative : right.isAbsolute = false) (left : Path) :
    (left.join right).pieces.filter keeps =
      left.pieces.filter keeps ++ right.pieces.filter keeps := by
  have nothing : (pieces ⟨[]⟩).filter keeps = [] := by
    rw [pieces, List.splitOn_nil, List.filter_cons_of_neg (by simp [noSlash]), List.filter_nil]
  rw [join, if_neg (by simp [relative])]
  by_cases empty : left.bytes = []
  · obtain ⟨bytes⟩ := left
    obtain rfl : bytes = [] := empty
    rw [if_pos (by rfl), nothing]
    rfl
  by_cases ends : left.endsInSlash = true
  · obtain ⟨front, last, same⟩ := (List.eq_nil_or_concat' left.bytes).resolve_left empty
    obtain rfl : last = slash := by simpa [endsInSlash, same] using ends
    have whole : left.pieces = pieces ⟨front⟩ ++ pieces ⟨[]⟩ := by
      rw [← pieces_append, ← same]
    rw [if_pos (by simp [ends]), same, List.append_assoc, List.singleton_append, pieces_append,
      whole, List.filter_append, List.filter_append, nothing, List.append_nil]
  · rw [if_neg (by simp [empty, ends]), pieces_append, List.filter_append]

theorem moves_join {right : Path} (relative : right.isAbsolute = false) (left : Path) :
    (left.join right).moves = left.moves ++ right.moves :=
  filter_pieces_join (by decide) relative left

theorem moves_of_whole {piece : Bytes} (whole : slash ∉ piece)
    (leads : ¬(piece = [] ∨ piece = self)) : moves ⟨piece⟩ = [piece] := by
  rw [moves, pieces, List.splitOn_eq_singleton whole]
  simpa using leads

/-- A path with something put after it ends with what has been put there. -/
theorem exists_bytes_join (left right : Path) :
    ∃ front, (left.join right).bytes = front ++ right.bytes := by
  unfold join
  split
  · exact ⟨[], rfl⟩
  · split
    · exact ⟨left.bytes, rfl⟩
    · exact ⟨left.bytes ++ [slash], by simp⟩

theorem endsInSlash_join (left : Path) {right : Path} (named : right.bytes ≠ []) :
    (left.join right).endsInSlash = right.endsInSlash := by
  obtain ⟨front, joined⟩ := exists_bytes_join left right
  rw [endsInSlash, joined, List.getLast?_append_of_ne_nil _ named, endsInSlash]

/-- Bytes other than those of separators and `.` are in the moves. -/
theorem mem_bytes_iff {path : Path} {byte : UInt8} (noSlash : byte ≠ slash) (noDot : byte ∉ self) :
    byte ∈ path.bytes ↔ ∃ move ∈ path.moves, byte ∈ move := by
  have inPieces := @Cut.mem_cons_intercalate_iff _ slash byte _
    (List.splitOn_ne_nil slash path.bytes)
  rw [List.intercalate_splitOn, List.mem_cons] at inPieces
  simp only [noSlash, false_or] at inPieces
  rw [inPieces]
  constructor
  · rintro ⟨piece, member, inside⟩
    refine ⟨piece, List.mem_filter.mpr ⟨member, ?_⟩, inside⟩
    have leads : ¬(piece = [] ∨ piece = self) := by
      rintro (rfl | rfl)
      · cases inside
      · exact noDot inside
    simpa using leads
  · rintro ⟨move, member, inside⟩
    exact ⟨move, (List.mem_filter.mp member).1, inside⟩

/-! ## Absolute paths -/

theorem exists_ofPiece? {piece : Bytes} (leads : ¬(piece = [] ∨ piece = self)) :
    ∃ step, Component.ofPiece? piece = some step ∧ step.spelling = ⟨piece⟩ ∧ step ≠ .root := by
  rcases (piece_cases piece).resolve_left leads with rfl | proper
  · exact ⟨.up, ofPiece?_parent, rfl, by decide⟩
  · exact ⟨.name piece, ofPiece?_of_isName proper, rfl, by simp⟩

theorem moves_extend {pieces : List Bytes} (whole : ∀ piece ∈ pieces, slash ∉ piece)
    (trail : Trail) :
    (trail.extend (pieces.filterMap Component.ofPiece?)).path.moves =
      trail.path.moves ++ pieces.filter fun piece => ¬(piece = [] ∨ piece = self) := by
  induction pieces generalizing trail with
  | nil => simp [Trail.extend]
  | cons piece rest ih =>
      obtain ⟨wholePiece, wholeRest⟩ := List.forall_mem_cons.mp whole
      by_cases nowhere : piece = [] ∨ piece = self
      · rw [List.filterMap_cons_none (ofPiece?_of_nowhere nowhere),
          List.filter_cons_of_neg (by simp [nowhere]), ih wholeRest]
      · obtain ⟨step, taken, spelled, -⟩ := exists_ofPiece? nowhere
        have relative : isAbsolute ⟨piece⟩ = false := by
          simpa [isAbsolute] using head?_ne_slash wholePiece
        rw [List.filterMap_cons_some taken, List.filter_cons_of_pos (by simp [nowhere])]
        have joined := ih wholeRest (trail.join step.spelling)
        rw [Trail.path_join, spelled, moves_join relative,
          moves_of_whole wholePiece nowhere] at joined
        rw [← spelled] at joined
        simpa [Trail.extend] using joined

theorem isAbsolute_of_double {path : Path} (double : path.hasDoubleRoot = true) :
    path.isAbsolute = true := by
  unfold hasDoubleRoot at double
  split at double
  · next first second rest spelled =>
      simp only [Bool.and_eq_true, beq_iff_eq] at double
      exact isAbsolute_iff.mpr ⟨second :: rest, by rw [spelled, double.1.1]⟩
  · cases double

/-- The moves of a path as seen from a working directory. -/
def movesFrom (path workingDirectory : Path) : List Bytes :=
  if path.isAbsolute then path.moves else workingDirectory.moves ++ path.moves

theorem moves_of_absolute? {workingDirectory path base : Path}
    (made : absolute? workingDirectory path = some base) :
    base.moves = path.movesFrom workingDirectory := by
  have whole : ∀ piece ∈ path.pieces, slash ∉ piece := fun piece member =>
    Cut.not_mem_of_mem_splitOn member
  unfold absolute? at made
  split at made
  · simp at made
  obtain rfl := Option.some.inj made
  have inside :
      (if path.hasDoubleRoot then (Trail.mk [slash, slash]).extend (path.components.drop 1)
      else if path.isAbsolute then (Trail.mk []).extend path.components
      else (Trail.ofPath workingDirectory).extend path.components).path.moves =
        path.movesFrom workingDirectory := by
    by_cases rooted : path.isAbsolute = true
    · have own : path.movesFrom workingDirectory = path.moves := if_pos rooted
      have steps : path.components = .root :: path.pieces.filterMap Component.ofPiece? :=
        if_pos rooted
      rw [own, steps]
      have fromRoot (slashes : Bytes) (none : moves ⟨slashes.reverse⟩ = []) :
          ((Trail.mk slashes).extend (path.pieces.filterMap Component.ofPiece?)).path.moves =
            path.moves := by
        rw [moves_extend whole, Trail.path, none]
        rfl
      by_cases double : path.hasDoubleRoot = true
      · rw [if_pos double]
        exact fromRoot [slash, slash] (by decide)
      · rw [if_neg double, if_pos rooted]
        exact fromRoot [slash] (by decide)
    · have single : ¬ path.hasDoubleRoot = true :=
        fun double => rooted (isAbsolute_of_double double)
      rw [movesFrom, if_neg single, if_neg rooted, if_neg rooted, components, if_neg rooted,
        moves_extend whole, Trail.path_ofPath]
      rfl
  split
  · rw [Trail.path_join, moves_join rfl, inside]
    exact List.append_nil _
  · exact inside

/-! ## Components and resolved paths -/

/-- The moves of a path are what its components are spelled like, less the root. -/
theorem moves_eq_map_components (path : Path) :
    path.moves = (path.components.filter (· ≠ .root)).map fun step => step.spelling.bytes := by
  have steps (pieces : List Bytes) :
      (pieces.filter fun piece => ¬(piece = [] ∨ piece = self)) =
        ((pieces.filterMap Component.ofPiece?).filter (· ≠ .root)).map
          fun step => step.spelling.bytes := by
    induction pieces with
    | nil => rfl
    | cons piece rest ih =>
        by_cases nowhere : piece = [] ∨ piece = self
        · rw [List.filterMap_cons_none (ofPiece?_of_nowhere nowhere),
            List.filter_cons_of_neg (by simp [nowhere]), ih]
        · obtain ⟨step, taken, spelled, noRoot⟩ := exists_ofPiece? nowhere
          rw [List.filterMap_cons_some taken, List.filter_cons_of_pos (by simp [nowhere]),
            List.filter_cons_of_pos (by simp [noRoot]), List.map_cons, spelled, ih]
  rw [moves, steps, components]
  split <;> simp

theorem settled_eq_foldl_moves (path : Path) : path.settled = path.moves.foldl settle [] := by
  rw [moves, List.foldl_filter, settled]
  congr 1
  funext names piece
  by_cases nowhere : piece = [] ∨ piece = self
  · rw [settle_of_nowhere nowhere, if_neg (by simp [nowhere])]
  · rw [if_pos (by simp [nowhere])]

theorem settled_join {right : Path} (relative : right.isAbsolute = false) (left : Path) :
    (left.join right).settled = right.moves.foldl settle left.settled := by
  rw [settled_eq_foldl_moves, moves_join relative, List.foldl_append, ← settled_eq_foldl_moves]

/-- **Only the moves of the base count** when a relative path is resolved. -/
theorem resolve_congr {base other path : Path} (absolute : base.isAbsolute = true)
    (absoluteToo : other.isAbsolute = true) (same : base.moves = other.moves)
    (relative : path.isAbsolute = false) : base.resolve path = other.resolve path := by
  apply resolve_congr_join
  · rw [isAbsolute_join absolute, isAbsolute_join absoluteToo]
  · rw [settled_join relative, settled_join relative, settled_eq_foldl_moves base, same,
      ← settled_eq_foldl_moves]

end EditorFlags.Path
