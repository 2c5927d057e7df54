import EditorFlags.Proofs.FileTree.Walk
import EditorFlags.Proofs.Path.Moves
import Mathlib.Tactic.SplitIfs

/-!
# Looking up below a directory

A path that is joined to a directory is looked up by the moves of the directory and then by
its own names. Empty names and `.` in the directory make no difference to the walk
(`Padded.walk_eq`), and neither does starting at the working directory or walking there from
the root, as long as it is where it is said to be (`Seated`). So the directory counts only by
its moves as seen from the root (`Seated.locate_join`), in what is found and in how a walk
fails.
-/

namespace EditorFlags

namespace FileTree

/-! ## Names that lead nowhere -/

/-- Names that have others put in between that lead nowhere, not after the last name that is
not empty. -/
inductive Padded : List Bytes → List Bytes → Prop where
  | same {name : Bytes} (rest : List Bytes) (named : name ≠ []) :
      Padded (name :: rest) (name :: rest)
  | cons (name : Bytes) {names others : List Bytes} (padded : Padded names others) :
      Padded (name :: names) (name :: others)
  | pad {name : Bytes} {names others : List Bytes} (nowhere : name = [] ∨ name = Path.self)
      (padded : Padded names others) : Padded names (name :: others)

variable {tree : FileTree} {purpose : Purpose} {links : Nat} {here : Location}
  {names others : List Bytes}

theorem Padded.append (padded : Padded names others) (front : List Bytes) :
    Padded (front ++ names) (front ++ others) := by
  induction front with
  | nil => exact padded
  | cons name front ih => exact .cons name ih

/-- There is a name in both that is not empty. -/
theorem Padded.named (padded : Padded names others) :
    names ≠ [] ∧ names ≠ [[]] ∧ others ≠ [] ∧ others ≠ [[]] := by
  induction padded with
  | same rest named => simp [named]
  | cons name padded ih => simp [ih.1, ih.2.2.1]
  | pad nowhere padded ih => simp [ih.1, ih.2.1, ih.2.2.1]

/-- Only a directory can be walked on from. -/
theorem walk_of_not_directory (noDirectory : tree.node? here ≠ some .directory)
    (more : names ≠ []) : tree.walk purpose links here names = .error .notDirectory := by
  obtain ⟨name, rest, rfl⟩ := List.exists_cons_of_ne_nil more
  rw [walk, if_pos noDirectory]

/-- What leads nowhere makes no difference to a walk. Past a link the walk goes on with the
names of its target in front and fewer links left, so the induction is on these first. -/
theorem Padded.walk_eq (padded : Padded names others) :
    tree.walk purpose links here names = tree.walk purpose links here others := by
  induction links using Nat.strongRecOn generalizing here names others with
  | ind links ihLinks =>
      induction padded generalizing here with
      | same => rfl
      | pad nowhere padded ih =>
          conv_rhs => rw [walk]
          by_cases directory : tree.node? here = some .directory
          · rw [if_neg (not_not_intro directory), if_pos (by simpa using nowhere), ih]
          · rw [if_pos directory, walk_of_not_directory directory padded.named.1]
      | @cons name names others padded ih =>
          obtain ⟨more, noSlash, moreToo, noSlashToo⟩ := padded.named
          conv_lhs => rw [walk]
          conv_rhs => rw [walk]
          simp only [beq_eq_false_iff_ne.mpr noSlash, beq_eq_false_iff_ne.mpr noSlashToo,
            List.isEmpty_eq_false_iff.mpr more, List.isEmpty_eq_false_iff.mpr moreToo,
            Bool.and_false, Bool.false_eq_true, if_false]
          split_ifs
          · rfl
          · exact ih
          · exact ih
          · rfl
          · cases tree.node? (here ++ [name]) with
            | none => rfl
            | some node =>
                cases node with
                | file bytes => exact ih
                | directory => exact ih
                | link target =>
                    cases links with
                    | zero => rfl
                    | succ fewer => exact ihLinks fewer (Nat.lt_succ_self fewer) (padded.append _)

/-- A path that is joined has a name that is not empty, before which it does not matter what
of the directory leads nowhere. -/
theorem padded_steps (directory : Path) {path : Path} (relative : path.isAbsolute = false)
    (named : path.bytes ≠ []) :
    Padded (directory.moves ++ steps path) (steps (directory.join path)) := by
  obtain ⟨first, later, own, firstNamed⟩ :
      ∃ first later, steps path = first :: later ∧ first ≠ [] := by
    obtain ⟨byte, bytes, spelled⟩ := List.exists_cons_of_ne_nil named
    have noSlash : byte ≠ Path.slash := by simpa [Path.isAbsolute, spelled] using relative
    obtain ⟨head, others, cut⟩ :=
      List.exists_cons_of_ne_nil (List.splitOn_ne_nil Path.slash bytes)
    have pieces : path.pieces = (byte :: head) :: others := by
      rw [Path.pieces, spelled, List.splitOn_cons_eq_if_modifyHead, if_neg (by simpa using noSlash),
        cut, List.modifyHead_cons]
    rw [steps, pieces, List.filter_cons_of_pos rfl]
    exact ⟨_, _, rfl, List.cons_ne_nil byte head⟩
  have padding (pieces : List Bytes) :
      Padded ((pieces.filter fun piece => ¬(piece = [] ∨ piece = Path.self)) ++ steps path)
        (pieces.filter (!·.isEmpty) ++ steps path) := by
    induction pieces with
    | nil =>
        rw [own]
        exact .same later firstNamed
    | cons piece pieces ih =>
        by_cases empty : piece = []
        · subst empty
          rwa [List.filter_cons_of_neg (by simp), List.filter_cons_of_neg (by simp)]
        have kept : (piece :: pieces).filter (!·.isEmpty) = piece :: pieces.filter (!·.isEmpty) :=
          List.filter_cons_of_pos (by simpa using empty)
        rw [kept]
        by_cases stays : piece = Path.self
        · rw [List.filter_cons_of_neg (by simp [stays])]
          exact .pad (.inr stays) ih
        · rw [List.filter_cons_of_pos (by simp [empty, stays])]
          exact .cons piece ih
  have whole : steps (directory.join path) =
      directory.pieces.filter (!·.isEmpty) ++ steps path := by
    rw [steps, Path.filter_pieces_join rfl relative, Path.endsInSlash_join directory named,
      List.append_assoc]
    rfl
  rw [whole]
  exact padding directory.pieces

end FileTree

/-! ## The working directory -/

/-- That the working directory is where its location says, as that of a running program is: each
name on the way down to it is the name of a directory, and can be a part of a path. -/
structure Disk.Seated (disk : Disk) : Prop where
  directory : ∀ location, location <+: disk.workingDirectory →
    disk.tree.node? location = some .directory
  proper : ∀ name ∈ disk.workingDirectory, Path.IsName name
  short : ∀ name ∈ disk.workingDirectory, name.length ≤ FileTree.nameLimit
  spelled : ∀ name ∈ disk.workingDirectory, Path.slash ∉ name ∧ 0 ∉ name

namespace Disk.Seated

open FileTree

variable {disk : Disk} {purpose : Purpose} {links : Nat} {names : List Bytes}

/-- The working directory can be walked to from anywhere above it. -/
theorem walk_below (seated : disk.Seated) (more : names ≠ [[]]) {above below : Location}
    (whole : disk.workingDirectory = above ++ below) :
    disk.tree.walk purpose links above (below ++ names) =
      disk.tree.walk purpose links disk.workingDirectory names := by
  induction below generalizing above with
  | nil => rw [whole, List.append_nil, List.nil_append]
  | cons name below ih =>
      have within {location : Location} (front : location <+: above ++ [name]) :
          disk.tree.node? location = some .directory := by
        refine seated.directory location (front.trans ⟨below, ?_⟩)
        rw [whole, List.append_assoc, List.singleton_append]
      have member : name ∈ disk.workingDirectory := by simp [whole]
      have proper := seated.proper name member
      have notLast : below ++ names ≠ [[]] := by
        intro last
        cases below with
        | nil => exact more last
        | cons next later =>
            have named := (seated.proper next (by simp [whole])).nonempty
            exact named (List.cons.inj last).1
      rw [List.cons_append, walk, if_neg (not_not_intro (within (List.prefix_append above [name]))),
        if_neg (by simp [proper.nonempty, proper.notSelf]), if_neg (by simp [proper.notParent]),
        if_neg (by simp [notLast]), if_neg (Nat.not_lt.mpr (seated.short name member)),
        within List.prefix_rfl]
      exact ih (by rw [whole, List.append_assoc, List.singleton_append])

/-- The walk that starts at the working directory can be begun at the root. -/
theorem walk_workingDirectory (seated : disk.Seated) (more : names ≠ [[]]) :
    disk.tree.walk purpose links [] (disk.workingDirectory ++ names) =
      disk.tree.walk purpose links disk.workingDirectory names :=
  seated.walk_below more rfl

theorem moves_path (seated : disk.Seated) :
    disk.workingDirectory.path.moves = disk.workingDirectory := by
  have leads : disk.workingDirectory.filter (fun piece => ¬(piece = [] ∨ piece = Path.self)) =
      disk.workingDirectory := by
    rw [List.filter_eq_self]
    intro name member
    have proper := seated.proper name member
    simp [proper.nonempty, proper.notSelf]
  have apart : Path.Apart disk.workingDirectory := fun name member =>
    ⟨(seated.proper name member).nonempty, (seated.spelled name member).1⟩
  by_cases root : disk.workingDirectory = []
  · rw [root]
    decide
  · have spelled : disk.workingDirectory.path = Path.spell true disk.workingDirectory := by
      obtain ⟨name, names, whole⟩ := List.exists_cons_of_ne_nil root
      rw [whole, Location.path, Path.spell, ← Cut.cons_intercalate _ (List.cons_ne_nil name names)]
      · rfl
      · simp
    rw [spelled, Path.moves, Path.pieces_spell_true apart root,
      List.filter_cons_of_neg (by decide), leads]

/-- No name of the working directory has a NUL byte in it. -/
theorem mem_movesFrom_iff (seated : disk.Seated) {directory : Path} :
    (∃ move ∈ directory.movesFrom disk.workingDirectory.path, 0 ∈ move) ↔
      ∃ move ∈ directory.moves, 0 ∈ move := by
  rw [Path.movesFrom]
  split
  · rfl
  · rw [seated.moves_path]
    constructor
    · rintro ⟨move, member, nul⟩
      rcases List.mem_append.mp member with inFront | own
      · exact absurd nul (seated.spelled move inFront).2
      · exact ⟨move, own, nul⟩
    · rintro ⟨move, member, nul⟩
      exact ⟨move, List.mem_append_right _ member, nul⟩

/-- **Only the moves of the directory count** when a path is looked up in it. -/
theorem locate_join (seated : disk.Seated) {directory path : Path}
    (relative : path.isAbsolute = false) (named : path.bytes ≠ [])
    (fits : (directory.join path).bytes.length ≤ pathLimit) :
    disk.locate purpose (directory.join path) =
      if 0 ∈ path.bytes ∨ ∃ move ∈ directory.movesFrom disk.workingDirectory.path, 0 ∈ move then
        .error .nulByte
      else disk.tree.walk purpose linkLimit []
        (directory.movesFrom disk.workingDirectory.path ++ steps path) := by
  have padded := padded_steps directory relative named
  have nonempty : (directory.join path).bytes ≠ [] := by
    obtain ⟨front, joined⟩ := Path.exists_bytes_join directory path
    rw [joined]
    exact List.append_ne_nil_of_right_ne_nil front named
  have nul : (directory.join path).bytes.contains 0 = true ↔ 0 ∈ path.bytes ∨
      ∃ move ∈ directory.movesFrom disk.workingDirectory.path, 0 ∈ move := by
    rw [List.contains_iff_mem, seated.mem_movesFrom_iff,
      Path.mem_bytes_iff (by decide) (by decide), Path.mem_bytes_iff (by decide) (by decide),
      Path.moves_join relative]
    simp only [List.mem_append, or_and_right, exists_or, or_comm]
  have goes : disk.tree.walk purpose linkLimit (disk.origin (directory.join path))
      (steps (directory.join path)) = disk.tree.walk purpose linkLimit []
        (directory.movesFrom disk.workingDirectory.path ++ steps path) := by
    rw [← padded.walk_eq, origin, Path.isAbsolute_join_relative relative, Path.movesFrom]
    split
    · rfl
    · rw [seated.moves_path, List.append_assoc, seated.walk_workingDirectory padded.named.2.1]
  simp only [locate, nul, List.isEmpty_iff, nonempty, if_false, Nat.not_lt.mpr fits, goes]

/-- So directories with the same moves are the same to whoever looks up a path. -/
theorem locate_congr (seated : disk.Seated) {directory other path : Path}
    (same : directory.movesFrom disk.workingDirectory.path =
      other.movesFrom disk.workingDirectory.path) (named : path.bytes ≠ [])
    (fits : (directory.join path).bytes.length ≤ pathLimit)
    (fitsToo : (other.join path).bytes.length ≤ pathLimit) :
    disk.locate purpose (directory.join path) = disk.locate purpose (other.join path) := by
  by_cases rooted : path.isAbsolute = true
  · rw [Path.join, if_pos rooted, Path.join, if_pos rooted]
  · rw [Bool.not_eq_true] at rooted
    rw [seated.locate_join rooted named fits, seated.locate_join rooted named fitsToo, same]

end Disk.Seated

/-! ## Reading and writing -/

namespace Disk

variable {disk : Disk} {path other : Path}

theorem read?_congr (same : disk.locate .find path = disk.locate .find other) :
    disk.read? path = disk.read? other := by
  rw [read?, same, read?]

theorem write_congr (same : disk.locate .make path = disk.locate .make other) (bytes : Bytes) :
    disk.write path bytes = disk.write other bytes := by
  rw [write, same, write]

end Disk

end EditorFlags
