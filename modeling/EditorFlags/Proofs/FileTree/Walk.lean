import EditorFlags.FileTree
import EditorFlags.Proofs.Path.Resolve

/-!
# Walks that come to an end

`Walks` says, one constructor for each kind of step, along which names a walk comes to its
destination. It is what the walks of a tree do that do not fail (`walk_eq_ok_iff`), so that
what holds of a walk can be shown by induction on its steps.
-/

namespace EditorFlags

namespace FileTree

/-- The walks from `here` along some names that come to a destination. -/
inductive Walks (tree : FileTree) (purpose : Purpose) :
    Nat → Location → List Bytes → Destination → Prop where
  | done (links : Nat) (here : Location) : Walks tree purpose links here [] (.node here)
  | stay {links : Nat} {here : Location} {name : Bytes} {rest : List Bytes}
      {destination : Destination} (directory : tree.node? here = some .directory)
      (nowhere : name = [] ∨ name = Path.self)
      (goes : Walks tree purpose links here rest destination) :
      Walks tree purpose links here (name :: rest) destination
  | up {links : Nat} {here : Location} {rest : List Bytes} {destination : Destination}
      (directory : tree.node? here = some .directory)
      (goes : Walks tree purpose links here.dropLast rest destination) :
      Walks tree purpose links here (Path.parent :: rest) destination
  | make {links : Nat} {here : Location} {name : Bytes}
      (directory : tree.node? here = some .directory) (proper : Path.IsName name)
      (short : name.length ≤ nameLimit) (free : tree.node? (here ++ [name]) = none)
      (making : purpose = .make) :
      Walks tree purpose links here [name] (.vacant here name)
  | link {links : Nat} {here : Location} {name : Bytes} {rest : List Bytes} {target : Path}
      {destination : Destination} (directory : tree.node? here = some .directory)
      (proper : Path.IsName name) (short : name.length ≤ nameLimit)
      (more : purpose = .make → rest ≠ [[]])
      (found : tree.node? (here ++ [name]) = some (.link target))
      (goes : Walks tree purpose links (if target.isAbsolute then [] else here)
        (steps target ++ rest) destination) :
      Walks tree purpose (links + 1) here (name :: rest) destination
  | enter {links : Nat} {here : Location} {name : Bytes} {rest : List Bytes} {node : Node}
      {destination : Destination} (directory : tree.node? here = some .directory)
      (proper : Path.IsName name) (short : name.length ≤ nameLimit)
      (more : purpose = .make → rest ≠ [[]])
      (found : tree.node? (here ++ [name]) = some node) (noLink : ∀ target, node ≠ .link target)
      (goes : Walks tree purpose links (here ++ [name]) rest destination) :
      Walks tree purpose links here (name :: rest) destination

variable {tree : FileTree} {purpose : Purpose} {links : Nat} {here : Location}
  {names : List Bytes} {destination : Destination}

/-- The location that a destination stands for. -/
def Destination.location : Destination → Location
  | .node location => location
  | .vacant directory name => directory ++ [name]

theorem walks_of_walk (ends : tree.walk purpose links here names = .ok destination) :
    Walks tree purpose links here names destination := by
  have proper {name : Bytes} (notSelf : ¬ (name.isEmpty || name == Path.self) = true)
      (notParent : ¬ (name == Path.parent) = true) : Path.IsName name := by
    simp only [Bool.or_eq_true, List.isEmpty_iff, beq_iff_eq, not_or] at notSelf notParent
    exact ⟨notSelf.1, notSelf.2, notParent⟩
  have more {rest : List Bytes} (notSlash : ¬ (purpose == .make && rest == [[]]) = true) :
      purpose = .make → rest ≠ [[]] := by
    rintro rfl rfl
    exact notSlash rfl
  fun_induction walk tree purpose links here names with
  | case1 links here =>
      obtain rfl := Except.ok.inj ends
      exact .done links here
  | case3 links here name rest directory self ih =>
      have nowhere : name = [] ∨ name = Path.self := by simpa using self
      exact .stay (Classical.not_not.mp directory) nowhere (ih ends)
  | case4 links here name rest directory notSelf parent ih =>
      obtain rfl : name = Path.parent := by simpa using parent
      exact .up (Classical.not_not.mp directory) (ih ends)
  | case7 links here name rest directory notSelf notParent notSlash short free last =>
      obtain rfl := Except.ok.inj ends
      obtain ⟨rfl, rfl⟩ : purpose = .make ∧ rest = [] := by simpa using last
      exact .make (Classical.not_not.mp directory) (proper notSelf notParent)
        (Nat.le_of_not_lt short) free rfl
  | case10 here name rest directory notSelf notParent notSlash short target found fewer ih =>
      exact .link (Classical.not_not.mp directory) (proper notSelf notParent)
        (Nat.le_of_not_lt short) (more notSlash) found (ih ends)
  | case11 links here name rest directory notSelf notParent notSlash short node other found ih =>
      exact .enter (Classical.not_not.mp directory) (proper notSelf notParent)
        (Nat.le_of_not_lt short) (more notSlash) found other (ih ends)
  | _ => simp at ends

theorem Walks.walk_eq (walks : Walks tree purpose links here names destination) :
    tree.walk purpose links here names = .ok destination := by
  have notSelf {name : Bytes} (proper : Path.IsName name) :
      ¬ (name.isEmpty || name == Path.self) = true := by
    simp [proper.nonempty, proper.notSelf]
  have notParent {name : Bytes} (proper : Path.IsName name) : ¬ (name == Path.parent) = true := by
    simp [proper.notParent]
  have noSlash {rest : List Bytes} (more : purpose = .make → rest ≠ [[]]) :
      ¬ (purpose == .make && rest == [[]]) = true := by
    simpa using more
  induction walks with
  | done => rw [walk]
  | stay directory nowhere goes ih =>
      rw [walk, if_neg (not_not_intro directory), if_pos (by simpa using nowhere), ih]
  | up directory goes ih =>
      rw [walk, if_neg (not_not_intro directory), if_neg (by decide), if_pos (by decide), ih]
  | make directory proper short free making =>
      subst making
      rw [walk, if_neg (not_not_intro directory), if_neg (notSelf proper),
        if_neg (notParent proper), if_neg (by decide), if_neg (Nat.not_lt.mpr short), free]
      rfl
  | link directory proper short more found goes ih =>
      rw [walk, if_neg (not_not_intro directory), if_neg (notSelf proper),
        if_neg (notParent proper), if_neg (noSlash more), if_neg (Nat.not_lt.mpr short), found]
      exact ih
  | @enter _ _ _ _ node _ directory proper short more found noLink goes ih =>
      rw [walk, if_neg (not_not_intro directory), if_neg (notSelf proper),
        if_neg (notParent proper), if_neg (noSlash more), if_neg (Nat.not_lt.mpr short), found]
      cases node with
      | link target => exact absurd rfl (noLink target)
      | file bytes => exact ih
      | directory => exact ih

theorem walk_eq_ok_iff : tree.walk purpose links here names = .ok destination ↔
    Walks tree purpose links here names destination :=
  ⟨walks_of_walk, Walks.walk_eq⟩

/-- Only a directory can be walked on from. -/
theorem Walks.eq_node (walks : Walks tree purpose links here names destination)
    (noDirectory : tree.node? here ≠ some .directory) : destination = .node here := by
  cases walks with
  | done => rfl
  | stay directory => exact absurd directory noDirectory
  | up directory => exact absurd directory noDirectory
  | make directory => exact absurd directory noDirectory
  | link directory => exact absurd directory noDirectory
  | enter directory => exact absurd directory noDirectory

/-- A walk to a free name has found the name free. -/
theorem Walks.node?_vacant {directory : Location} {name : Bytes}
    (walks : Walks tree purpose links here names (.vacant directory name)) :
    tree.node? (directory ++ [name]) = none := by
  generalize reached : Destination.vacant directory name = destination at walks
  induction walks with
  | done => cases reached
  | stay _ _ _ ih => exact ih reached
  | up _ _ ih => exact ih reached
  | make _ _ _ free _ =>
      cases reached
      exact free
  | link _ _ _ _ _ _ ih => exact ih reached
  | enter _ _ _ _ _ _ _ ih => exact ih reached

end FileTree

theorem Disk.locate_eq_ok_iff {disk : Disk} {purpose : FileTree.Purpose} {path : Path}
    {destination : FileTree.Destination} :
    disk.locate purpose path = .ok destination ↔
      0 ∉ path.bytes ∧ path.bytes ≠ [] ∧ path.bytes.length ≤ FileTree.pathLimit ∧
        FileTree.Walks disk.tree purpose FileTree.linkLimit (disk.origin path)
          (FileTree.steps path) destination := by
  unfold locate
  by_cases nul : 0 ∈ path.bytes
  · simp [nul]
  · by_cases empty : path.bytes = []
    · simp [empty]
    · by_cases long : FileTree.pathLimit < path.bytes.length
      · simp [nul, empty, long, Nat.not_le.mpr long]
      · simp [nul, empty, long, Nat.not_lt.mp long, FileTree.walk_eq_ok_iff]

end EditorFlags
