import EditorFlags.Proofs.FileTree.Walk
import Mathlib.Tactic.SplitIfs

/-!
# Writing a file

A write puts one regular file into the tree and leaves all other nodes as they are.
The file stands where the path leads: a walk that ends at a file, or at a free name,
has asked for no other node that the write has changed, so it comes to the same place
again once the file is there.
-/

namespace EditorFlags

namespace FileTree

/-! ## Nodes of a changed tree -/

theorem ne_nil_of_node? {tree : FileTree} {location : Location}
    (other : tree.node? location ≠ some .directory) : location ≠ [] := by
  rintro rfl
  exact other rfl

@[simp] theorem node?_put_self (tree : FileTree) {location : Location} (node : Node)
    (below : location ≠ []) : (tree.put location node).node? location = some node := by
  simp [node?, put, below]

/-- A node that is put where another one has been put leaves nothing of it. -/
@[simp] theorem put_put (tree : FileTree) (location : Location) (earlier later : Node) :
    (tree.put location earlier).put location later = tree.put location later := by
  simp [put, List.filter_filter]

theorem lookup_filter_ne {location other : Location} (different : other ≠ location)
    (nodes : List (Location × Node)) :
    (nodes.filter fun entry => entry.1 != location).lookup other = nodes.lookup other := by
  induction nodes with
  | nil => rfl
  | cons entry nodes ih =>
      obtain ⟨head, node⟩ := entry
      by_cases same : head = location
      · subst same
        simp [List.lookup_cons, ih, beq_eq_false_iff_ne.mpr different]
      · simp [List.lookup_cons, ih, same]

/-- A tree changes at the one location only. -/
theorem node?_put_of_ne (tree : FileTree) {location other : Location} (node : Node)
    (different : other ≠ location) :
    (tree.put location node).node? other = tree.node? other := by
  unfold node? put
  split
  · rfl
  · show ((location, node) :: _).lookup other = tree.nodes.lookup other
    rw [List.lookup_cons, beq_eq_false_iff_ne.mpr different]
    exact lookup_filter_ne different tree.nodes

/-! ## Walks in a changed tree -/

/-- That two trees differ at most in the regular file at one location, which either of them
may lack. -/
structure AlikeBut (location : Location) (one other : FileTree) : Prop where
  elsewhere : ∀ place, place ≠ location → other.node? place = one.node? place
  plain : one.node? location = none ∨ ∃ bytes, one.node? location = some (.file bytes)
  plainToo : other.node? location = none ∨ ∃ bytes, other.node? location = some (.file bytes)

namespace AlikeBut

variable {location : Location} {one other : FileTree} {purpose : Purpose} {links : Nat}
  {here : Location} {names : List Bytes} {destination : Destination}

theorem symm (alike : AlikeBut location one other) : AlikeBut location other one :=
  ⟨fun place different => (alike.elsewhere place different).symm, alike.plainToo, alike.plain⟩

/-- What is no regular file is in both trees. -/
theorem kept (alike : AlikeBut location one other) {place : Location} {node : Node}
    (found : one.node? place = some node) (noFile : ∀ bytes, node ≠ .file bytes) :
    other.node? place = some node := by
  rw [alike.elsewhere, found]
  rintro rfl
  rcases alike.plain with free | ⟨bytes, file⟩
  · simp [free] at found
  · exact noFile bytes (Option.some.inj (found.symm.trans file))

/-- A walk that does not end at the location is the same in both trees. -/
theorem walks_elsewhere (alike : AlikeBut location one other)
    (walks : Walks one purpose links here names destination)
    (away : destination.location ≠ location) :
    Walks other purpose links here names destination := by
  induction walks with
  | done links here => exact .done links here
  | stay directory nowhere goes ih => exact .stay (alike.kept directory (by simp)) nowhere (ih away)
  | up directory goes ih => exact .up (alike.kept directory (by simp)) (ih away)
  | make directory proper short free making =>
      have freeToo := (alike.elsewhere _ away).trans free
      exact .make (alike.kept directory (by simp)) proper short freeToo making
  | link directory proper short more found goes ih =>
      exact .link (alike.kept directory (by simp)) proper short more (alike.kept found (by simp))
        (ih away)
  | @enter links here name rest node destination directory proper short more found noLink goes ih =>
      -- A walk that comes to the location ends there, for it is no directory.
      have passes : here ++ [name] ≠ location := by
        intro own
        have noDirectory : one.node? (here ++ [name]) ≠ some .directory := by
          rw [own]
          rcases alike.plain with free | ⟨bytes, file⟩ <;> simp [*]
        exact away (own ▸ congrArg Destination.location (goes.eq_node noDirectory))
      exact .enter (alike.kept directory (by simp)) proper short more
        ((alike.elsewhere _ passes).trans found) noLink (ih away)

/-- A walk that ends at the location, or at its free name, comes to the file there in the
other tree, be it to make the file or only to find it. -/
theorem walks_onto (alike : AlikeBut location one other) {again : Purpose}
    (weaker : again = .make → purpose = .make) {bytes : Bytes}
    (placed : other.node? location = some (.file bytes))
    (walks : Walks one purpose links here names destination)
    (there : destination.location = location) :
    Walks other again links here names (.node location) := by
  induction walks with
  | done links here =>
      obtain rfl : here = location := there
      exact .done links here
  | stay directory nowhere goes ih =>
      exact .stay (alike.kept directory (by simp)) nowhere (ih there)
  | up directory goes ih => exact .up (alike.kept directory (by simp)) (ih there)
  | @make links here name directory proper short free making =>
      obtain rfl : here ++ [name] = location := there
      exact .enter (alike.kept directory (by simp)) proper short (by simp) placed (by simp)
        (.done links _)
  | link directory proper short more found goes ih =>
      exact .link (alike.kept directory (by simp)) proper short (fun making => more (weaker making))
        (alike.kept found (by simp)) (ih there)
  | @enter links here name rest node destination directory proper short more found noLink goes ih =>
      -- The file's own name may be looked up on the way; it leads to a file as before.
      have passes : ∃ now, other.node? (here ++ [name]) = some now ∧
          ∀ target, now ≠ .link target := by
        by_cases own : here ++ [name] = location
        · exact ⟨.file bytes, own ▸ placed, by simp⟩
        · exact ⟨node, (alike.elsewhere _ own).trans found, noLink⟩
      obtain ⟨now, foundNow, noLinkNow⟩ := passes
      exact .enter (alike.kept directory (by simp)) proper short
        (fun making => more (weaker making)) foundNow noLinkNow (ih there)

end AlikeBut

/-- Putting a file in the place of a file or of none changes nothing else. -/
theorem alikeBut_put {tree : FileTree} {location : Location} (bytes : Bytes)
    (replaced : tree.node? location = none ∨
      ∃ earlier, tree.node? location = some (.file earlier)) :
    AlikeBut location tree (tree.put location (.file bytes)) := by
  have noDirectory : tree.node? location ≠ some .directory := by
    rcases replaced with free | ⟨earlier, file⟩ <;> simp [*]
  exact ⟨fun place different => node?_put_of_ne tree _ different, replaced,
    Or.inr ⟨bytes, node?_put_self tree _ (ne_nil_of_node? noDirectory)⟩⟩

end FileTree

/-! ## Writes -/

namespace Disk

open FileTree

/-- What a write has done: there is a regular file at `location`, of the bytes that were
written and no others, and nothing else has changed. -/
structure Written (before after : Disk) (path : Path) (location : Location) (bytes : Bytes) :
    Prop where
  /-- The path led to a file, or to a free name, before the write. -/
  led : ∃ destination, before.locate .make path = .ok destination ∧
    destination.location = location
  replaced : before.tree.node? location = none ∨
    ∃ earlier, before.tree.node? location = some (.file earlier)
  /-- The path leads to the file now. -/
  leads : after.locate .find path = .ok (.node location)
  contents : after.tree.node? location = some (.file bytes)
  others : ∀ other, other ≠ location → after.tree.node? other = before.tree.node? other
  workingDirectory : after.workingDirectory = before.workingDirectory

variable {disk after : Disk} {path : Path} {bytes : Bytes}

/-- A path that leads elsewhere leads there on both of two disks that differ in one file. -/
theorem locate_elsewhere {purpose : Purpose} {location : Location} {destination : Destination}
    (alike : AlikeBut location disk.tree after.tree)
    (sameStart : after.workingDirectory = disk.workingDirectory)
    (ends : disk.locate purpose path = .ok destination)
    (away : destination.location ≠ location) : after.locate purpose path = .ok destination := by
  obtain ⟨noNul, nonempty, short, walks⟩ := locate_eq_ok_iff.mp ends
  have walksToo := alike.walks_elsewhere walks away
  rw [origin, ← sameStart] at walksToo
  exact locate_eq_ok_iff.mpr ⟨noNul, nonempty, short, walksToo⟩

/-- A path that leads to the file on one of them leads to it on the other. -/
theorem locate_onto {purpose again : Purpose} {location : Location} {destination : Destination}
    (alike : AlikeBut location disk.tree after.tree)
    (sameStart : after.workingDirectory = disk.workingDirectory)
    (weaker : again = .make → purpose = .make)
    (placed : after.tree.node? location = some (.file bytes))
    (ends : disk.locate purpose path = .ok destination) (there : destination.location = location) :
    after.locate again path = .ok (.node location) := by
  obtain ⟨noNul, nonempty, short, walks⟩ := locate_eq_ok_iff.mp ends
  have walksToo := alike.walks_onto weaker placed walks there
  rw [origin, ← sameStart] at walksToo
  exact locate_eq_ok_iff.mpr ⟨noNul, nonempty, short, walksToo⟩

theorem read?_eq_some_iff {source : Path} {content : Bytes} :
    disk.read? source = some content ↔ ∃ location,
      disk.locate .find source = .ok (.node location) ∧
      disk.tree.node? location = some (.file content) := by
  unfold read?
  cases leads : disk.locate .find source with
  | error fault => simp
  | ok destination =>
      cases destination with
      | vacant directory name => simp
      | node location =>
          cases found : disk.tree.node? location with
          | none => simp [found]
          | some node => cases node <;> simp [found]

/-- A write that goes through has put the file where the path led, to a file or a free name. -/
theorem put_of_write (written : disk.write path bytes = .ok after) :
    ∃ destination, disk.locate .make path = .ok destination ∧
      (disk.tree.node? destination.location = none ∨
        ∃ earlier, disk.tree.node? destination.location = some (.file earlier)) ∧
      after = { disk with tree := disk.tree.put destination.location (.file bytes) } := by
  unfold write at written
  cases ends : disk.locate .make path with
  | error fault => simp [ends] at written
  | ok destination =>
      cases destination with
      | vacant directory name =>
          simp only [ends, Except.ok.injEq] at written
          have free := (locate_eq_ok_iff.mp ends).2.2.2.node?_vacant
          exact ⟨_, rfl, Or.inl free, written.symm⟩
      | node location =>
          simp only [ends] at written
          split at written
          · next earlier file =>
              exact ⟨_, rfl, Or.inr ⟨earlier, file⟩, (Except.ok.inj written).symm⟩
          · simp at written

/-- Where a path leads to a regular file, writing puts another in its place. -/
theorem write_of_file {location : Location} {earlier : Bytes}
    (leads : disk.locate .make path = .ok (.node location))
    (file : disk.tree.node? location = some (.file earlier)) :
    disk.write path bytes =
      .ok { disk with tree := disk.tree.put location (.file bytes) } := by
  simp only [write, leads, file]

theorem written_of_write (written : disk.write path bytes = .ok after) :
    ∃ location, Written disk after path location bytes := by
  obtain ⟨destination, led, replaced, rfl⟩ := put_of_write written
  have alike := alikeBut_put bytes replaced
  have noDirectory : disk.tree.node? destination.location ≠ some .directory := by
    rcases replaced with free | ⟨earlier, file⟩ <;> simp [*]
  have contents := node?_put_self disk.tree (.file bytes) (ne_nil_of_node? noDirectory)
  exact ⟨destination.location, ⟨destination, led, rfl⟩, replaced,
    locate_onto alike rfl (by simp) contents led rfl, contents, alike.elsewhere, rfl⟩

namespace Written

variable {before : Disk} {location : Location}

theorem eq_put (written : Written before after path location bytes)
    (wrote : before.write path bytes = .ok after) :
    after = { before with tree := before.tree.put location (.file bytes) } := by
  obtain ⟨destination, led, -, rfl⟩ := put_of_write wrote
  obtain ⟨same, ledToo, rfl⟩ := written.led
  obtain rfl := Except.ok.inj (led.symm.trans ledToo)
  rfl

theorem alikeBut (written : Written before after path location bytes) :
    AlikeBut location before.tree after.tree :=
  ⟨written.others, written.replaced, Or.inr ⟨bytes, written.contents⟩⟩

/-- What has been written can be overwritten. -/
theorem leadsAgain (written : Written before after path location bytes) :
    after.locate .make path = .ok (.node location) := by
  obtain ⟨destination, led, there⟩ := written.led
  exact locate_onto written.alikeBut written.workingDirectory id written.contents led there

/-- Overwriting goes to the same file, and leaves nothing of what was written first. -/
theorem write_again (written : Written before after path location bytes) (others : Bytes) :
    let overwritten := { after with tree := after.tree.put location (.file others) }
    after.write path others = .ok overwritten ∧
      Written after overwritten path location others := by
  have wrote : after.write path others =
      .ok { after with tree := after.tree.put location (.file others) } :=
    write_of_file written.leadsAgain written.contents
  obtain ⟨other, effect⟩ := written_of_write wrote
  obtain ⟨destination, led, rfl⟩ := effect.led
  obtain rfl := Except.ok.inj (led.symm.trans written.leadsAgain)
  exact ⟨wrote, effect⟩

/-- Paths that do not lead to what was written are read as before. -/
theorem read?_elsewhere (written : Written before after path location bytes) {source : Path}
    (away : after.locate .find source ≠ .ok (.node location)) :
    after.read? source = before.read? source := by
  ext content
  simp only [read?_eq_some_iff]
  constructor
  · rintro ⟨there, leads, file⟩
    have other : there ≠ location := by
      rintro rfl
      exact away leads
    refine ⟨there, ?_, (written.others there other).symm.trans file⟩
    exact locate_elsewhere written.alikeBut.symm written.workingDirectory.symm leads other
  · rintro ⟨there, leads, file⟩
    have other : there ≠ location := by
      rintro rfl
      exact away
        (locate_onto written.alikeBut written.workingDirectory id written.contents leads rfl)
    refine ⟨there, ?_, (written.others there other).trans file⟩
    exact locate_elsewhere written.alikeBut written.workingDirectory leads other

/-- Paths that lead to what was written read it. -/
theorem read?_onto (written : Written before after path location bytes) {source : Path}
    (leads : after.locate .find source = .ok (.node location)) : after.read? source = some bytes :=
  read?_eq_some_iff.mpr ⟨location, leads, written.contents⟩

end Written

end Disk

end EditorFlags
