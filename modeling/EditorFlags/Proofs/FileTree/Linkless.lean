import EditorFlags.Proofs.Clangd.Entry
import EditorFlags.Proofs.FileTree.Walk
import EditorFlags.Proofs.Path.Normal
import Mathlib

/-!
# Resolving without a disk in a tree without links

Where no name is a link, a walk goes from the root to the names that the pieces of its path
come to (`Walks.settles`): going up leads to where the last name was entered. All that it
has entered on the way stays open to a second walk (`Reached`), so the path that spells just
these names leads to the same place, and so does every include path that is resolved.
-/

namespace EditorFlags

namespace FileTree

/-- That no node of a tree is a link. -/
def Linkless (tree : FileTree) : Prop :=
  ∀ location target, tree.node? location ≠ some (.link target)

/-- The locations that can be walked to from the root name by name. -/
inductive Reached (tree : FileTree) : Location → Prop where
  | root : Reached tree []
  | enter {here : Location} {name : Bytes} {node : Node} (reached : Reached tree here)
      (directory : tree.node? here = some .directory) (proper : Path.IsName name)
      (short : name.length ≤ nameLimit) (found : tree.node? (here ++ [name]) = some node) :
      Reached tree (here ++ [name])

variable {tree : FileTree} {links : Nat} {here : Location} {names : List Bytes}
  {destination : Destination}

theorem Reached.dropLast (reached : Reached tree here) : Reached tree here.dropLast := by
  cases reached with
  | root => exact .root
  | enter reached => rwa [List.dropLast_concat]

theorem Reached.exists_node (reached : Reached tree here) :
    ∃ node, tree.node? here = some node := by
  cases reached with
  | root => exact ⟨.directory, rfl⟩
  | enter _ _ _ _ found => exact ⟨_, found⟩

/-- A walk through a tree without links settles the names it is given. -/
theorem Walks.settles (linkless : Linkless tree) (reached : Reached tree here)
    (walks : Walks tree .find links here names destination) :
    destination = .node (names.foldl Path.settle here) ∧
      Reached tree (names.foldl Path.settle here) := by
  induction walks with
  | done => exact ⟨rfl, reached⟩
  | stay directory nowhere goes ih =>
      rw [List.foldl_cons, Path.settle_of_nowhere nowhere]
      exact ih reached
  | up directory goes ih =>
      rw [List.foldl_cons, Path.settle_parent]
      exact ih reached.dropLast
  | make directory proper short free making => cases making
  | link directory proper short more found goes ih => exact absurd found (linkless _ _)
  | enter directory proper short more found noLink goes ih =>
      rw [List.foldl_cons, Path.settle_of_isName proper]
      exact ih (.enter reached directory proper short found)

/-- A walk from a place that has been reached can be begun at the root. -/
theorem Reached.walks (linkless : Linkless tree) (reached : Reached tree here)
    (goes : Walks tree .find links here names destination) :
    Walks tree .find links [] (here ++ names) destination := by
  induction reached generalizing names with
  | root => exact goes
  | @enter here name node reached directory proper short found ih =>
      have noLink : ∀ target, node ≠ .link target := by
        rintro target rfl
        exact linkless _ _ found
      rw [List.append_assoc]
      exact ih (.enter directory proper short (by simp) found noLink goes)

/-! ## The steps along a spelled path -/

theorem foldl_settle_steps (path : Path) : (steps path).foldl Path.settle [] = path.settled := by
  have nothing : ∀ (pieces names : List Bytes),
      (pieces.filter (!·.isEmpty)).foldl Path.settle names = pieces.foldl Path.settle names := by
    intro pieces
    induction pieces with
    | nil => exact fun _ => rfl
    | cons piece rest ih =>
        intro names
        by_cases empty : piece = []
        · subst empty
          rw [List.filter_cons_of_neg (by simp), List.foldl_cons,
            Path.settle_of_nowhere (Or.inl rfl), ih]
        · rw [List.filter_cons_of_pos (by simpa using empty), List.foldl_cons, List.foldl_cons, ih]
  rw [steps, List.foldl_append, nothing]
  split
  · exact Path.settle_of_nowhere (Or.inl rfl)
  · rfl

theorem steps_spell {names : List Bytes} (apart : Path.Apart names) (some : names ≠ []) :
    steps (Path.spell true names) = names := by
  have kept : names.filter (!·.isEmpty) = names := by
    rw [List.filter_eq_self]
    intro name member
    simpa using (apart name member).1
  rw [steps, Path.pieces_spell_true apart some, Path.endsInSlash_spell apart some,
    List.filter_cons_of_neg (by simp), kept]
  simp

/-- The path that spells the names of a place that has been reached leads there. -/
theorem Reached.walk_spell (linkless : Linkless tree) (reached : Reached tree names)
    (apart : Path.Apart names) :
    Walks tree .find links [] (steps (Path.spell true names)) (.node names) := by
  by_cases root : names = []
  · subst root
    exact .stay rfl (Or.inl rfl) (.done links [])
  · rw [steps_spell apart root]
    simpa using reached.walks linkless (.done links names)

end FileTree

namespace Disk

open FileTree

/-- **An include leads where it led.** In a tree without links, when a token leads to a file
or a directory from an absolute base, then its resolved path leads to the same one. The text of
that path is what takes the place of the token after the flag of an include, and if the path is
text then what is written leads there, too. -/
theorem locate_resolve (disk : Disk) (linkless : Linkless disk.tree) (base : Path)
    (absolute : base.isAbsolute = true) (token : String) (location : Location)
    (leads : disk.locate .find (base.join (.ofText token)) = .ok (.node location)) :
    disk.locate .find (base.resolve (.ofText token)) = .ok (.node location) ∧
      (disk.tree.node? location = some .directory ∨
        ∃ bytes, disk.tree.node? location = some (.file bytes)) ∧
      (∀ entry : Clangd.Entry, entry.resolves token = true →
        (entry.add base token).1.text = "-I" ++ (base.resolve (.ofText token)).lossyText) ∧
      ∀ text, (base.resolve (.ofText token)).text? = some text →
        (base.resolve (.ofText token)).lossyText = text ∧
          disk.locate .find (.ofText text) = .ok (.node location) := by
  have rooted := Path.isAbsolute_join absolute (.ofText token)
  obtain ⟨noNul, -, short, walks⟩ := locate_eq_ok_iff.mp leads
  rw [origin, if_pos rooted] at walks
  obtain ⟨ends, reached⟩ := walks.settles linkless .root
  rw [foldl_settle_steps] at ends reached
  obtain rfl := Destination.node.inj ends
  have resolved : disk.locate .find (base.resolve (.ofText token)) =
      .ok (.node ((base.join (.ofText token)).settled)) := by
    have fewer := Path.resolve_sublist absolute (.ofText token)
    refine locate_eq_ok_iff.mpr ⟨fun nul => noNul (fewer.subset nul), ?_,
      Nat.le_trans fewer.length_le short, ?_⟩
    · obtain ⟨rest, spelled⟩ :=
        Path.isAbsolute_iff.mp (Path.isAbsolute_resolve absolute (.ofText token))
      rw [spelled]
      exact List.cons_ne_nil _ rest
    · rw [origin, if_pos (Path.isAbsolute_resolve absolute (.ofText token)),
        Path.resolve_of_isAbsolute absolute]
      exact reached.walk_spell linkless (Path.apart_settled _)
  refine ⟨resolved, ?_, ?_, ?_⟩
  · obtain ⟨node, found⟩ := reached.exists_node
    cases node with
    | file bytes => exact Or.inr ⟨bytes, found⟩
    | directory => exact Or.inl found
    | link target => exact absurd found (linkless _ target)
  · intro entry resolves
    obtain ⟨flag, dotted⟩ := Clangd.Entry.resolves_iff.mp resolves
    rw [Clangd.Entry.add_of_resolves flag dotted]
  · intro text isText
    rw [Path.ofText_of_text? isText]
    exact ⟨Path.lossyText_of_text? isText, resolved⟩

/-- A disk with two directories side by side and a file in one of them. -/
def plainDisk : Disk :=
  ⟨⟨[([Utf8.encode "p"], .directory), ([Utf8.encode "inc"], .directory),
    ([Utf8.encode "inc", Utf8.encode "x.h"], .file [])]⟩, []⟩

theorem linkless_plainDisk : Linkless plainDisk.tree := by
  intro location target found
  unfold FileTree.node? at found
  split at found
  · cases found
  · obtain ⟨before, after, nodes, -⟩ := List.lookup_eq_some_iff.mp found
    have member : (location, Node.link target) ∈ plainDisk.tree.nodes := by simp [nodes]
    simp [plainDisk] at member

/-- The token climbs past the root and comes down again, with pieces that name nothing on the
way. What is written for it leads there as well. -/
theorem locate_resolve_plainDisk :
    let base := Path.ofText "/p"
    let token := "./..//../../inc/./x.h"
    let entry := (Clangd.Entry.empty.add base "-I").1
    Linkless plainDisk.tree ∧
      plainDisk.locate .find (base.join (.ofText token)) =
        .ok (.node [Utf8.encode "inc", Utf8.encode "x.h"]) ∧
      (entry.add base token).1.text = "-I/inc/x.h" ∧
      plainDisk.locate .find (.ofText "/inc/x.h") =
        .ok (.node [Utf8.encode "inc", Utf8.encode "x.h"]) := by
  intro base token entry
  have leads : plainDisk.locate .find (base.join (.ofText token)) =
      .ok (.node [Utf8.encode "inc", Utf8.encode "x.h"]) := by cbv
  have isText : (base.resolve (.ofText token)).text? = some "/inc/x.h" := by cbv
  have resolves : entry.resolves token = true := by cbv
  obtain ⟨-, -, written, spelled⟩ :=
    locate_resolve plainDisk linkless_plainDisk base (by cbv) token _ leads
  obtain ⟨shown, same⟩ := spelled _ isText
  refine ⟨linkless_plainDisk, leads, ?_, same⟩
  rw [written entry resolves, shown]
  rfl

end Disk

end EditorFlags
