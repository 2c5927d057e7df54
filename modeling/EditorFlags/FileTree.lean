import EditorFlags.Path

/-!
# File trees

A file tree is a finite table of nodes by location, a location being the names
from the root down to the node. The root itself is always a directory and is
not in the table.

`walk` looks a path up, name by name, following links. Each name is looked up in
a directory, `..` leads to the directory above (from the root, back to the
root), and a path that ends in a separator has to lead to a directory. No more
than `linkLimit` links are followed on one walk, which is what makes a walk
around a ring of links end.
-/

namespace EditorFlags

/-- The names from the root down to a node. -/
abbrev Location := List Bytes

/-- The absolute path of a location. -/
def Location.path : Location → Path
  | [] => ⟨[Path.slash]⟩
  | names => ⟨names.flatMap (Path.slash :: ·)⟩

/-- What can be found at a location. -/
inductive Node where
  | file (bytes : Bytes)
  | directory
  | link (target : Path)
deriving DecidableEq, Repr

structure FileTree where
  nodes : List (Location × Node)
deriving Repr, Inhabited

namespace FileTree

/-! ## Nodes by location -/

/-- The node at a location. -/
def node? (tree : FileTree) (location : Location) : Option Node :=
  if location.isEmpty then some .directory else tree.nodes.lookup location

/-- The tree with `node` at a location, whatever was there. -/
def put (tree : FileTree) (location : Location) (node : Node) : FileTree :=
  ⟨(location, node) :: tree.nodes.filter fun entry => entry.1 != location⟩

/-- The tree without the node at a location and all that is below it. -/
def erase (tree : FileTree) (location : Location) : FileTree :=
  ⟨tree.nodes.filter fun entry => !location.isPrefixOf entry.1⟩

/-! ## Walking -/

/-- Why a path cannot be opened. -/
inductive Fault where
  | missing
  | notDirectory
  | isDirectory
  | nameTooLong
  | tooManyLinks
  | nulByte
deriving DecidableEq, Repr

/-- The system's words for a fault. -/
def Fault.message : Fault → String
  | .missing => "No such file or directory (os error 2)"
  | .notDirectory => "Not a directory (os error 20)"
  | .isDirectory => "Is a directory (os error 21)"
  | .nameTooLong => "File name too long (os error 36)"
  | .tooManyLinks => "Too many levels of symbolic links (os error 40)"
  | .nulByte => "file name contained an unexpected NUL byte"

/-- How many links one walk follows. -/
def linkLimit : Nat := 40

/-- How many bytes a name may have. -/
def nameLimit : Nat := 255

/-- How many bytes a path may have. -/
def pathLimit : Nat := 4095

/-- The names to walk for a path. A separator at the end counts as an empty
name, which stands for the directory it is looked up in. -/
def steps (path : Path) : List Bytes :=
  path.pieces.filter (!·.isEmpty) ++ if path.endsInSlash then [[]] else []

/-- What a walk is for: to find a node, or to open a file that may yet have to
be made. -/
inductive Purpose where
  | find
  | make
deriving DecidableEq, Repr

/-- Where a walk ends: at a node, or at a free name in a directory. -/
inductive Destination where
  | node (location : Location)
  | vacant (directory : Location) (name : Bytes)
deriving DecidableEq, Repr

/-- Walks from `here` along some names, following at most `links` links. When
the walk is to make a file, its last name may be free, but not have a separator
after it, for only a directory can have one. -/
def walk (tree : FileTree) (purpose : Purpose) (links : Nat) (here : Location) :
    List Bytes → Except Fault Destination
  | [] => .ok (.node here)
  | name :: rest =>
      if tree.node? here ≠ some .directory then .error .notDirectory
      else if name.isEmpty || name == Path.self then walk tree purpose links here rest
      else if name == Path.parent then walk tree purpose links here.dropLast rest
      else if purpose == .make && rest == [[]] then .error .isDirectory
      -- From here on the name is looked up.
      else if nameLimit < name.length then .error .nameTooLong
      else
        match tree.node? (here ++ [name]) with
        | none =>
            if purpose == .make && rest.isEmpty then .ok (.vacant here name)
            else .error .missing
        | some (.link target) =>
            match links with
            | 0 => .error .tooManyLinks
            | fewer + 1 =>
                -- A relative target starts from the directory that holds the link.
                walk tree purpose fewer (if target.isAbsolute then [] else here)
                  (steps target ++ rest)
        | some _ => walk tree purpose links (here ++ [name]) rest
termination_by names => (links, names.length)

/-! ## What has changed -/

/-- The regular files of `after` that `before` does not have with the same
bytes, by location. -/
def changedFiles (before after : FileTree) : List (Location × Bytes) :=
  let changed := after.nodes.filterMap fun entry =>
    match entry.2 with
    | .file bytes =>
        if before.node? entry.1 = some (.file bytes) then none else some (entry.1, bytes)
    | _ => none
  changed.mergeSort fun one other => !decide (other.1 < one.1)

end FileTree

/-! ## A disk as a program sees it -/

/-- A file tree, and the directory from which relative paths start. -/
structure Disk where
  tree : FileTree
  workingDirectory : Location
deriving Repr, Inhabited

namespace Disk

/-- Where walks along a path start. -/
def origin (disk : Disk) (path : Path) : Location :=
  if path.isAbsolute then [] else disk.workingDirectory

/-- Looks a path up. -/
def locate (disk : Disk) (purpose : FileTree.Purpose) (path : Path) :
    Except FileTree.Fault FileTree.Destination :=
  if path.bytes.contains 0 then .error .nulByte
  else if path.bytes.isEmpty then .error .missing
  else if FileTree.pathLimit < path.bytes.length then .error .nameTooLong
  else
    disk.tree.walk purpose FileTree.linkLimit (disk.origin path) (FileTree.steps path)

/-- The bytes of the regular file that a path leads to. -/
def read? (disk : Disk) (path : Path) : Option Bytes :=
  match disk.locate .find path with
  | .ok (.node location) =>
      match disk.tree.node? location with
      | some (.file bytes) => some bytes
      | _ => none
  | _ => none

/-- Replaces the contents of the regular file that a path leads to, or makes the
file if its name is free. -/
def write (disk : Disk) (path : Path) (bytes : Bytes) : Except FileTree.Fault Disk :=
  match disk.locate .make path with
  | .error fault => .error fault
  | .ok (.vacant directory name) =>
      .ok { disk with tree := disk.tree.put (directory ++ [name]) (.file bytes) }
  | .ok (.node location) =>
      match disk.tree.node? location with
      | some (.file _) => .ok { disk with tree := disk.tree.put location (.file bytes) }
      | _ => .error .isDirectory

/-! ## Changes made by others -/

/-- Makes the directories that are missing along some names, as far as the names
lead anywhere. A link that leads nowhere stays, and ends the way. -/
def makeDirectories (here : Location) : List Bytes → FileTree → FileTree
  | [], tree => tree
  | name :: rest, tree =>
      match tree.walk .find FileTree.linkLimit here [name] with
      | .ok (.node there) => makeDirectories there rest tree
      | _ =>
          -- A directory is made in `here` itself, not where a link points to.
          match tree.walk .make 0 here [name] with
          | .ok (.vacant directory free) =>
              makeDirectories (directory ++ [free]) rest (tree.put (directory ++ [free]) .directory)
          | _ => tree

/-- The location that the last name of a path has in the directory that the rest
of the path leads to. -/
def ownLocation? (disk : Disk) (path : Path) : Option Location :=
  let names := FileTree.steps path |>.filter (!·.isEmpty)
  match names.getLast? with
  | none => none
  | some name =>
      match disk.tree.walk .find FileTree.linkLimit (disk.origin path) names.dropLast with
      | .ok (.node directory) => some (directory ++ [name])
      | _ => none

/-- Puts a node at a path, making the directories above it. The bytes of a file go
where the path leads to, through links; a directory that is there already stays;
a link takes the place of what has its name. -/
def install (disk : Disk) (path : Path) (node : Node) : Disk :=
  let names := (FileTree.steps path).filter (!·.isEmpty)
  let above := { disk with tree := makeDirectories (disk.origin path) names.dropLast disk.tree }
  match node with
  | .file bytes =>
      match above.write path bytes with
      | .error _ => above
      | .ok written => written
  | .directory =>
      { disk with tree := makeDirectories (disk.origin path) names disk.tree }
  | .link _ =>
      match above.ownLocation? path with
      | none => above
      | some location => { above with tree := (above.tree.erase location).put location node }

/-- Takes away the node at a path and all that is below it. -/
def discard (disk : Disk) (path : Path) : Disk :=
  match disk.ownLocation? path with
  | none => disk
  | some location => { disk with tree := disk.tree.erase location }

end Disk

end EditorFlags
