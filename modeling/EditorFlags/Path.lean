import EditorFlags.Text.Quoted

/-!
# Paths

A path is a string of bytes in which `/` separates names. Nothing here looks at
a disk. Joining is textual: the right path is put after the left one, with one
separator between them if the left one needs it, and replaces it if it is
absolute. Cleaning up happens in `components`, which leaves out what names
nothing: empty pieces and the piece `.`.
-/

namespace EditorFlags

/-- A path as the bytes that spell it. -/
structure Path where
  bytes : Bytes
deriving DecidableEq, Repr, Inhabited

namespace Path

/-- The byte `/`. -/
def slash : UInt8 := 0x2F

/-- The name of a directory in itself, `.`. -/
def self : Bytes := [0x2E]

/-- The name of a directory's parent, `..`. -/
def parent : Bytes := [0x2E, 0x2E]

/-! ## Text and path -/

/-- The path that a text spells. -/
def ofText (text : String) : Path :=
  ⟨Utf8.encode text⟩

/-- The path as text, if its bytes are text. -/
def text? (path : Path) : Option String :=
  Utf8.decode? path.bytes

/-- The path as text, with U+FFFD in the place of bytes that are not. -/
def lossyText (path : Path) : String :=
  Utf8.lossy path.bytes

/-- The path as messages show it. -/
def quoted (path : Path) : String :=
  Quoted.ofBytes path.bytes

/-! ## Joining -/

/-- Whether the path begins at the root. -/
def isAbsolute (path : Path) : Bool :=
  path.bytes.head? == some slash

/-- Whether the path ends in a separator. -/
def endsInSlash (path : Path) : Bool :=
  path.bytes.getLast? == some slash

/-- `right` as seen from `left`. -/
def join (left right : Path) : Path :=
  if right.isAbsolute then right
  else if left.bytes.isEmpty || left.endsInSlash then ⟨left.bytes ++ right.bytes⟩
  else ⟨left.bytes ++ slash :: right.bytes⟩

/-- The path without its last name. The root and the empty path have none to
lose. -/
def dropLast (path : Path) : Path :=
  match path.bytes.reverse.dropWhile (· != slash) with
  | [] => ⟨[]⟩
  | [_] => ⟨[slash]⟩
  | _ :: above => ⟨above.reverse⟩

/-! ## Components -/

/-- What stands between the separators. -/
def pieces (path : Path) : List Bytes :=
  path.bytes.splitOn slash

/-- One step along a path. -/
inductive Component where
  | root
  | up
  | name (bytes : Bytes)
deriving DecidableEq, Repr

/-- The step that a piece stands for, if it is one. -/
def Component.ofPiece? (piece : Bytes) : Option Component :=
  if piece.isEmpty || piece == self then none
  else if piece == parent then some .up
  else some (.name piece)

/-- The steps along a path, the first of an absolute one being to the root. -/
def components (path : Path) : List Component :=
  let steps := path.pieces.filterMap Component.ofPiece?
  if path.isAbsolute then .root :: steps else steps

/-- How a component is spelled when it is joined to a path. -/
def Component.spelling : Component → Path
  | .root => ⟨[slash]⟩
  | .up => ⟨parent⟩
  | .name bytes => ⟨bytes⟩

/-! ## Paths under way -/

/-- A path that is being put together, its last byte first, so that a name can be
put to its end or taken away without going through all that is before it. -/
structure Trail where
  lastFirst : Bytes
deriving DecidableEq, Repr

namespace Trail

/-- A path to go on with. -/
def ofPath (path : Path) : Trail :=
  ⟨path.bytes.reverse⟩

/-- The path that has been put together. -/
def path (trail : Trail) : Path :=
  ⟨trail.lastFirst.reverse⟩

/-- `right` as seen from where the trail has come to. -/
def join (trail : Trail) (right : Path) : Trail :=
  if right.isAbsolute then ofPath right
  else if trail.lastFirst.isEmpty || trail.lastFirst.head? == some slash then
    ⟨right.bytes.reverseAux trail.lastFirst⟩
  else ⟨right.bytes.reverseAux (slash :: trail.lastFirst)⟩

/-- The trail without its last name. -/
def dropLast (trail : Trail) : Trail :=
  match trail.lastFirst.dropWhile (· != slash) with
  | [] => ⟨[]⟩
  | [_] => ⟨[slash]⟩
  | _ :: above => ⟨above⟩

/-- Joins components to a trail one after the other. -/
def extend (trail : Trail) (steps : List Component) : Trail :=
  steps.foldl (fun trail step => trail.join step.spelling) trail

/-- One step of resolving: a parent takes the last name away, all else is
joined. -/
def follow (trail : Trail) : Component → Trail
  | .up => trail.dropLast
  | step => trail.join step.spelling

@[simp] theorem path_ofPath (path : Path) : (ofPath path).path = path := by
  simp [ofPath, Trail.path]

@[simp] theorem path_join (trail : Trail) (right : Path) :
    (trail.join right).path = trail.path.join right := by
  by_cases rooted : right.isAbsolute = true
  · simp [join, Path.join, rooted]
  · by_cases stop : trail.lastFirst = [] ∨ trail.lastFirst.head? = some slash
    · simp [join, Path.join, rooted, stop, Trail.path, endsInSlash, List.reverseAux_eq]
    · simp [join, Path.join, rooted, stop, Trail.path, endsInSlash, List.reverseAux_eq]

@[simp] theorem path_dropLast (trail : Trail) : trail.dropLast.path = trail.path.dropLast := by
  simp only [dropLast, Path.dropLast, Trail.path, List.reverse_reverse]
  split <;> rfl

end Trail

/-! ## Making paths absolute -/

/-- Whether the path begins with exactly two separators, a root of its own. -/
def hasDoubleRoot (path : Path) : Bool :=
  match path.bytes with
  | first :: second :: rest => first == slash && second == slash && rest.head? != some slash
  | _ => false

/-- The path as seen from `workingDirectory`, cleaned of what names nothing
except for a separator at its end. Parents stay as they are, for what they lead
to is known only to the disk. The empty path has no such form. -/
def absolute? (workingDirectory path : Path) : Option Path :=
  if path.bytes.isEmpty then none
  else
    let whole :=
      if path.hasDoubleRoot then (Trail.mk [slash, slash]).extend (path.components.drop 1)
      else if path.isAbsolute then (Trail.mk []).extend path.components
      else (Trail.ofPath workingDirectory).extend path.components
    some (if path.endsInSlash then whole.join ⟨[]⟩ else whole).path

/-! ## Resolving without a disk -/

/-- What `path` leads to from `base` if no name on the way is a link: a path
without empty pieces, `.` and, where a name can be taken away for it, `..`. -/
def resolve (base path : Path) : Path :=
  ((base.join path).components.foldl Trail.follow ⟨[]⟩).path

end Path

end EditorFlags
