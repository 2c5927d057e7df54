import EditorFlags.Clangd.Writer
import EditorFlags.Settings.Request

/-!
# Projects

A project has a base directory, which is made absolute once and for all when the
project is opened, a list of flag files, and the items that were last extracted
from them. Settings and documents are made from those items only: what becomes
of the files later does not show until they are extracted again.
-/

namespace EditorFlags

/-- A project and the items last extracted from its flag files. -/
structure Project where
  base : Path
  sources : List Path
  items : List Item
deriving DecidableEq, Repr

namespace Project

/-- The project that has not been told of any directory. -/
def anywhere : Project :=
  ⟨⟨[]⟩, FlagFile.standard, []⟩

/-- The project of a directory, seen from the working directory, with nothing
extracted yet. -/
def openAt (workingDirectory directory : Path) (sources : List Path) : Except Failure Project :=
  match Path.absolute? workingDirectory directory with
  | none => .error (.noDirectory directory)
  | some base => .ok ⟨base, sources, []⟩

/-- The project with its flag files extracted anew. -/
def extract (read? : Path → Option Bytes) (project : Project) : Logged Project := do
  return { project with items := ← FlagFile.extract read? project.sources }

/-- The settings of the project. -/
def settings (project : Project) (request : Request) : Logged Settings := do
  Logged.sayAll (request.events .project)
  return Settings.ofItems project.items

/-- The clangd document of the project. -/
def document (project : Project) : Logged String :=
  Clangd.render project.base project.items

end Project

/-! ## Saving -/

/-- Saves a text under a path, in place of all that was there. -/
def Disk.save (disk : Disk) (path : Path) (text : String) : Logged Disk :=
  let bytes := Utf8.encode text
  match disk.write path bytes with
  | .error fault => Logged.fail (.unwritable path fault)
  | .ok disk => ⟨[.wroteBytes bytes.length path], .ok disk⟩

end EditorFlags
