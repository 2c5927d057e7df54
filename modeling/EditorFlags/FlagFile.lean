import EditorFlags.Log
import EditorFlags.Text.Lines

/-!
# Flag files

A flag file is a text file with compiler flags on its lines. Its lines are cut
into words, and each line is closed by an item of its own, so that a list of
items still knows where the lines were. The files of a project are read in
order; one that is not there has no items, and one that is not text ends the
reading.
-/

namespace EditorFlags

/-- One word of a flag file, or the end of one of its lines. -/
inductive Item where
  | token (text : String)
  | endOfLine
deriving DecidableEq, Repr

namespace Item

/-- The word that an item is, if it is one. -/
def token? : Item → Option String
  | .token text => some text
  | .endOfLine => none

/-- The items of one line. -/
def ofLine (line : String) : List Item :=
  (Lines.words line).map .token ++ [.endOfLine]

/-- The words among some items, in order. -/
def tokens (items : List Item) : List String :=
  items.filterMap token?

end Item

namespace FlagFile

/-- The name of the file that is read first. -/
def baseName : Path := .ofText "compiler_options.txt"

/-- The name of the file that is read second. -/
def extraName : Path := .ofText "compiler_options_extra.txt"

/-- The flag files of the directory in which the program runs. -/
def standard : List Path :=
  [baseName, extraName]

/-- The flag files of a directory. -/
def inDirectory (directory : Path) : List Path :=
  standard.map directory.join

/-! ## Reading -/

/-- The lines of a flag file, read through `read?`, which gives the bytes of a
regular file; `none` if there is no such file. -/
def lines? (read? : Path → Option Bytes) (path : Path) : Except Failure (Option (List String)) :=
  match read? path with
  | none => .ok none
  | some bytes =>
      match Utf8.decode? bytes with
      | none => .error (.unreadable path)
      | some text => .ok (some (Lines.ofText text))

/-- The items of one flag file. -/
def items (read? : Path → Option Bytes) (path : Path) : Logged (List Item) := do
  match ← Logged.ofExcept (lines? read? path) with
  | none =>
      Logged.say (.skippedMissing path)
      return []
  | some lines =>
      Logged.say (.readLines lines.length path)
      return lines.flatMap Item.ofLine

/-- The items of some flag files, in order. -/
def extract (read? : Path → Option Bytes) : List Path → Logged (List Item)
  | [] => return []
  | path :: rest => do
      let first ← items read? path
      (first ++ ·) <$> extract read? rest

/-- The words of some flag files, in order. -/
def extractTokens (read? : Path → Option Bytes) (sources : List Path) : Logged (List String) :=
  Item.tokens <$> extract read? sources

end FlagFile

end EditorFlags
