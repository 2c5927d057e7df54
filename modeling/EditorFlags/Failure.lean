import EditorFlags.FileTree

/-!
# Failures

Everything that can end a run early, as causes. The wording is in `message` and
`causes`: the first is the line that is always shown, the second what is behind
it, outermost first.
-/

namespace EditorFlags

/-- How a destination refuses bytes. -/
inductive SinkFault where
  | full
  | flushRefused
deriving DecidableEq, Repr

/-- The text of a destination's refusal. -/
def SinkFault.message : SinkFault → String
  | .full => "failed to write whole buffer"
  | .flushRefused => "flush refused"

/-- How a request is not one: it stops too early, it is not JSON, or it is JSON
of another shape. -/
inductive RequestFault where
  | truncated
  | malformed
  | mismatched
deriving DecidableEq, Repr

/-- Why a run ends early. -/
inductive Failure where
  | unreadable (path : Path)
  | noDirectory (path : Path)
  | unwritable (path : Path) (fault : FileTree.Fault)
  | invalidRequest (fault : RequestFault)
  | sink (fault : SinkFault)
  | notText
deriving DecidableEq, Repr

namespace Failure

/-- What is wrong with a flag file that cannot be read. -/
def notUtf8 : String := "stream did not contain valid UTF-8"

/-- That a document could not be saved. -/
def couldNotWrite (path : Path) : String :=
  s!"Could not write {path.quoted}"

/-- The text of a failure. -/
def message : Failure → String
  | .unreadable path => s!"Could not read flag file {path.quoted}: {notUtf8}"
  | .noDirectory path => s!"Could not resolve project directory {path.quoted}"
  | .unwritable path _ => couldNotWrite path
  | .invalidRequest _ => "Invalid settings request JSON"
  | .sink fault => fault.message
  | .notText => "The document is not valid UTF-8"

/-- The texts behind a failure, outermost first. -/
def causes : Failure → List String
  | .unreadable _ => [notUtf8]
  | .noDirectory _ => ["cannot make an empty path absolute"]
  | .unwritable _ fault => [fault.message]
  | .invalidRequest _ => []
  | .sink _ => []
  | .notText => []

end Failure

end EditorFlags
