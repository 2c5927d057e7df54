import EditorFlags.Failure

/-!
# Log

What a run has to say about itself is a list of events. An event knows its
level, the part of the program that speaks, and its text. `Logged` is a
computation that says events while it works and may fail: what was said before a
failure stays said.
-/

namespace EditorFlags

/-- How important an event is, from the gravest down. -/
inductive Level where
  | error
  | warn
  | info
  | debug
  | trace
deriving DecidableEq, Repr

/-- Levels as numbers: the more there is to hear, the higher. -/
def Level.rank : Level → Nat
  | .error => 1
  | .warn => 2
  | .info => 3
  | .debug => 4
  | .trace => 5

/-- The name of a level as it is printed. -/
def Level.label : Level → String
  | .error => "ERROR"
  | .warn => "WARN"
  | .info => "INFO"
  | .debug => "DEBUG"
  | .trace => "TRACE"

/-! ## Events -/

/-- Who is asked for settings. -/
inductive Provider where
  /-- No project: the flag files are extracted for the settings. -/
  | files
  /-- A project, with what has been extracted for it before. -/
  | project
deriving DecidableEq, Repr

/-- What can happen on a run that is worth saying. -/
inductive Event where
  /-- A flag file is not there. -/
  | skippedMissing (path : Path)
  /-- A flag file has been read. -/
  | readLines (count : Nat) (path : Path)
  /-- Settings are wanted for a file. -/
  | settingsRequested (provider : Provider) (path : Path)
  /-- A flag list is complete. -/
  | collectedFlags (count : Nat)
  /-- An include path cannot be written as it is. -/
  | includeNotText (path : Path) (written : String)
  /-- A line of several options has become one. -/
  | gluedTokens (count : Nat) (entry : String)
  /-- The last line was never ended. -/
  | droppedLine (entry : String)
  /-- A document has been saved. -/
  | wroteBytes (count : Nat) (path : Path)
deriving DecidableEq, Repr

namespace Event

/-- How important the event is. -/
def level : Event → Level
  | .skippedMissing _ => .debug
  | .readLines _ _ => .debug
  | .settingsRequested _ _ => .debug
  | .collectedFlags _ => .info
  | .includeNotText _ _ => .warn
  | .gluedTokens _ _ => .warn
  | .droppedLine _ => .debug
  | .wroteBytes _ _ => .info

/-- The part of the program that speaks, as log filters name it. -/
def speaker : Event → String
  | .skippedMissing _ => "flagconf::flags::extract"
  | .readLines _ _ => "flagconf::flags::extract"
  | .settingsRequested .files _ => "flagconf::output::settings"
  | .settingsRequested .project _ => "flagconf::pipeline"
  | .collectedFlags _ => "flagconf::pipeline"
  | .includeNotText _ _ => "flagconf::output::clangd"
  | .gluedTokens _ _ => "flagconf::output::clangd"
  | .droppedLine _ => "flagconf::output::clangd"
  | .wroteBytes _ _ => "flagconf::io::output_file"

/-- The text of the event. -/
def message : Event → String
  | .skippedMissing path => s!"Skipping missing flag file {path.quoted}"
  | .readLines count path => s!"Read {count} lines from {path.quoted}"
  | .settingsRequested _ path => s!"Settings requested for {path.quoted}"
  | .collectedFlags count => s!"Collected {count} flags"
  | .includeNotText path written =>
      s!"Include path {path.quoted} is not valid UTF-8, writing {Quoted.ofText written}"
  | .gluedTokens count entry =>
      s!"{count} tokens joined without separator into {Quoted.ofText entry}"
  | .droppedLine entry => s!"Dropping unterminated flag line {Quoted.ofText entry}"
  | .wroteBytes count path => s!"Wrote {count} bytes to {path.quoted}"

/-- The name of the one field that events have, which holds their text. -/
def field : String := "message"

end Event

/-! ## Computations that log -/

/-- The events said, in order, and how the computation ended. -/
structure Logged (α : Type) where
  log : List Event
  result : Except Failure α

namespace Logged

/-- Goes on with a value, if there is one, after what has been said. -/
def andThen {α β : Type} (first : Logged α) (next : α → Logged β) : Logged β :=
  match first.result with
  | .error failure => ⟨first.log, .error failure⟩
  | .ok value =>
      let rest := next value
      ⟨first.log ++ rest.log, rest.result⟩

/-- Works on the value, if there is one; nothing more is said. -/
def map {α β : Type} (f : α → β) (logged : Logged α) : Logged β :=
  ⟨logged.log, logged.result.map f⟩

instance : Monad Logged where
  pure value := ⟨[], .ok value⟩
  bind := andThen
  map := map

/-- Says one event. -/
def say (event : Event) : Logged Unit :=
  ⟨[event], .ok ()⟩

/-- Says some events. -/
def sayAll (events : List Event) : Logged Unit :=
  ⟨events, .ok ()⟩

/-- Ends with a failure, saying nothing. -/
def fail {α : Type} (failure : Failure) : Logged α :=
  ⟨[], .error failure⟩

/-- What is known already, saying nothing. -/
def ofExcept {α : Type} (result : Except Failure α) : Logged α :=
  ⟨[], result⟩

end Logged

end EditorFlags
