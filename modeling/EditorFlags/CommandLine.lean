import EditorFlags.CommandLine.Switch
import EditorFlags.FlagFile

/-!
# The command line

Words are read from left to right on two levels: up to the command, and from the
command to the end. A switch that takes its value from the next word is checked
late, when another known switch follows on its level or when the level ends, and
the level before the command ends after the one behind it. Any other error is
found on the spot, so of two errors the one that is found first is answered.

Where a switch is given on both levels, the one behind the command counts.
-/

namespace EditorFlags.CommandLine

/-- Why words are not read as a command line. -/
inductive Refusal where
  /-- A switch lacks its value, or a path is empty. -/
  | badValue
  /-- A request is not text. -/
  | notText
  /-- A flag has been given a value. -/
  | needlessValue
  /-- A switch is given twice on one level, or two exclude each other. -/
  | conflict
  /-- A switch is not known at its place, or a word has no place at all. -/
  | unknownWord
  /-- A word in the place of the command is none. -/
  | unknownCommand
  /-- There are switches but no command. -/
  | noCommand
  /-- Help is asked for. -/
  | helpAsked
  /-- Nothing is asked for. -/
  | nothingAsked
deriving DecidableEq, Repr

/-- The exit status with which a refusal ends the program. -/
def Refusal.exitStatus : Refusal → Nat
  | .helpAsked => 0
  | _ => 2

/-! ## What has been given -/

/-- The switches given on one level. -/
structure Given where
  value? : Parameter → Option Bytes
  verbose : Nat
  stdout : Bool

namespace Given

/-- Nothing given. -/
def nothing : Given :=
  ⟨fun _ => none, 0, false⟩

/-- How often `verbose` can be given before it makes no difference. -/
def verboseLimit : Nat := 255

/-- Whether nothing has been given. -/
def isNothing (given : Given) : Bool :=
  Parameter.all.all (fun parameter => (given.value? parameter).isNone)
    && given.verbose == 0 && !given.stdout

/-- Gives a parameter its value. It must not have one, and the value must be a
text for a request and not empty for a path. -/
def accept (given : Given) (parameter : Parameter) (value : Bytes) : Except Refusal Given :=
  if (given.value? parameter).isSome then .error .conflict
  else if parameter = .request ∧ (Utf8.decode? value).isNone then .error .notText
  else if parameter ≠ .request ∧ value.isEmpty then .error .badValue
  else
    .ok { given with
      value? := fun other => if other = parameter then some value else given.value? other }

/-- Raises a flag. Help is not given but answered. -/
def raise (given : Given) : Flag → Except Refusal Given
  | .verbose => .ok { given with verbose := min (given.verbose + 1) verboseLimit }
  | .stdout => if given.stdout then .error .conflict else .ok { given with stdout := true }
  | .help => .error .helpAsked

end Given

/-! ## Reading one level -/

/-- A parameter that may still be without its value, or whose value is still
unchecked. -/
inductive Pending where
  | nothing
  | awaiting (parameter : Parameter)
  | holding (parameter : Parameter) (value : Bytes)
deriving DecidableEq, Repr

/-- How far a level has been read. -/
structure Reading where
  given : Given
  pending : Pending
  plainOnly : Bool

namespace Reading

/-- A level that has just begun. -/
def start : Reading :=
  ⟨.nothing, .nothing, false⟩

/-- Checks what is pending. -/
def settle (reading : Reading) : Except Refusal Given :=
  match reading.pending with
  | .nothing => .ok reading.given
  | .awaiting _ => .error .badValue
  | .holding parameter value => reading.given.accept parameter value

/-- Goes on with other switches given, and nothing pending. -/
def resume (reading : Reading) : Except Refusal Given → Except Refusal Reading
  | .error refusal => .error refusal
  | .ok given => .ok { reading with given := given, pending := .nothing }

/-- A flag. -/
def raise (reading : Reading) (flag : Flag) : Except Refusal Reading :=
  reading.resume (reading.settle.bind fun given => given.raise flag)

/-- A parameter that comes with its value. -/
def accept (reading : Reading) (parameter : Parameter) (value : Bytes) : Except Refusal Reading :=
  reading.resume (reading.settle.bind fun given => given.accept parameter value)

/-- A parameter whose value is the next word. -/
def await (reading : Reading) (parameter : Parameter) : Except Refusal Reading :=
  match reading.settle with
  | .error refusal => .error refusal
  | .ok given => .ok { reading with given := given, pending := .awaiting parameter }

/-- Letters after one dash. The first that takes a value takes all that follows
it, less an equals sign. -/
def readCluster (place : Option Command) (reading : Reading) : Bytes → Except Refusal Reading
  | [] => .ok reading
  | letter :: rest =>
      match Switch.ofShort? place letter with
      | none => .error .unknownWord
      | some (.flag flag) =>
          match reading.raise flag with
          | .error refusal => .error refusal
          | .ok reading => readCluster place reading rest
      | some (.parameter parameter) =>
          match rest with
          | [] => reading.await parameter
          | first :: value =>
              reading.accept parameter (if first = equals then value else rest)

/-- What is wrong with a word that has no place. -/
def surplus (place : Option Command) (reading : Reading) (word : Bytes) : Refusal :=
  if place.isSome || (reading.plainOnly && isCommandWord word) then .unknownWord
  else .unknownCommand

/-- One word that is not a command. -/
def readWord (place : Option Command) (reading : Reading) (word : Bytes) :
    Except Refusal Reading :=
  if reading.plainOnly then .error (reading.surplus place word)
  else
    match Word.ofBytes word with
    | .separator => .ok { reading with plainOnly := true }
    | .long name value =>
        match Switch.ofLong? place name, value with
        | none, _ => .error .unknownWord
        | some (.parameter parameter), none => reading.await parameter
        | some (.parameter parameter), some value => reading.accept parameter value
        | some (.flag flag), none => reading.raise flag
        | some (.flag _), some _ => .error .needlessValue
    | .short cluster => reading.readCluster place cluster
    | .plain =>
        match reading.pending with
        | .awaiting parameter => .ok { reading with pending := .holding parameter word }
        | _ => .error (reading.surplus place word)

/-- Whether the next word may be a command. -/
def expectsCommand (reading : Reading) : Bool :=
  match reading.pending with
  | .awaiting _ => false
  | _ => !reading.plainOnly

end Reading

/-! ## Reading all words -/

/-- The answer to the word that asks for help, which depends on the words after
it: they may name one thing to be helped with. -/
def help : List Bytes → Refusal
  | [] => .helpAsked
  | [topic] => if isCommandWord topic then .helpAsked else .unknownCommand
  | _ => .unknownCommand

/-- The level before the command: how it was read, and the command with the
words behind it, if there is one. -/
def readOuter (reading : Reading) :
    List Bytes → Except Refusal (Reading × Option (Command × List Bytes))
  | [] => .ok (reading, none)
  | word :: rest =>
      if reading.expectsCommand && word == helpWord then .error (help rest)
      else
        match if reading.expectsCommand then Command.ofWord? word else none with
        | some command => .ok (reading, some (command, rest))
        | none =>
            match reading.readWord none word with
            | .error refusal => .error refusal
            | .ok reading => readOuter reading rest

/-- The level behind a command. -/
def readInner (command : Command) (reading : Reading) : List Bytes → Except Refusal Reading
  | [] => .ok reading
  | word :: rest =>
      match reading.readWord (some command) word with
      | .error refusal => .error refusal
      | .ok reading => readInner command reading rest

/-- What is given on a level that has been read. A document goes to one place
only. -/
def complete (reading : Reading) : Except Refusal Given :=
  match reading.settle with
  | .error refusal => .error refusal
  | .ok given =>
      if given.stdout && (given.value? .output).isSome then .error .conflict else .ok given

/-- Where a document is to go. -/
inductive Target where
  | stdout
  | file (output : Path)
deriving DecidableEq, Repr

/-- What the program is told to do, with what the command needs. -/
inductive Order where
  | settings (request : Option String)
  | clangd (target : Target)
deriving DecidableEq, Repr

/-- A command line that has been read. -/
structure Arguments where
  dir : Path
  base : Path
  extra : Path
  verbose : Nat
  order : Order
deriving DecidableEq, Repr

/-- The name of the document, unless another one is given. -/
def documentName : Path := .ofText ".clangd"

/-- The directory of the project, unless another one is given. -/
def hereName : Path := .ofText "."

/-- Puts together what is given on the two levels. -/
def combine (command : Command) (outer inner : Given) : Arguments :=
  let path (parameter : Parameter) (otherwise : Path) : Path :=
    match (inner.value? parameter).or (outer.value? parameter) with
    | some bytes => ⟨bytes⟩
    | none => otherwise
  { dir := path .dir hereName
    base := path .base FlagFile.baseName
    extra := path .extra FlagFile.extraName
    verbose := if inner.verbose = 0 then outer.verbose else inner.verbose
    order :=
      match command with
      | .settings => .settings ((inner.value? .request).bind Utf8.decode?)
      | .clangd => .clangd (if inner.stdout then .stdout else .file (path .output documentName)) }

/-- Reads the words of a command line. -/
def read (words : List Bytes) : Except Refusal Arguments :=
  match readOuter .start words with
  | .error refusal => .error refusal
  | .ok (outer, none) =>
      match outer.settle with
      | .error refusal => .error refusal
      | .ok given =>
          .error (if given.isNothing then .nothingAsked else .noCommand)
  | .ok (outer, some (command, rest)) =>
      -- The level behind the command ends first, so its faults come first.
      match (readInner command .start rest).bind complete with
      | .error refusal => .error refusal
      | .ok inner =>
          match outer.settle with
          | .error refusal => .error refusal
          | .ok outer => .ok (combine command outer inner)

end EditorFlags.CommandLine
