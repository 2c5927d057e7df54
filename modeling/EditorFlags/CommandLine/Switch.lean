import EditorFlags.Text.Utf8

/-!
# Switches and commands

The command line knows two commands and a handful of switches. Some switches
take a value and some stand for themselves; some are known everywhere and some
only after the command that they belong to. Words are bytes, since paths are.
-/

namespace EditorFlags.CommandLine

/-- What the program can be told to do. -/
inductive Command where
  | settings
  | clangd
deriving DecidableEq, Repr

/-- The word for a command. -/
def Command.word : Command → Bytes
  | .settings => Utf8.encode "settings"
  | .clangd => Utf8.encode "clangd"

/-- The command that a word is for. -/
def Command.ofWord? (word : Bytes) : Option Command :=
  [Command.settings, Command.clangd].find? (·.word == word)

/-- The word that asks for help. -/
def helpWord : Bytes := Utf8.encode "help"

/-- Whether a word would mean something in the place of a command. -/
def isCommandWord (word : Bytes) : Bool :=
  word == helpWord || (Command.ofWord? word).isSome

/-! ## Switches -/

/-- A switch with a value. -/
inductive Parameter where
  | dir
  | base
  | extra
  | request
  | output
deriving DecidableEq, Repr

/-- All switches with a value. -/
def Parameter.all : List Parameter :=
  [.dir, .base, .extra, .request, .output]

/-- A switch without a value. -/
inductive Flag where
  | verbose
  | stdout
  | help
deriving DecidableEq, Repr

/-- What can be given before or after the command. -/
inductive Switch where
  | parameter (parameter : Parameter)
  | flag (flag : Flag)
deriving DecidableEq, Repr

namespace Switch

/-- All switches there are. -/
def all : List Switch :=
  Parameter.all.map .parameter ++ [Flag.verbose, .stdout, .help].map .flag

/-- The name of a switch after two dashes. -/
def longName : Switch → Bytes
  | .parameter .dir => Utf8.encode "dir"
  | .parameter .base => Utf8.encode "base"
  | .parameter .extra => Utf8.encode "extra"
  | .parameter .request => Utf8.encode "request"
  | .parameter .output => Utf8.encode "output"
  | .flag .verbose => Utf8.encode "verbose"
  | .flag .stdout => Utf8.encode "stdout"
  | .flag .help => Utf8.encode "help"

/-- The letter of a switch after one dash, if it has one. -/
def shortName? : Switch → Option UInt8
  | .parameter .dir => some 'C'.toUInt8
  | .parameter .base => none
  | .parameter .extra => none
  | .parameter .request => some 'r'.toUInt8
  | .parameter .output => some 'o'.toUInt8
  | .flag .verbose => some 'v'.toUInt8
  | .flag .stdout => none
  | .flag .help => some 'h'.toUInt8

/-- The command that a switch belongs to; `none` if it is known everywhere. -/
def owner? : Switch → Option Command
  | .parameter .request => some .settings
  | .parameter .output => some .clangd
  | .flag .stdout => some .clangd
  | _ => none

/-- Whether a switch is known at a place: before the command, which is `none`,
or after it. -/
def isKnown (place : Option Command) (switch : Switch) : Bool :=
  switch.owner?.isNone || switch.owner? == place

/-- The switch known at a place by a long name. -/
def ofLong? (place : Option Command) (name : Bytes) : Option Switch :=
  all.find? fun switch => switch.isKnown place && switch.longName == name

/-- The switch known at a place by a letter. -/
def ofShort? (place : Option Command) (letter : UInt8) : Option Switch :=
  all.find? fun switch => switch.isKnown place && switch.shortName? == some letter

end Switch

/-! ## Words -/

/-- What a word looks like, whether or not it is known. -/
inductive Word where
  /-- Two dashes: no switches from here on. -/
  | separator
  /-- Two dashes and a name, and perhaps a value after the first `=`. -/
  | long (name : Bytes) (value : Option Bytes)
  /-- One dash and letters, of which one may be followed by its value. -/
  | short (cluster : Bytes)
  /-- Anything else, a single dash among it. -/
  | plain
deriving DecidableEq, Repr

/-- The byte `-`. -/
def dash : UInt8 := 0x2D

/-- The byte `=`. -/
def equals : UInt8 := 0x3D

/-- What a word looks like. -/
def Word.ofBytes (word : Bytes) : Word :=
  match word with
  | first :: second :: rest =>
      if first != dash then .plain
      else if second != dash then .short (second :: rest)
      else if rest.isEmpty then .separator
      else
        match rest.dropWhile (· != equals) with
        | [] => .long rest none
        | _ :: value => .long (rest.takeWhile (· != equals)) (some value)
  | _ => .plain

end EditorFlags.CommandLine
