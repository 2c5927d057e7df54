import EditorFlags.CommandLine

/-!
# Help

Help is about the program, about one of its commands or about help itself. A page of it says what
its topic is for and how that is called, and then explains what there is to call it with, an entry
on a line, with the explanations in a column. The switches of a command stand among those that are
known everywhere, in the order in which each level lists its own.
-/

namespace EditorFlags.CommandLine

/-! ## What there is to explain -/

/-- What a command is for. -/
def Command.purpose : Command → String
  | .settings => "Print the flag list as a JSON settings mapping"
  | .clangd => "Write a .clangd file with a CompileFlags/Add list"

namespace Switch

/-- What a switch is for. -/
def purpose : Switch → String
  | .parameter .dir =>
      "Project directory. Flag files and the default output live here, " ++
        "and relative include paths resolve against it"
  | .parameter .base => "Base options file, relative to --dir"
  | .parameter .extra => "Extra options file, relative to --dir"
  | .parameter .request => "Host parameters as a JSON object. Unknown keys are ignored"
  | .parameter .output => "Output path, relative to --dir. Defaults to .clangd"
  | .flag .verbose => "More log output (-v info, -vv debug). RUST_LOG wins when set"
  | .flag .stdout => "Print the document instead of writing a file"
  | .flag .help => "Print help"

/-- The value of a switch that is not given, if it has one by itself. -/
def default? : Switch → Option Path
  | .parameter .dir => some hereName
  | .parameter .base => some FlagFile.baseName
  | .parameter .extra => some FlagFile.extraName
  | _ => none

/-- How a switch is given: its letter, if it has one, its name, and its value under the same name.
Dots stand for a switch that can be repeated. -/
def entry (switch : Switch) : String :=
  let name := Utf8.lossy switch.longName
  let letter :=
    match switch.shortName? with
    | some letter => "-" ++ Utf8.lossy [letter] ++ ", "
    | none => "    "
  let value :=
    match switch with
    | .parameter _ => " <" ++ String.ofList (name.toList.map Char.toUpper) ++ ">"
    | .flag .verbose => "..."
    | .flag _ => ""
  letter ++ "--" ++ name ++ value

/-- What a switch is for, and its value if it is not given. -/
def explanation (switch : Switch) : String :=
  match switch.default? with
  | some path => switch.purpose ++ " [default: " ++ path.lossyText ++ "]"
  | none => switch.purpose

/-- All switches, in the order in which those known at a place are shown. -/
def listed : List Switch :=
  [.parameter .dir, .parameter .request, .parameter .output, .parameter .base, .flag .stdout,
    .parameter .extra, .flag .verbose, .flag .help]

/-- The switches that are shown for a place. -/
def shown (place : Option Command) : List Switch :=
  listed.filter (·.isKnown place)

end Switch

/-! ## Pages -/

namespace Help

/-- Entries under a heading, each with what explains it. -/
structure Table where
  heading : String
  rows : List (String × String)
deriving DecidableEq, Repr

namespace Table

/-- The length of the longest entry. -/
def width (table : Table) : Nat :=
  table.rows.foldr (fun row width => max row.1.length width) 0

/-- An entry, filled up with spaces to the longest one. -/
def filled (table : Table) (entry : String) : List Char :=
  entry.toList ++ List.replicate (table.width - entry.length) ' '

/-- One line of a table. -/
def line (table : Table) (row : String × String) : String :=
  "  " ++ String.ofList (table.filled row.1) ++ "  " ++ row.2 ++ "\n"

/-- The text of a table. -/
def render (table : Table) : String :=
  table.heading ++ ":\n" ++ String.join (table.rows.map table.line)

end Table

/-- What help has to say about a topic. -/
structure Page where
  purpose : String
  call : String
  tables : List Table
deriving DecidableEq, Repr

/-- The text of a page. -/
def Page.render (page : Page) : String :=
  page.purpose ++ "\n\nUsage: " ++ page.call ++ "\n" ++
    String.join (page.tables.map fun table => "\n" ++ table.render)

/-- What the program is called. -/
def programName : String := "flagconf"

/-- What the word that asks for help is for. -/
def purpose : String := "Print this message or the help of the given subcommand(s)"

/-- The commands, and the word that asks for help among them. -/
def commands : Table where
  heading := "Commands"
  rows :=
    ([Command.settings, .clangd].map fun command => (Utf8.lossy command.word, command.purpose)) ++
      [(Utf8.lossy helpWord, purpose)]

/-- The switches known at a place. -/
def options (place : Option Command) : Table where
  heading := "Options"
  rows := (Switch.shown place).map fun switch => (switch.entry, switch.explanation)

/-- What the word that asks for help can be followed by. -/
def arguments : Table where
  heading := "Arguments"
  rows := [("[COMMAND]...", "Print help for the subcommand(s)")]

/-- What help can be about. -/
inductive Topic where
  | program
  | of (command : Command)
  | help
deriving DecidableEq, Repr

/-- The page of a topic. -/
def Topic.page : Topic → Page
  | .program =>
      { purpose :=
          "Turn compiler_options.txt flag files into editor tooling config: " ++
            "a flag list for completion engines or a .clangd file."
        call := programName ++ " [OPTIONS] <COMMAND>"
        tables := [commands, options none] }
  | .of command =>
      { purpose := command.purpose
        call := programName ++ " " ++ Utf8.lossy command.word ++ " [OPTIONS]"
        tables := [options (some command)] }
  | .help =>
      { purpose := purpose
        call := programName ++ " " ++ Utf8.lossy helpWord ++ " [COMMAND]..."
        tables := [arguments] }

/-! ## What help is about -/

/-- What the word that asks for help is asked about. -/
def Topic.ofWords : List Bytes → Topic
  | [topic] =>
      if topic == helpWord then .help
      else
        match Command.ofWord? topic with
        | some command => .of command
        | none => .program
  | _ => .program

/-- What help is about that is asked for in some words: the command if there is one before, or
what follows the word that asks for it. Before a command switches ask for the program. -/
def topicFrom (reading : Reading) : List Bytes → Topic
  | [] => .program
  | word :: rest =>
      if reading.expectsCommand && word == helpWord then .ofWords rest
      else
        match if reading.expectsCommand then Command.ofWord? word else none with
        | some command => .of command
        | none =>
            match reading.readWord none word with
            | .error _ => .program
            | .ok reading => topicFrom reading rest

/-- The help that some words ask for, if they ask for help. -/
def answer (words : List Bytes) : String :=
  (topicFrom .start words).page.render

end Help

end EditorFlags.CommandLine
