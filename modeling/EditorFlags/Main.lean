import EditorFlags.Program

/-!
# The command

The program on the disk of the system that it runs on. All that is decided is
decided elsewhere: here the files that a job names are read, the job is
prepared from what they hold, and what comes of it is printed or saved.
-/

namespace EditorFlags.Terminal

/-- The variable of the environment that says what is logged. -/
def filterVariable : String := "RUST_LOG"

/-- The bytes of a file, if there is one. What cannot be opened as a file is
none; a file that cannot be read is an error. -/
def readFile? (path : Path) : IO (Option Bytes) := do
  try
    return some (← IO.FS.readBinFile path.lossyText).toList
  catch
    | .noFileOrDirectory .. => return none
    | .inappropriateType .. => return none
    | .invalidArgument .. => return none
    | problem => throw problem

/-- Shows a failure and what is behind it. -/
def complain (message : String) (causes : List String) : IO Unit := do
  IO.eprintln s!"Error: {message}"
  unless causes.isEmpty do
    IO.eprintln "\nCaused by:"
    for cause in causes do
      IO.eprintln s!"    {cause}"

/-- Shows the events that a filter lets through. -/
def showLog (filter : Filter) (events : List Event) : IO Unit :=
  for event in filter.apply events do
    IO.eprintln s!"{event.level.label} {event.message}"

/-- Shows why a run of some words stops short, and gives its exit status. Who asks
for nothing is told what there is to ask for. -/
def stopWith (words : List Bytes) (stop : Stop) : IO UInt32 := do
  match stop with
  | .refused .helpAsked => IO.print (Program.answer words stop)
  | .refused .nothingAsked => IO.eprint CommandLine.Help.Topic.program.page.render
  | .refused _ =>
      IO.eprintln s!"Usage: {CommandLine.Help.Topic.program.page.call}\n"
      IO.eprintln "For more information, try '--help'."
  | .tornFilter => complain s!"{filterVariable} is cut inside of a character" []
  | .failed failure => complain failure.message failure.causes
  return stop.exitStatus.toUInt32

/-- The last step of a run. -/
def deliver (filter : Filter) : Delivery → IO UInt32
  | .print text => do
      IO.print text
      return 0
  | .save path text => do
      try
        IO.FS.writeBinFile path.lossyText text.toUTF8
        showLog filter [.wroteBytes text.utf8ByteSize path]
        return 0
      catch problem =>
        complain (Failure.couldNotWrite path) [toString problem]
        return 1

/-- A job from its files to its exit status. -/
def runJob (words : List Bytes) (filter : Filter) (job : Job) : IO UInt32 := do
  let workingDirectory := Path.ofText (← IO.currentDir).toString
  let mut files : List (Path × Bytes) := []
  for path in job.sources do
    if let some bytes ← readFile? path then
      files := (path, bytes) :: files
  let prepared := job.prepare workingDirectory fun path => files.lookup path
  showLog filter prepared.log
  match prepared.result with
  | .ok delivery => deliver filter delivery
  | .error failure => stopWith words (.failed failure)

end EditorFlags.Terminal

/-- Runs the words of the command line. -/
def main (arguments : List String) : IO UInt32 := do
  let words := arguments.map EditorFlags.Utf8.encode
  match EditorFlags.Program.job words with
  | .error stop => EditorFlags.Terminal.stopWith words stop
  | .ok job =>
      let filterText ← IO.getEnv EditorFlags.Terminal.filterVariable
      match EditorFlags.Filter.choose filterText job.verbose with
      | none => EditorFlags.Terminal.stopWith words .tornFilter
      | some filter => EditorFlags.Terminal.runJob words filter job
