import EditorFlags.CommandLine.Help
import EditorFlags.Job
import EditorFlags.Log.Filter

/-!
# The program

One run from the words of the command line to the exit status. Words that are
refused, and a request that is none, end it before anything is logged, and so
does a filter that cannot be cut into its parts. What is logged goes through the
filter, which has no part in anything else.
-/

namespace EditorFlags

/-- Why a run stopped short. -/
inductive Stop where
  | refused (refusal : CommandLine.Refusal)
  | tornFilter
  | failed (failure : Failure)
deriving DecidableEq, Repr

/-- The exit status of a run that stopped short. -/
def Stop.exitStatus : Stop → Nat
  | .refused refusal => refusal.exitStatus
  | .tornFilter => 101
  | .failed _ => 1

/-- How a run ended: what was printed, what was logged, the disk it left, and why
it stopped short if it did. -/
structure Ending where
  stdout : String
  log : List Event
  disk : Disk
  stop : Option Stop

/-- The exit status of a run. -/
def Ending.exitStatus (ending : Ending) : Nat :=
  match ending.stop with
  | none => 0
  | some stop => stop.exitStatus

namespace Program

/-- The job that some words ask for. -/
def job (words : List Bytes) : Except Stop Job :=
  match CommandLine.read words with
  | .error refusal => .error (.refused refusal)
  | .ok arguments =>
      match Job.ofArguments arguments with
      | .error failure => .error (.failed failure)
      | .ok job => .ok job

/-- What a run prints that stops before it has begun: help, if its words ask for
it. -/
def answer (words : List Bytes) : Stop → String
  | .refused .helpAsked => CommandLine.Help.answer words
  | _ => ""

/-- How a run ends that has come to a report, its log shown through a filter. -/
def finish (filter : Filter) (report : Report) : Ending where
  stdout := report.stdout
  log := filter.apply report.log
  disk := report.disk
  stop :=
    match report.result with
    | .ok () => none
    | .error failure => some (.failed failure)

/-- A whole run. `filterText` is what the environment says about the log. -/
def run (words : List Bytes) (filterText : Option String) (disk : Disk) : Ending :=
  match job words with
  | .error stop => ⟨answer words stop, [], disk, some stop⟩
  | .ok job =>
      match Filter.choose filterText job.verbose with
      | none => ⟨"", [], disk, some .tornFilter⟩
      | some filter => finish filter (job.run disk)

end Program

end EditorFlags
