import EditorFlags.CommandLine
import EditorFlags.Project

/-!
# Jobs

A job is what one run is to do, with every path put in its place. `prepare` does
all of it but the last step, for which it needs only to read files; the last
step is to print what came of it or to save it. So a run that fails before that
step has changed nothing.
-/

namespace EditorFlags

/-- What is to come of a run. -/
inductive Goal where
  | settings (request : Request)
  | printDocument
  | saveDocument (path : Path)
deriving DecidableEq, Repr

/-- What one run is to do. -/
structure Job where
  directory : Path
  sources : List Path
  goal : Goal
  verbose : Nat
deriving DecidableEq, Repr

/-- The last step of a run. -/
inductive Delivery where
  | print (text : String)
  | save (path : Path) (text : String)
deriving DecidableEq, Repr

/-- What came of a run. -/
structure Report where
  log : List Event
  stdout : String
  disk : Disk
  result : Except Failure Unit

namespace Job

/-- The goal of a command, in a directory. -/
def goalOf (directory : Path) : CommandLine.Order → Except Failure Goal
  | .settings none => .ok (.settings .anyFile)
  | .settings (some text) =>
      match Request.ofJson text with
      | .error fault => .error (.invalidRequest fault)
      | .ok request => .ok (.settings request)
  | .clangd .stdout => .ok .printDocument
  | .clangd (.file output) => .ok (.saveDocument (directory.join output))

/-- The job that a command line asks for. -/
def ofArguments (arguments : CommandLine.Arguments) : Except Failure Job :=
  match goalOf arguments.dir arguments.order with
  | .error failure => .error failure
  | .ok goal =>
      .ok
        { directory := arguments.dir
          sources := [arguments.dir.join arguments.base, arguments.dir.join arguments.extra]
          goal := goal
          verbose := arguments.verbose }

/-! ## Running -/

/-- All steps of a run but the last. -/
def prepare (workingDirectory : Path) (read? : Path → Option Bytes) (job : Job) :
    Logged Delivery := do
  let project ← Logged.ofExcept (Project.openAt workingDirectory job.directory job.sources)
  let project ← project.extract read?
  -- From here on no file is read.
  match job.goal with
  | .settings request =>
      let settings ← project.settings request
      Logged.say (.collectedFlags settings.flags.length)
      return .print (settings.render ++ "\n")
  | .printDocument => return .print (← project.document)
  | .saveDocument path => return .save path (← project.document)

/-- A whole run on a disk. -/
def run (disk : Disk) (job : Job) : Report :=
  let prepared := job.prepare disk.workingDirectory.path disk.read?
  match prepared.result with
  | .error failure => ⟨prepared.log, "", disk, .error failure⟩
  | .ok (.print text) => ⟨prepared.log, text, disk, .ok ()⟩
  | .ok (.save path text) =>
      let saved := disk.save path text
      match saved.result with
      | .error failure => ⟨prepared.log ++ saved.log, "", disk, .error failure⟩
      | .ok disk => ⟨prepared.log ++ saved.log, "", disk, .ok ()⟩

end Job

end EditorFlags
