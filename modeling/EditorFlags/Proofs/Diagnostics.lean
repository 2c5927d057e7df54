import EditorFlags.Proofs.CommandLine.Retuned
import EditorFlags.Proofs.Program

/-!
# What is logged has no part in what is done

The environment and some of the words say how much of the log is shown, and a request says for
which file settings are wanted. Nothing of that has a part in what a run prints, in the disk that
it leaves or in how it ends. A filter only leaves events out, fewer of them the more there is to be
shown (`Filter.sublist_apply`), and another request only changes the event that tells of it
(`Job.run_retuned`).
-/

namespace EditorFlags

/-! ## Filters -/

namespace Filter

/-- That a text for a filter can be cut into its parts. -/
def Cuts (text : Option String) : Prop :=
  text.map parse ≠ some (.error .torn)

theorem exists_choose {text : Option String} (cuts : Cuts text) (verbosity : Nat) :
    ∃ filter, choose text verbosity = some filter := by
  unfold choose
  split
  · exact ⟨_, rfl⟩
  · exact ⟨_, rfl⟩
  · exact ⟨_, rfl⟩
  · next torn => exact absurd torn cuts

/-- The filter for a verbosity shows events up to some level. -/
theorem shows_ofVerbosity (verbosity : Nat) (event : Event) :
    (ofVerbosity verbosity).shows event = decide (event.level.rank ≤ min verbosity 2 + 2) := by
  match verbosity with
  | 0 => cases event <;> rfl
  | 1 => cases event <;> rfl
  | more + 2 =>
      have most : min (more + 2) 2 = 2 := by omega
      rw [most]
      cases event <;> rfl

/-- The more is to be shown, the more is. -/
theorem sublist_apply {less more : Nat} (le : less ≤ more) (events : List Event) :
    ((ofVerbosity less).apply events).Sublist ((ofVerbosity more).apply events) := by
  apply List.monotone_filter_right
  intro event shown
  rw [shows_ofVerbosity, decide_eq_true_eq] at shown ⊢
  omega

end Filter

/-! ## Jobs -/

/-- That logs are the same but for an event in one place that tells of a request. -/
inductive Event.Retuned : List Event → List Event → Prop where
  | intro (before : List Event) (file? fileToo? : Option Path) (after : List Event) :
      Retuned (before ++ file?.toList.map (.settingsRequested .project) ++ after)
        (before ++ fileToo?.toList.map (.settingsRequested .project) ++ after)

theorem Event.Retuned.refl (log : List Event) : Event.Retuned log log := by
  have same := Event.Retuned.intro log none none []
  simpa using same

namespace Job

/-- That jobs differ at most in how much is to be logged, and in the request if they are for
settings. -/
structure Retuned (job jobToo : Job) : Prop where
  directory : jobToo.directory = job.directory
  sources : jobToo.sources = job.sources
  goal : jobToo.goal = job.goal ∨
    ∃ request requestToo, job.goal = .settings request ∧ jobToo.goal = .settings requestToo

theorem ofArguments_retuned {arguments argumentsToo : CommandLine.Arguments}
    (retuned : arguments.Retuned argumentsToo) {job : Job}
    (made : ofArguments arguments = .ok job) :
    ∃ jobToo, ofArguments argumentsToo = .ok jobToo ∧ job.Retuned jobToo := by
  obtain ⟨goal, asked, rfl⟩ := ofArguments_eq_ok_iff.mp made
  obtain ⟨dir, base, extra, order⟩ := retuned
  rcases order with same | ⟨text?, textToo?, settings, settingsToo, accepted⟩
  · refine ⟨_, ofArguments_eq_ok_iff.mpr ⟨goal, ?_, rfl⟩, dir, ?_, .inl rfl⟩
    · rw [dir, same]
      exact asked
    · rw [dir, base, extra]
  · obtain ⟨request, rfl⟩ : ∃ request, goal = .settings request := by
      rw [settings] at asked
      cases text? with
      | none => exact ⟨_, (Except.ok.inj asked).symm⟩
      | some text =>
          cases read : Request.ofJson text with
          | error fault => simp [goalOf, read] at asked
          | ok request => exact ⟨request, by simpa [goalOf, read, eq_comm] using asked⟩
    obtain ⟨requestToo, askedToo⟩ : ∃ requestToo,
        goalOf argumentsToo.dir argumentsToo.order = .ok (.settings requestToo) := by
      rw [settingsToo]
      cases textToo? with
      | none => exact ⟨_, rfl⟩
      | some text =>
          obtain ⟨requestToo, read⟩ := accepted text rfl
          exact ⟨requestToo, by simp [goalOf, read]⟩
    refine ⟨_, ofArguments_eq_ok_iff.mpr ⟨_, askedToo, rfl⟩, dir, ?_, .inr ⟨_, _, rfl, rfl⟩⟩
    rw [dir, base, extra]

/-- A job for settings comes to the same text, or to the same failure, for every request, and says
which it is in one place if it comes to that. -/
theorem prepare_settings (workingDirectory : Path) (read? : Path → Option Bytes) (directory : Path)
    (sources : List Path) :
    (∃ before text after, ∀ request verbose,
      prepare workingDirectory read? ⟨directory, sources, .settings request, verbose⟩ =
        ⟨before ++ request.events .project ++ after, .ok (.print text)⟩) ∨
    ∃ log failure, ∀ request verbose,
      prepare workingDirectory read? ⟨directory, sources, .settings request, verbose⟩ =
        ⟨log, .error failure⟩ := by
  cases opens : Project.openAt workingDirectory directory sources with
  | error failure =>
      refine .inr ⟨[], failure, fun request verbose => ?_⟩
      have failed : (Logged.ofExcept (Project.openAt workingDirectory directory sources)).result =
          .error failure := opens
      rw [prepare, Logged.bind_of_error failed]
      rfl
  | ok opened =>
      have opensToo : (Logged.ofExcept (Project.openAt workingDirectory directory sources)).result =
          .ok opened := opens
      cases collects : (opened.extract read?).result with
      | error failure =>
          refine .inr ⟨(opened.extract read?).log, failure, fun request verbose => ?_⟩
          rw [prepare, Logged.bind_of_ok opensToo, Logged.bind_of_error collects]
          rfl
      | ok project =>
          refine .inl ⟨(opened.extract read?).log, (Settings.ofItems project.items).render ++ "\n",
            [.collectedFlags (Settings.ofItems project.items).flags.length],
            fun request verbose => ?_⟩
          -- The request is said first, then the number of flags.
          have said : (project.settings request).log = request.events .project :=
            List.append_nil _
          have made : (project.settings request).result = .ok (Settings.ofItems project.items) :=
            rfl
          rw [prepare, Logged.bind_of_ok opensToo, Logged.bind_of_ok collects]
          dsimp only
          rw [Logged.bind_of_ok made, said, List.append_assoc]
          rfl

variable {job jobToo : Job}

/-- Jobs that differ in nothing else come to the same, and their logs differ in the request. -/
theorem run_retuned (retuned : job.Retuned jobToo) (disk : Disk) :
    (jobToo.run disk).result = (job.run disk).result ∧
      (jobToo.run disk).stdout = (job.run disk).stdout ∧
      (jobToo.run disk).disk = (job.run disk).disk ∧
      Event.Retuned (job.run disk).log (jobToo.run disk).log := by
  obtain ⟨directory, sources, goal, verbose⟩ := job
  obtain ⟨directoryToo, sourcesToo, goalToo, verboseToo⟩ := jobToo
  obtain ⟨rfl, rfl, goals⟩ := retuned
  rcases goals with rfl | ⟨request, requestToo, rfl, rfl⟩
  · exact ⟨rfl, rfl, rfl, .refl _⟩
  · rcases prepare_settings disk.workingDirectory.path disk.read? directoryToo sourcesToo with
      ⟨before, text, after, prepared⟩ | ⟨log, failure, prepared⟩
    · simp only [run, prepared]
      exact ⟨trivial, trivial, trivial, .intro before request.filename requestToo.filename after⟩
    · simp only [run, prepared]
      exact ⟨trivial, trivial, trivial, .refl log⟩

/-- Jobs with the same goal do the same. -/
theorem run_of_goal_eq (retuned : job.Retuned jobToo) (same : jobToo.goal = job.goal)
    (disk : Disk) : jobToo.run disk = job.run disk := by
  obtain ⟨directory, sources, goal, verbose⟩ := job
  obtain ⟨directoryToo, sourcesToo, goalToo, verboseToo⟩ := jobToo
  obtain ⟨rfl, rfl, -⟩ := retuned
  obtain rfl : goalToo = goal := same
  rfl

end Job

/-! ## Runs -/

namespace Program

variable {words wordsToo : List Bytes}

theorem job_retuned (retuned : CommandLine.Retuned words wordsToo) {job : Job}
    (accepted : Program.job words = .ok job) :
    ∃ jobToo, Program.job wordsToo = .ok jobToo ∧ job.Retuned jobToo := by
  obtain ⟨arguments, read, made⟩ := job_eq_ok_iff.mp accepted
  obtain ⟨argumentsToo, readToo, retunedToo⟩ := CommandLine.read_retuned retuned read
  obtain ⟨jobToo, madeToo, jobs⟩ := Job.ofArguments_retuned retunedToo made
  exact ⟨jobToo, job_eq_ok_iff.mpr ⟨argumentsToo, readToo, madeToo⟩, jobs⟩

/-- How a run ends depends on the result of its job alone. -/
theorem exitStatus_finish (filter filterToo : Filter) {report reportToo : Report}
    (same : reportToo.result = report.result) :
    (finish filterToo reportToo).exitStatus = (finish filter report).exitStatus := by
  simp only [Ending.exitStatus, finish, same]

/-- **Diagnostics have no part in the results.** A command line that is accepted is accepted with
any number of flags for more output and any other request that is accepted, or none. With these
changed and whatever the environment says about the log, a run ends in the same way, prints the
same and leaves the same disk. What is shown of the log is some of its events, in order. The two
logs are the same but for an event that tells of the request, and where nothing is said by the
environment, and the goal is the same, no less is shown when more is asked for. A filter is assumed
to come about, and only to show events or not. -/
theorem run_diagnostics (words wordsToo : List Bytes)
    (retuned : CommandLine.Retuned words wordsToo) (job : Job)
    (accepted : Program.job words = .ok job) :
    ∃ jobToo, Program.job wordsToo = .ok jobToo ∧
      ∀ (disk : Disk) (filterText filterTextToo : Option String),
        Filter.Cuts filterText → Filter.Cuts filterTextToo →
          (run wordsToo filterTextToo disk).exitStatus = (run words filterText disk).exitStatus ∧
          (run wordsToo filterTextToo disk).stdout = (run words filterText disk).stdout ∧
          (run wordsToo filterTextToo disk).disk = (run words filterText disk).disk ∧
          (run words filterText disk).log.Sublist (job.run disk).log ∧
          (run wordsToo filterTextToo disk).log.Sublist (jobToo.run disk).log ∧
          Event.Retuned (job.run disk).log (jobToo.run disk).log ∧
          (jobToo.goal = job.goal →
            (jobToo.run disk).log = (job.run disk).log ∧
            (filterText = none → filterTextToo = none → job.verbose ≤ jobToo.verbose →
              (run words filterText disk).log.Sublist (run wordsToo filterTextToo disk).log)) := by
  obtain ⟨jobToo, acceptedToo, jobs⟩ := job_retuned retuned accepted
  refine ⟨jobToo, acceptedToo, fun disk filterText filterTextToo cuts cutsToo => ?_⟩
  obtain ⟨filter, chosen⟩ := Filter.exists_choose cuts job.verbose
  obtain ⟨filterToo, chosenToo⟩ := Filter.exists_choose cutsToo jobToo.verbose
  obtain ⟨result, stdout, left, logs⟩ := Job.run_retuned jobs disk
  rw [run_of_job accepted chosen, run_of_job acceptedToo chosenToo]
  refine ⟨exitStatus_finish filter filterToo result, stdout, left, List.filter_sublist,
    List.filter_sublist, logs, ?_⟩
  intro sameGoal
  have same := Job.run_of_goal_eq jobs sameGoal disk
  refine ⟨congrArg Report.log same, ?_⟩
  rintro rfl rfl le
  obtain rfl : Filter.ofVerbosity job.verbose = filter := Option.some.inj chosen
  obtain rfl : Filter.ofVerbosity jobToo.verbose = filterToo := Option.some.inj chosenToo
  rw [same]
  exact Filter.sublist_apply le (job.run disk).log

/-- A disk with a project whose flag file has a line of two options. -/
def talkativeDisk : Disk :=
  ⟨⟨[([Utf8.encode "p"], .directory),
    ([Utf8.encode "p", FlagFile.baseName.bytes], .file (Utf8.encode "-c -g\n"))]⟩, []⟩

/-- The words of a command line that asks for settings for a file. -/
def askingWords : List Bytes :=
  ["-C/p", "settings", "-vr", "[\"a\"]"].map Utf8.encode

/-- The words of one that asks for settings only. -/
def plainWords : List Bytes :=
  ["--dir", "/p", "-vv", "settings", "--"].map Utf8.encode

/-- What the letters of a flag and of the request mention in one word goes, and the flag is
mentioned elsewhere. -/
theorem retuned_askingWords : CommandLine.Retuned askingWords plainWords := by
  have inner : CommandLine.mentions? (some .settings) none
      (["-vr", "[\"a\"]"].map Utf8.encode) =
      some [.flag .verbose, .value .request (Utf8.encode "[\"a\"]")] := by cbv
  have outer : CommandLine.mentions? none none (["-C/p"].map Utf8.encode) =
      some [.value .dir (Utf8.encode "/p")] := by cbv
  have outerToo : CommandLine.mentions? none none (["--dir", "/p", "-vv"].map Utf8.encode) =
      some [.value .dir (Utf8.encode "/p"), .flag .verbose, .flag .verbose] := by cbv
  have words : askingWords = ["-C/p"].map Utf8.encode ++ CommandLine.Command.settings.word ::
      (["-vr", "[\"a\"]"].map Utf8.encode ++ []) := by cbv
  have wordsToo : plainWords = ["--dir", "/p", "-vv"].map Utf8.encode ++
      CommandLine.Command.settings.word :: ([] ++ [CommandLine.separatorWord]) := by cbv
  rw [words, wordsToo]
  exact .intro outer outerToo inner rfl (.inl rfl) (.inr rfl)
    ⟨rfl, by decide, by intro bytes member; cases member⟩
    ⟨rfl, by decide, by intro bytes member; cases member⟩

theorem job_askingWords :
    Program.job askingWords = .ok
      { directory := .ofText "/p"
        sources := [.ofText "/p/compiler_options.txt", .ofText "/p/compiler_options_extra.txt"]
        goal := .settings ⟨some (.ofText "a")⟩
        verbose := 1 } := by
  have read : CommandLine.read askingWords = .ok
      ⟨.ofText "/p", FlagFile.baseName, FlagFile.extraName, 1, .settings (some "[\"a\"]")⟩ := by
    cbv
  have request : Request.ofJson "[\"a\"]" = .ok ⟨some (.ofText "a")⟩ := by cbv
  refine job_eq_ok_iff.mpr ⟨_, read, ?_⟩
  simp only [Job.ofArguments, Job.goalOf, request]
  decide

theorem job_plainWords :
    Program.job plainWords = .ok
      { directory := .ofText "/p"
        sources := [.ofText "/p/compiler_options.txt", .ofText "/p/compiler_options_extra.txt"]
        goal := .settings ⟨none⟩
        verbose := 2 } := by
  have read : CommandLine.read plainWords = .ok
      ⟨.ofText "/p", FlagFile.baseName, FlagFile.extraName, 2, .settings none⟩ := by
    cbv
  refine job_eq_ok_iff.mpr ⟨_, read, ?_⟩
  simp only [Job.ofArguments, Job.goalOf]
  decide

/-- What an environment may say that is quiet but about the project. -/
def directives : String :=
  "warn,flagconf::pipeline=debug"

theorem parse_directives :
    Filter.parse directives =
      .ok [⟨"", .none, some .warn⟩, ⟨"flagconf::pipeline", .none, some .debug⟩] := by
  decide +kernel

theorem choose_directives (verbosity : Nat) :
    Filter.choose (some directives) verbosity =
      some [⟨"", .none, some .warn⟩, ⟨"flagconf::pipeline", .none, some .debug⟩] := by
  simp only [Filter.choose, Option.map_some, parse_directives]

/-- The directives show the request, which one flag does not, and leave out what two show of the
flag files. What is done is the same each time. -/
theorem run_diagnostics_talkative :
    CommandLine.Retuned askingWords plainWords ∧
      Program.job askingWords = .ok
        { directory := .ofText "/p"
          sources := [.ofText "/p/compiler_options.txt", .ofText "/p/compiler_options_extra.txt"]
          goal := .settings ⟨some (.ofText "a")⟩
          verbose := 1 } ∧
      Filter.Cuts none ∧ Filter.Cuts (some "") ∧ Filter.Cuts (some directives) ∧
      (run plainWords (some "") talkativeDisk).stdout =
        (run askingWords none talkativeDisk).stdout ∧
      (run plainWords (some directives) talkativeDisk).exitStatus =
        (run askingWords none talkativeDisk).exitStatus ∧
      (run plainWords (some directives) talkativeDisk).stdout =
        (run askingWords none talkativeDisk).stdout ∧
      (run plainWords (some directives) talkativeDisk).disk =
        (run askingWords none talkativeDisk).disk ∧
      (run askingWords none talkativeDisk).log = [.collectedFlags 2] ∧
      (run askingWords (some directives) talkativeDisk).log =
        [.settingsRequested .project (.ofText "a"), .collectedFlags 2] ∧
      (run plainWords none talkativeDisk).log =
        [.readLines 1 (.ofText "/p/compiler_options.txt"),
          .skippedMissing (.ofText "/p/compiler_options_extra.txt"), .collectedFlags 2] ∧
      (run plainWords (some directives) talkativeDisk).log = [.collectedFlags 2] := by
  have cuts : Filter.Cuts none := by
    intro torn
    cases torn
  have cutsEmpty : Filter.Cuts (some "") := by
    have parsed : Filter.parse "" = .ok [] := by cbv
    simp [Filter.Cuts, parsed]
  have cutsDirectives : Filter.Cuts (some directives) := by
    simp [Filter.Cuts, parse_directives]
  obtain ⟨jobToo, -, same⟩ := run_diagnostics _ _ retuned_askingWords _ job_askingWords
  obtain ⟨-, printedEmpty, -⟩ := same talkativeDisk _ _ cuts cutsEmpty
  obtain ⟨ended, printed, left, -⟩ := same talkativeDisk _ _ cuts cutsDirectives
  refine ⟨retuned_askingWords, job_askingWords, cuts, cutsEmpty, cutsDirectives, printedEmpty,
    ended, printed, left, ?_, ?_, ?_, ?_⟩
  · rw [run_of_job job_askingWords rfl]
    cbv
  · rw [run_of_job job_askingWords (choose_directives _)]
    cbv
  · rw [run_of_job job_plainWords rfl]
    cbv
  · rw [run_of_job job_plainWords (choose_directives _)]
    cbv

end Program

end EditorFlags
