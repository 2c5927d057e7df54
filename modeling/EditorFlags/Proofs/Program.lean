import EditorFlags.Program
import EditorFlags.Proofs.CommandLine.Printing
import EditorFlags.Proofs.FileTree
import EditorFlags.Proofs.Logged

/-!
# All or nothing

A run writes to the disk in its last step only, and that step is to save a document that
is complete. So a run that fails has changed nothing and printed nothing, and a run that
ends well has either printed what it was to print or written one file. The document that
a run saves is the one that it would have printed.
-/

namespace EditorFlags

/-! ## The last step of a job -/

namespace Job

/-- The project that a job works on, with all that its flag files hold. -/
def Collects (workingDirectory : Path) (read? : Path → Option Bytes) (job : Job)
    (project : Project) : Prop :=
  ∃ opened, Project.openAt workingDirectory job.directory job.sources = .ok opened ∧
    (opened.extract read?).result = .ok project

/-- The last step for a goal, once a project has been collected. -/
inductive Delivers (project : Project) : Goal → Delivery → Prop where
  | settings (request : Request) :
      Delivers project (.settings request)
        (.print ((Settings.ofItems project.items).render ++ "\n"))
  | printDocument {text : String} (rendered : project.document.result = .ok text) :
      Delivers project .printDocument (.print text)
  | saveDocument (path : Path) {text : String} (rendered : project.document.result = .ok text) :
      Delivers project (.saveDocument path) (.save path text)

variable {workingDirectory : Path} {read? : Path → Option Bytes} {job : Job}
  {delivery : Delivery}

/-- What a goal comes to is what is done for it after collecting. -/
theorem result_prepare_eq_ok_iff :
    (job.prepare workingDirectory read?).result = .ok delivery ↔
      ∃ project, job.Collects workingDirectory read? project ∧
        Delivers project job.goal delivery := by
  unfold prepare
  simp only [Logged.result_bind_eq_ok_iff]
  constructor
  · rintro ⟨opened, opens, project, collects, delivers⟩
    refine ⟨project, ⟨opened, opens, collects⟩, ?_⟩
    cases goal : job.goal with
    | settings request =>
        simp only [goal, Project.settings, Logged.result_bind_eq_ok_iff] at delivers
        obtain ⟨settings, ⟨-, -, made⟩, -, -, printed⟩ := delivers
        obtain rfl := Except.ok.inj made
        obtain rfl := Except.ok.inj printed
        exact .settings request
    | printDocument =>
        simp only [goal, Logged.result_bind_eq_ok_iff] at delivers
        obtain ⟨text, rendered, printed⟩ := delivers
        obtain rfl := Except.ok.inj printed
        exact .printDocument rendered
    | saveDocument path =>
        simp only [goal, Logged.result_bind_eq_ok_iff] at delivers
        obtain ⟨text, rendered, saved⟩ := delivers
        obtain rfl := Except.ok.inj saved
        exact .saveDocument path rendered
  · rintro ⟨project, ⟨opened, opens, collects⟩, delivers⟩
    refine ⟨opened, opens, project, collects, ?_⟩
    generalize job.goal = goal at delivers
    cases delivers with
    | settings request => rfl
    | printDocument rendered =>
        show (project.document >>= fun text => pure (Delivery.print text)).result = _
        exact Logged.result_bind_eq_ok_iff.mpr ⟨_, rendered, rfl⟩
    | saveDocument path rendered =>
        show (project.document >>= fun text => pure (Delivery.save path text)).result = _
        exact Logged.result_bind_eq_ok_iff.mpr ⟨_, rendered, rfl⟩

/-! ## What a job leaves behind -/

variable {disk : Disk} {project : Project}

/-- A job that fails changes nothing and prints nothing. -/
theorem run_of_error {failure : Failure} (failed : (job.run disk).result = .error failure) :
    (job.run disk).disk = disk ∧ (job.run disk).stdout = "" := by
  cases prepared : (job.prepare disk.workingDirectory.path disk.read?).result with
  | error cause => simp only [run, prepared, and_self]
  | ok delivery =>
      cases delivery with
      | print text => simp [run, prepared] at failed
      | save path text =>
          cases saved : (disk.save path text).result with
          | error cause => simp only [run, prepared, saved, and_self]
          | ok after => simp [run, prepared, saved] at failed

/-- A job that prints changes nothing. -/
theorem run_of_print {text : String}
    (collects : job.Collects disk.workingDirectory.path disk.read? project)
    (prints : Delivers project job.goal (.print text)) :
    (job.run disk).result = .ok () ∧ (job.run disk).disk = disk ∧
      (job.run disk).stdout = text := by
  have prepared := result_prepare_eq_ok_iff.mpr ⟨project, collects, prints⟩
  simp only [run, prepared, and_self]

/-- A job that saves prints nothing, and its disk is that of the write. -/
theorem run_of_save {path : Path} {text : String}
    (collects : job.Collects disk.workingDirectory.path disk.read? project)
    (saves : Delivers project job.goal (.save path text)) (ok : (job.run disk).result = .ok ()) :
    (job.run disk).stdout = "" ∧
      disk.write path (Utf8.encode text) = .ok (job.run disk).disk := by
  have prepared := result_prepare_eq_ok_iff.mpr ⟨project, collects, saves⟩
  cases written : disk.write path (Utf8.encode text) with
  | error fault => simp [run, prepared, Disk.save, written, Logged.fail] at ok
  | ok after => simp [run, prepared, Disk.save, written]

/-- A job that ends well has collected its project and delivered what its goal asks for. -/
theorem delivers_of_run (ok : (job.run disk).result = .ok ()) :
    ∃ project delivery, job.Collects disk.workingDirectory.path disk.read? project ∧
      Delivers project job.goal delivery := by
  cases prepared : (job.prepare disk.workingDirectory.path disk.read?).result with
  | error cause => simp [run, prepared] at ok
  | ok delivery =>
      obtain ⟨project, collects, delivers⟩ := result_prepare_eq_ok_iff.mp prepared
      exact ⟨project, delivery, collects, delivers⟩

/-- A job that is not to save changes nothing. -/
theorem disk_run_of_noSave (ok : (job.run disk).result = .ok ())
    (noSave : ∀ path, job.goal ≠ .saveDocument path) : (job.run disk).disk = disk := by
  obtain ⟨project, delivery, collects, delivers⟩ := delivers_of_run ok
  have prints : ∃ text, delivery = .print text := by
    generalize goal : job.goal = asked at delivers
    cases delivers with
    | settings request => exact ⟨_, rfl⟩
    | @printDocument text rendered => exact ⟨text, rfl⟩
    | saveDocument path rendered => exact absurd goal (noSave path)
  obtain ⟨text, rfl⟩ := prints
  exact (run_of_print collects delivers).2.1

theorem ofArguments_eq_ok_iff {arguments : CommandLine.Arguments} :
    ofArguments arguments = .ok job ↔
      ∃ goal, goalOf arguments.dir arguments.order = .ok goal ∧
        job =
          { directory := arguments.dir
            sources := [arguments.dir.join arguments.base, arguments.dir.join arguments.extra]
            goal := goal
            verbose := arguments.verbose } := by
  unfold ofArguments
  cases goalOf arguments.dir arguments.order with
  | error failure => simp
  | ok goal => simp [eq_comm]

theorem goalOf_of_ofArguments {arguments : CommandLine.Arguments}
    (made : ofArguments arguments = .ok job) :
    goalOf arguments.dir arguments.order = .ok job.goal := by
  obtain ⟨goal, asked, rfl⟩ := ofArguments_eq_ok_iff.mp made
  exact asked

/-- Only a command that saves makes a job that does. -/
theorem noSave_of_order {arguments : CommandLine.Arguments}
    (made : ofArguments arguments = .ok job)
    (noFile : ∀ output, arguments.order ≠ .clangd (.file output)) (path : Path) :
    job.goal ≠ .saveDocument path := by
  intro saves
  have goal := goalOf_of_ofArguments made
  rw [saves] at goal
  unfold goalOf at goal
  split at goal
  · simp at goal
  · split at goal <;> simp at goal
  · simp at goal
  · next output order => exact noFile output order

end Job

/-! ## What a run leaves behind -/

namespace Program

variable {words : List Bytes} {filterText : Option String} {disk : Disk}

theorem job_eq_ok_iff {job : Job} :
    Program.job words = .ok job ↔
      ∃ arguments, CommandLine.read words = .ok arguments ∧
        Job.ofArguments arguments = .ok job := by
  unfold Program.job
  cases CommandLine.read words with
  | error refusal => simp
  | ok arguments => cases made : Job.ofArguments arguments <;> simp [made]

/-- A run comes to what its job comes to. -/
theorem run_of_job {job : Job} {filter : Filter} (made : Program.job words = .ok job)
    (chosen : Filter.choose filterText job.verbose = some filter) :
    run words filterText disk = finish filter (job.run disk) := by
  simp only [run, made, chosen]

@[simp] theorem stop_finish_eq_none_iff {filter : Filter} {report : Report} :
    (finish filter report).stop = none ↔ report.result = .ok () := by
  unfold finish
  cases report.result with
  | error failure => simp
  | ok done => simp

/-- A run that does not stop short has come through its job. -/
theorem exists_job_of_run (ok : (run words filterText disk).stop = none) :
    ∃ job filter, Program.job words = .ok job ∧
      Filter.choose filterText job.verbose = some filter ∧ (job.run disk).result = .ok () := by
  cases made : Program.job words with
  | error stop => simp [run, made] at ok
  | ok job =>
      cases chosen : Filter.choose filterText job.verbose with
      | none => simp [run, made, chosen] at ok
      | some filter =>
          rw [run_of_job made chosen, stop_finish_eq_none_iff] at ok
          exact ⟨job, filter, rfl, chosen, ok⟩

/-- A run that stops short changes nothing, and prints nothing but the answer to a call
for help. -/
theorem run_of_stop {stop : Stop} (stopped : (run words filterText disk).stop = some stop) :
    (run words filterText disk).disk = disk ∧
      (run words filterText disk).stdout = answer words stop := by
  cases made : Program.job words with
  | error cause =>
      have same : cause = stop := by simpa [run, made] using stopped
      simp [run, made, same]
  | ok job =>
      cases chosen : Filter.choose filterText job.verbose with
      | none =>
          have same : Stop.tornFilter = stop := by simpa [run, made, chosen] using stopped
          simp [run, made, chosen, answer, ← same]
      | some filter =>
          rw [run_of_job made chosen] at stopped ⊢
          cases result : (job.run disk).result with
          | ok done => simp [finish, result] at stopped
          | error failure =>
              have same : Stop.failed failure = stop := by simpa [finish, result] using stopped
              obtain ⟨unchanged, silent⟩ := Job.run_of_error result
              subst same
              show (job.run disk).disk = disk ∧ (job.run disk).stdout = ""
              exact ⟨unchanged, silent⟩

/-- What a run comes to whose words ask for help. -/
theorem run_of_helpAsked (asked : CommandLine.read words = .error .helpAsked) :
    run words filterText disk =
      ⟨CommandLine.Help.answer words, [], disk, some (.refused .helpAsked)⟩ := by
  simp [run, job, asked, answer]

/-! ## The effect of a run -/

/-- The jobs of a command line that saves and of one that prints differ in their goals. -/
theorem job_toStdout {arguments : CommandLine.Arguments} {output : Path} {job : Job}
    (accepted : CommandLine.read words = .ok arguments)
    (saves : arguments.order = .clangd (.file output))
    (made : Job.ofArguments arguments = .ok job) :
    job.goal = .saveDocument (arguments.dir.join output) ∧
      Program.job (CommandLine.toStdout words) = .ok { job with goal := .printDocument } := by
  have acceptedToo := CommandLine.read_toStdout accepted saves
  rw [Job.ofArguments, saves] at made
  obtain rfl := Except.ok.inj made
  exact ⟨rfl, job_eq_ok_iff.mpr ⟨_, acceptedToo, rfl⟩⟩

theorem answer_of_exitStatus {stop : Stop} (failed : stop.exitStatus ≠ 0) :
    answer words stop = "" := by
  cases stop with
  | refused refusal => cases refusal <;> first | rfl | exact absurd rfl failed
  | tornFilter => rfl
  | failed failure => rfl

/-- Only the words of a command line can be refused. -/
theorem read_of_refused {refusal : CommandLine.Refusal}
    (stopped : (run words filterText disk).stop = some (.refused refusal)) :
    CommandLine.read words = .error refusal := by
  cases made : Program.job words with
  | error cause =>
      have same : cause = .refused refusal := by simpa [run, made] using stopped
      subst same
      unfold Program.job at made
      cases read : CommandLine.read words with
      | error other => simpa [read] using made
      | ok arguments => cases goal : Job.ofArguments arguments <;> simp [read, goal] at made
  | ok job =>
      cases chosen : Filter.choose filterText job.verbose with
      | none => simp [run, made, chosen] at stopped
      | some filter =>
          rw [run_of_job made chosen] at stopped
          cases result : (job.run disk).result <;> simp [finish, result] at stopped

/-- Only a call for help stops a run and is no failure. -/
theorem eq_helpAsked_of_exitStatus {stop : Stop} (helped : stop.exitStatus = 0) :
    stop = .refused .helpAsked := by
  cases stop with
  | refused refusal => cases refusal <;> first | rfl | exact absurd helped (by decide)
  | tornFilter => exact absurd helped (by decide)
  | failed failure => exact absurd helped (by simp [Stop.exitStatus])

/-- What a run leaves behind that has saved a document. -/
theorem written_of_run {arguments : CommandLine.Arguments} {output : Path}
    (ok : (run words filterText disk).stop = none)
    (accepted : CommandLine.read words = .ok arguments)
    (saves : arguments.order = .clangd (.file output)) :
    (run words filterText disk).stdout = "" ∧
      (run (CommandLine.toStdout words) filterText disk).stop = none ∧
      ∃ location, Disk.Written disk (run words filterText disk).disk
        (arguments.dir.join output) location
        (Utf8.encode (run (CommandLine.toStdout words) filterText disk).stdout) := by
  obtain ⟨job, filter, made, chosen, jobOk⟩ := exists_job_of_run ok
  obtain ⟨same, acceptedSame, jobMade⟩ := job_eq_ok_iff.mp made
  obtain rfl : arguments = same := by simpa [accepted] using acceptedSame
  obtain ⟨goal, madeToo⟩ := job_toStdout accepted saves jobMade
  obtain ⟨project, delivery, collects, delivers⟩ := Job.delivers_of_run jobOk
  -- The goal is to save, so what was delivered is the text of a document.
  generalize goalIs : job.goal = asked at delivers
  cases delivers with
  | settings request => simp [goal] at goalIs
  | printDocument rendered => simp [goal] at goalIs
  | @saveDocument path text rendered =>
      obtain rfl : arguments.dir.join output = path := by simpa [goal] using goalIs
      have delivers : Job.Delivers project job.goal (.save _ text) :=
        goalIs ▸ Job.Delivers.saveDocument _ rendered
      obtain ⟨silent, written⟩ := Job.run_of_save collects delivers jobOk
      -- The other job collects the same project, since it has the same flag files.
      obtain ⟨okToo, -, printed⟩ :=
        @Job.run_of_print { job with goal := .printDocument } disk project text collects
          (.printDocument rendered)
      obtain ⟨location, effect⟩ := Disk.written_of_write written
      rw [run_of_job made chosen, run_of_job madeToo chosen]
      refine ⟨silent, stop_finish_eq_none_iff.mpr okToo, location, ?_⟩
      show Disk.Written disk (job.run disk).disk (arguments.dir.join output) location _
      rw [← printed] at effect
      exact effect

/-- **All or nothing.** A run with another exit status than zero leaves the disk as it was
and has printed nothing. A run with exit status zero leaves the disk as it was too, unless
it was to save a document. Then it has printed nothing, and has written the one file that
the output leads to, which now holds the very document that the run prints if its words
ask for printing instead. -/
theorem run_all_or_nothing (words : List Bytes) (filterText : Option String) (disk : Disk) :
    ((run words filterText disk).exitStatus ≠ 0 →
      (run words filterText disk).disk = disk ∧ (run words filterText disk).stdout = "") ∧
    ((run words filterText disk).exitStatus = 0 →
      (CommandLine.read words = .error .helpAsked ∧ (run words filterText disk).disk = disk) ∨
      ∃ arguments, CommandLine.read words = .ok arguments ∧
        match arguments.order with
        | .settings _ => (run words filterText disk).disk = disk
        | .clangd .stdout => (run words filterText disk).disk = disk
        | .clangd (.file output) =>
            (run words filterText disk).stdout = "" ∧
            CommandLine.read (CommandLine.toStdout words) =
              .ok { arguments with order := .clangd .stdout } ∧
            (run (CommandLine.toStdout words) filterText disk).exitStatus = 0 ∧
            ∃ location, Disk.Written disk (run words filterText disk).disk
              (arguments.dir.join output) location
              (Utf8.encode (run (CommandLine.toStdout words) filterText disk).stdout)) := by
  refine ⟨?_, ?_⟩
  · intro failed
    cases stopped : (run words filterText disk).stop with
    | none => simp [Ending.exitStatus, stopped] at failed
    | some stop =>
        obtain ⟨unchanged, printed⟩ := run_of_stop stopped
        refine ⟨unchanged, printed.trans (answer_of_exitStatus ?_)⟩
        simpa [Ending.exitStatus, stopped] using failed
  · intro succeeded
    cases stopped : (run words filterText disk).stop with
    | some stop =>
        left
        have helped : stop.exitStatus = 0 := by simpa [Ending.exitStatus, stopped] using succeeded
        obtain rfl := eq_helpAsked_of_exitStatus helped
        exact ⟨read_of_refused stopped, (run_of_stop stopped).1⟩
    | none =>
        right
        obtain ⟨job, filter, made, chosen, ok⟩ := exists_job_of_run stopped
        obtain ⟨arguments, accepted, jobMade⟩ := job_eq_ok_iff.mp made
        refine ⟨arguments, accepted, ?_⟩
        have unchanged : (∀ output, arguments.order ≠ .clangd (.file output)) →
            (run words filterText disk).disk = disk := by
          intro noFile
          rw [run_of_job made chosen]
          exact Job.disk_run_of_noSave ok (Job.noSave_of_order jobMade noFile)
        split
        · next request order => exact unchanged (by simp [order])
        · next order => exact unchanged (by simp [order])
        · next output order =>
            obtain ⟨silent, okToo, written⟩ := written_of_run stopped accepted order
            refine ⟨silent, CommandLine.read_toStdout accepted order, ?_, written⟩
            rw [Ending.exitStatus, okToo]

/-- A disk on which the document of a project is a link to a longer file elsewhere. -/
def linkedDisk : Disk :=
  ⟨⟨[([Utf8.encode "p"], .directory),
    ([Utf8.encode "p", Utf8.encode "compiler_options.txt"], .file (Utf8.encode "-Wall\n")),
    ([Utf8.encode "p", Utf8.encode ".clangd"], .link (.ofText "../d/e")),
    ([Utf8.encode "d"], .directory),
    ([Utf8.encode "d", Utf8.encode "e"], .file (Utf8.encode "# What was written by hand.\n"))]⟩,
    [Utf8.encode "p"]⟩

/-- The run that saves the document goes through the link, and leaves nothing of the
file as it was. -/
theorem run_all_or_nothing_linked :
    (run [Utf8.encode "clangd"] none linkedDisk).stdout = "" ∧
      ∃ location, Disk.Written linkedDisk (run [Utf8.encode "clangd"] none linkedDisk).disk
        (.ofText "./.clangd") location
        (Utf8.encode "CompileFlags:\n  Add:\n    - -Wall\n") := by
  have ok : (run [Utf8.encode "clangd"] none linkedDisk).exitStatus = 0 := by cbv
  have read : CommandLine.read [Utf8.encode "clangd"] = .ok ⟨CommandLine.hereName,
      FlagFile.baseName, FlagFile.extraName, 0, .clangd (.file CommandLine.documentName)⟩ := by cbv
  have path : CommandLine.hereName.join CommandLine.documentName = .ofText "./.clangd" := by cbv
  have printed : (run (CommandLine.toStdout [Utf8.encode "clangd"]) none linkedDisk).stdout =
      "CompileFlags:\n  Add:\n    - -Wall\n" := by cbv
  rcases (run_all_or_nothing [Utf8.encode "clangd"] none linkedDisk).2 ok with
    ⟨helped, -⟩ | ⟨arguments, accepted, effect⟩
  · simp [read] at helped
  · obtain rfl := Except.ok.inj (accepted.symm.trans read)
    obtain ⟨silent, -, -, location, written⟩ := effect
    rw [path, printed] at written
    exact ⟨silent, location, written⟩

end Program

end EditorFlags
