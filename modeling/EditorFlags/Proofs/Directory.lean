import EditorFlags.Program
import EditorFlags.Proofs.Clangd.Entry
import EditorFlags.Proofs.CommandLine.Respelled
import EditorFlags.Proofs.FileTree.Seated
import EditorFlags.Proofs.Project
import Mathlib

/-!
# How the project directory is spelled

A run uses the directory of its project in two ways: the paths of files are looked up in it,
and include paths are resolved against its absolute form. Neither tells two spellings apart
that have the same components once they are absolute. So command lines that differ in nothing
else end alike, and what they say is the same but for the paths of files, which are told as they
are spelled (`Program.run_respelled`).
-/

namespace EditorFlags

variable {α β γ δ : Type} {directory other : Path}

/-! ## What is spelled differently -/

/-- Two events that are the same but for a path, which is looked up in one directory or in the
other. -/
inductive Event.Respelled (directory other : Path) : Event → Event → Prop where
  | same (event : Event) : Respelled directory other event event
  | skippedMissing (path : Path) :
      Respelled directory other (.skippedMissing (directory.join path))
        (.skippedMissing (other.join path))
  | readLines (count : Nat) (path : Path) :
      Respelled directory other (.readLines count (directory.join path))
        (.readLines count (other.join path))
  | wroteBytes (count : Nat) (path : Path) :
      Respelled directory other (.wroteBytes count (directory.join path))
        (.wroteBytes count (other.join path))

/-- Two failures that are. -/
inductive Failure.Respelled (directory other : Path) : Failure → Failure → Prop where
  | same (failure : Failure) : Respelled directory other failure failure
  | unreadable (path : Path) :
      Respelled directory other (.unreadable (directory.join path))
        (.unreadable (other.join path))
  | unwritable (path : Path) (fault : FileTree.Fault) :
      Respelled directory other (.unwritable (directory.join path) fault)
        (.unwritable (other.join path) fault)

/-- Two computations that have come to related values or to such failures, and that have said
the same but for such paths. -/
structure Logged.Respelled (directory other : Path) (related : α → β → Prop) (first : Logged α)
    (second : Logged β) : Prop where
  log : List.Forall₂ (Event.Respelled directory other) first.log second.log
  result : Ends (Failure.Respelled directory other) related first.result second.result

theorem Event.Respelled.forall₂_same (events : List Event) :
    List.Forall₂ (Event.Respelled directory other) events events :=
  List.forall₂_same.mpr fun event _ => .same event

namespace Logged.Respelled

theorem pure {related : α → β → Prop} {value : α} {valueToo : β} (values : related value valueToo) :
    Respelled directory other related (Pure.pure value) (Pure.pure valueToo) :=
  ⟨.nil, .ok values⟩

theorem refl (logged : Logged α) : Respelled directory other Eq logged logged := by
  refine ⟨Event.Respelled.forall₂_same logged.log, ?_⟩
  cases logged.result with
  | ok value => exact .ok rfl
  | error failure => exact .error (.same failure)

theorem say {event eventToo : Event} (events : Event.Respelled directory other event eventToo) :
    Respelled directory other Eq (Logged.say event) (Logged.say eventToo) :=
  ⟨.cons events .nil, .ok rfl⟩

theorem map {related : α → β → Prop} {relatedToo : γ → δ → Prop} {first : Logged α}
    {second : Logged β} {f : α → γ} {g : β → δ}
    (respelled : Respelled directory other related first second)
    (later : ∀ value valueToo, related value valueToo → relatedToo (f value) (g valueToo)) :
    Respelled directory other relatedToo (f <$> first) (g <$> second) := by
  refine ⟨respelled.log, ?_⟩
  rw [result_map, result_map]
  exact respelled.result.map later

theorem bind {related : α → β → Prop} {relatedToo : γ → δ → Prop} {first : Logged α}
    {second : Logged β} {next : α → Logged γ} {nextToo : β → Logged δ}
    (respelled : Respelled directory other related first second)
    (later : ∀ value valueToo, related value valueToo →
      Respelled directory other relatedToo (next value) (nextToo valueToo)) :
    Respelled directory other relatedToo (first >>= next) (second >>= nextToo) := by
  obtain ⟨log, result⟩ := respelled
  generalize ended : first.result = one, endedToo : second.result = two at result
  cases result with
  | error failures =>
      rw [bind_of_error ended, bind_of_error endedToo]
      exact ⟨log, .error failures⟩
  | ok values =>
      rw [bind_of_ok ended, bind_of_ok endedToo]
      have rest := later _ _ values
      exact ⟨List.rel_append log rest.log, rest.result⟩

end Logged.Respelled

/-! ## Flag files -/

namespace FlagFile

theorem respelled_items {read? : Path → Option Bytes} {path : Path}
    (same : read? (directory.join path) = read? (other.join path)) :
    Logged.Respelled directory other Eq (items read? (directory.join path))
      (items read? (other.join path)) := by
  have found : Logged.Respelled directory other Eq
      (Logged.ofExcept (lines? read? (directory.join path)))
      (Logged.ofExcept (lines? read? (other.join path))) := by
    refine ⟨.nil, ?_⟩
    show Ends (Failure.Respelled directory other) Eq (lines? read? (directory.join path))
      (lines? read? (other.join path))
    unfold lines?
    rw [same]
    cases read? (other.join path) with
    | none => exact .ok rfl
    | some bytes =>
        dsimp only
        cases Utf8.decode? bytes with
        | none => exact .error (.unreadable path)
        | some text => exact .ok rfl
  refine found.bind ?_
  rintro lines _ rfl
  cases lines with
  | none => exact (Logged.Respelled.say (.skippedMissing path)).bind fun _ _ _ => .pure rfl
  | some lines =>
      exact (Logged.Respelled.say (.readLines lines.length path)).bind fun _ _ _ => .pure rfl

theorem respelled_extract {read? : Path → Option Bytes} {paths : List Path}
    (same : ∀ path ∈ paths, read? (directory.join path) = read? (other.join path)) :
    Logged.Respelled directory other Eq (extract read? (paths.map directory.join))
      (extract read? (paths.map other.join)) := by
  induction paths with
  | nil => exact .pure rfl
  | cons path rest ih =>
      obtain ⟨first, others⟩ := List.forall_mem_cons.mp same
      rw [List.map_cons, List.map_cons, extract, extract]
      refine (respelled_items first).bind ?_
      rintro items _ rfl
      refine (ih others).map ?_
      rintro more _ rfl
      rfl

end FlagFile

/-! ## Documents -/

namespace Clangd

variable {base baseToo : Path}

/-- That relative paths are resolved alike against two bases. -/
def ResolvesAlike (base baseToo : Path) : Prop :=
  ∀ path : Path, path.isAbsolute = false → base.resolve path = baseToo.resolve path

theorem Entry.add_congr (alike : ResolvesAlike base baseToo) (entry : Entry) (token : String) :
    entry.add base token = entry.add baseToo token := by
  unfold add
  split
  · next resolves =>
      have relative := Path.isAbsolute_ofText_of_dot (resolves_iff.mp resolves).2
      rw [alike _ relative]
  · rfl

theorem Writer.pushAll_congr (alike : ResolvesAlike base baseToo) (sink : Sink) (entry : Entry)
    (items : List Item) :
    (Writer.mk base sink entry).pushAll items = (Writer.mk baseToo sink entry).pushAll items := by
  induction items generalizing sink entry with
  | nil => rfl
  | cons item rest ih =>
      cases item with
      | token token =>
          simp only [pushAll, push, Entry.add_congr alike entry token, ih]
      | endOfLine =>
          simp only [pushAll, push]
          cases sink.write (Utf8.encode entry.line) with
          | mk sink result =>
              cases result with
              | error fault => rfl
              | ok => simp only [ih]

/-- Bases against which paths are resolved alike make the same documents. -/
theorem render_congr (alike : ResolvesAlike base baseToo) (items : List Item) :
    render base items = render baseToo items := by
  have written : write base items .unlimited = write baseToo items .unlimited := by
    unfold write Writer.start
    dsimp only
    cases Sink.unlimited.write (Utf8.encode header) with
    | mk sink result =>
        cases result with
        | error fault => rfl
        | ok => exact Writer.pushAll_congr alike sink .empty items
  unfold render
  rw [written]

end Clangd

/-! ## Jobs -/

/-- That a disk does not tell apart from which of two directories a path is looked up. -/
def Disk.SeesAlike (disk : Disk) (directory other path : Path) : Prop :=
  ∀ purpose, disk.locate purpose (directory.join path) = disk.locate purpose (other.join path)

/-- Two goals that are the same but for the directory in which a document is saved. -/
inductive Goal.Respelled (disk : Disk) (directory other : Path) : Goal → Goal → Prop where
  | settings (request : Request) :
      Respelled disk directory other (.settings request) (.settings request)
  | printDocument : Respelled disk directory other .printDocument .printDocument
  | saveDocument {path : Path} (alike : disk.SeesAlike directory other path) :
      Respelled disk directory other (.saveDocument (directory.join path))
        (.saveDocument (other.join path))

/-- Two jobs that are the same but for their directories. -/
structure Job.Respelled (disk : Disk) (directory other : Path) (job jobToo : Job) : Prop where
  inDirectory : job.directory = directory
  inOther : jobToo.directory = other
  sources : ∃ paths : List Path, job.sources = paths.map directory.join ∧
    jobToo.sources = paths.map other.join ∧ ∀ path ∈ paths, disk.SeesAlike directory other path
  goal : job.goal.Respelled disk directory other jobToo.goal
  verbose : jobToo.verbose = job.verbose

/-- Two reports that are the same but for paths in the directories. -/
structure Report.Respelled (directory other : Path) (report reportToo : Report) : Prop where
  log : List.Forall₂ (Event.Respelled directory other) report.log reportToo.log
  stdout : reportToo.stdout = report.stdout
  disk : reportToo.disk = report.disk
  result : Ends (Failure.Respelled directory other) Eq report.result reportToo.result

/-- Two last steps that are. -/
inductive Delivery.Respelled (disk : Disk) (directory other : Path) :
    Delivery → Delivery → Prop where
  | print (text : String) : Respelled disk directory other (.print text) (.print text)
  | save {path : Path} (alike : disk.SeesAlike directory other path) (text : String) :
      Respelled disk directory other (.save (directory.join path) text)
        (.save (other.join path) text)

variable {disk : Disk}

theorem Disk.respelled_save {path : Path} (alike : disk.SeesAlike directory other path)
    (text : String) :
    Logged.Respelled directory other Eq (disk.save (directory.join path) text)
      (disk.save (other.join path) text) := by
  unfold Disk.save
  simp only [Disk.write_congr (alike .make)]
  cases disk.write (other.join path) (Utf8.encode text) with
  | error fault => exact ⟨.nil, .error (.unwritable path fault)⟩
  | ok after => exact ⟨.cons (.wroteBytes _ path) .nil, .ok rfl⟩

namespace Job.Respelled

variable {job jobToo : Job} {base baseToo : Path}

theorem prepare (respelled : Job.Respelled disk directory other job jobToo)
    (made : Path.absolute? disk.workingDirectory.path directory = some base)
    (madeToo : Path.absolute? disk.workingDirectory.path other = some baseToo)
    (alike : Clangd.ResolvesAlike base baseToo) :
    Logged.Respelled directory other (Delivery.Respelled disk directory other)
      (job.prepare disk.workingDirectory.path disk.read?)
      (jobToo.prepare disk.workingDirectory.path disk.read?) := by
  obtain ⟨paths, sources, sourcesToo, seenAlike⟩ := respelled.sources
  let related (project projectToo : Project) : Prop :=
    ∃ items, project = ⟨base, paths.map directory.join, items⟩ ∧
      projectToo = ⟨baseToo, paths.map other.join, items⟩
  have opened : Logged.Respelled directory other related
      (Logged.ofExcept (Project.openAt disk.workingDirectory.path job.directory job.sources))
      (Logged.ofExcept
        (Project.openAt disk.workingDirectory.path jobToo.directory jobToo.sources)) := by
    rw [respelled.inDirectory, respelled.inOther, sources, sourcesToo,
      Project.openAt_eq_ok_iff.mpr ⟨base, made, rfl⟩,
      Project.openAt_eq_ok_iff.mpr ⟨baseToo, madeToo, rfl⟩]
    exact ⟨.nil, .ok ⟨[], rfl, rfl⟩⟩
  refine opened.bind ?_
  rintro _ _ ⟨-, rfl, rfl⟩
  have extracted : Logged.Respelled directory other related
      (Project.extract disk.read? ⟨base, paths.map directory.join, []⟩)
      (Project.extract disk.read? ⟨baseToo, paths.map other.join, []⟩) := by
    refine (FlagFile.respelled_extract fun path member =>
      Disk.read?_congr (seenAlike path member .find)).bind ?_
    rintro items _ rfl
    exact .pure ⟨items, rfl, rfl⟩
  refine extracted.bind ?_
  rintro _ _ ⟨items, rfl, rfl⟩
  have document : Logged.Respelled directory other Eq
      (Project.document ⟨base, paths.map directory.join, items⟩)
      (Project.document ⟨baseToo, paths.map other.join, items⟩) := by
    have same : Project.document ⟨baseToo, paths.map other.join, items⟩ =
        Project.document ⟨base, paths.map directory.join, items⟩ :=
      (Clangd.render_congr alike items).symm
    rw [same]
    exact .refl _
  have goals := respelled.goal
  generalize job.goal = goal, jobToo.goal = goalToo at goals
  cases goals with
  | settings request =>
      refine (Logged.Respelled.refl _).bind ?_
      rintro settings _ rfl
      exact (Logged.Respelled.say (.same _)).bind fun _ _ _ => .pure (.print _)
  | printDocument =>
      refine document.bind ?_
      rintro text _ rfl
      exact .pure (.print text)
  | saveDocument alikeToo =>
      refine document.bind ?_
      rintro text _ rfl
      exact .pure (.save alikeToo text)

theorem run (respelled : Job.Respelled disk directory other job jobToo)
    (made : Path.absolute? disk.workingDirectory.path directory = some base)
    (madeToo : Path.absolute? disk.workingDirectory.path other = some baseToo)
    (alike : Clangd.ResolvesAlike base baseToo) :
    Report.Respelled directory other (job.run disk) (jobToo.run disk) := by
  obtain ⟨log, result⟩ := respelled.prepare made madeToo alike
  unfold Job.run
  generalize job.prepare disk.workingDirectory.path disk.read? = prepared,
    jobToo.prepare disk.workingDirectory.path disk.read? = preparedToo at log result
  obtain ⟨said, ended⟩ := prepared
  obtain ⟨saidToo, endedToo⟩ := preparedToo
  dsimp only at log result ⊢
  cases result with
  | error failures => exact ⟨log, rfl, rfl, .error failures⟩
  | ok values =>
      cases values with
      | print text => exact ⟨log, rfl, rfl, .ok rfl⟩
      | @save path alikeToo text =>
          obtain ⟨logSaved, saved⟩ := Disk.respelled_save alikeToo text
          dsimp only
          generalize disk.save (directory.join path) text = written,
            disk.save (other.join path) text = writtenToo at logSaved saved ⊢
          obtain ⟨saidSaving, endedSaving⟩ := written
          obtain ⟨saidSavingToo, endedSavingToo⟩ := writtenToo
          dsimp only at logSaved saved ⊢
          have whole := List.rel_append log logSaved
          cases saved with
          | error failures => exact ⟨whole, rfl, rfl, .error failures⟩
          | ok same => exact ⟨whole, rfl, same.symm, .ok rfl⟩

end Job.Respelled

/-! ## What is shown -/

theorem Filter.shows_congr (filter : Filter) {event eventToo : Event}
    (respelled : Event.Respelled directory other event eventToo) :
    filter.shows event = filter.shows eventToo := by
  have level : event.level = eventToo.level := by cases respelled <;> rfl
  have speaker : event.speaker = eventToo.speaker := by cases respelled <;> rfl
  unfold shows Directive.applies Directive.admits
  rw [level, speaker]

theorem Filter.respelled_apply (filter : Filter) {events eventsToo : List Event}
    (respelled : List.Forall₂ (Event.Respelled directory other) events eventsToo) :
    List.Forall₂ (Event.Respelled directory other) (filter.apply events)
      (filter.apply eventsToo) := by
  refine List.rel_filter ?_ respelled
  intro event eventToo same
  simp only [filter.shows_congr same]

/-! ## Arguments -/

/-- What the goal of a command is in two directories; only a request can be none. -/
theorem Job.goalOf_cases (disk : Disk) (directory other : Path) (order : CommandLine.Order)
    (alike : ∀ output, order = .clangd (.file output) → disk.SeesAlike directory other output) :
    (∃ failure, goalOf directory order = .error failure ∧ goalOf other order = .error failure) ∨
      ∃ goal goalToo, goalOf directory order = .ok goal ∧ goalOf other order = .ok goalToo ∧
        goal.Respelled disk directory other goalToo := by
  cases order with
  | settings request =>
      cases request with
      | none => exact .inr ⟨_, _, rfl, rfl, .settings .anyFile⟩
      | some text =>
          cases read : Request.ofJson text with
          | error fault =>
              exact .inl ⟨.invalidRequest fault, by simp [goalOf, read], by simp [goalOf, read]⟩
          | ok request =>
              exact .inr ⟨_, _, by simp [goalOf, read], by simp [goalOf, read], .settings request⟩
  | clangd target =>
      cases target with
      | stdout => exact .inr ⟨_, _, rfl, rfl, .printDocument⟩
      | file output => exact .inr ⟨_, _, rfl, rfl, .saveDocument (alike output rfl)⟩

/-- Arguments that are the same but for the directory ask for jobs that are, or for none. -/
theorem Job.ofArguments_cases {arguments : CommandLine.Arguments}
    (alike : ∀ path ∈ arguments.paths, disk.SeesAlike arguments.dir other path) :
    (∃ failure, ofArguments arguments = .error failure ∧
      ofArguments { arguments with dir := other } = .error failure) ∨
    ∃ job jobToo, ofArguments arguments = .ok job ∧
      ofArguments { arguments with dir := other } = .ok jobToo ∧
      Job.Respelled disk arguments.dir other job jobToo := by
  have alikeOutput : ∀ output, arguments.order = .clangd (.file output) →
      disk.SeesAlike arguments.dir other output := by
    intro output order
    exact alike output (by simp [CommandLine.Arguments.paths, order])
  rcases goalOf_cases disk arguments.dir other arguments.order alikeOutput with
    ⟨failure, none, noneToo⟩ | ⟨goal, goalToo, found, foundToo, respelled⟩
  · exact .inl ⟨failure, by simp [ofArguments, none], by simp [ofArguments, noneToo]⟩
  · have sources : ∀ path ∈ [arguments.base, arguments.extra],
        disk.SeesAlike arguments.dir other path := fun path member =>
      alike path (List.mem_append_left _ member)
    unfold ofArguments
    simp only [found, foundToo]
    exact .inr ⟨_, _, rfl, rfl, rfl, rfl, ⟨_, rfl, rfl, sources⟩, respelled, rfl⟩

/-! ## Runs -/

/-- Two ways to stop short, or not to, that are the same but for a path. -/
inductive Stop.Respelled (directory other : Path) : Option Stop → Option Stop → Prop where
  | same (stop : Option Stop) : Respelled directory other stop stop
  | failed {failure failureToo : Failure}
      (failures : failure.Respelled directory other failureToo) :
      Respelled directory other (some (.failed failure)) (some (.failed failureToo))

/-- Two endings that are the same but for paths in the directories. -/
structure Ending.Respelled (directory other : Path) (ending endingToo : Ending) : Prop where
  exitStatus : endingToo.exitStatus = ending.exitStatus
  stdout : endingToo.stdout = ending.stdout
  disk : endingToo.disk = ending.disk
  log : List.Forall₂ (Event.Respelled directory other) ending.log endingToo.log
  stop : Stop.Respelled directory other ending.stop endingToo.stop

theorem Program.respelled_finish (filter : Filter) {report reportToo : Report}
    (respelled : report.Respelled directory other reportToo) :
    Ending.Respelled directory other (finish filter report) (finish filter reportToo) := by
  obtain ⟨log, stdout, disk, result⟩ := respelled
  obtain ⟨said, printed, left, ended⟩ := report
  obtain ⟨saidToo, printedToo, leftToo, endedToo⟩ := reportToo
  have shown := filter.respelled_apply log
  cases result with
  | ok same => exact ⟨rfl, stdout, disk, shown, .same none⟩
  | error failures => exact ⟨rfl, stdout, disk, shown, .failed failures⟩

namespace Program

theorem respelled_refl (ending : Ending) : Ending.Respelled directory other ending ending :=
  ⟨rfl, rfl, rfl, Event.Respelled.forall₂_same ending.log, .same _⟩

theorem answer_congr {words wordsToo : List Bytes}
    (same : CommandLine.Help.answer wordsToo = CommandLine.Help.answer words) :
    answer wordsToo = answer words := by
  funext stop
  unfold answer
  rw [same]

/-- Command lines that are read alike but for the directory, and ask for the same help, have the
same runs, whatever words they consist of. -/
theorem run_of_read {disk : Disk} (seated : disk.Seated) {words wordsToo : List Bytes}
    (readAlike : Ends Eq (CommandLine.Arguments.Respelled directory other)
      (CommandLine.read words) (CommandLine.read wordsToo))
    (help : CommandLine.Help.answer wordsToo = CommandLine.Help.answer words)
    (same : (Path.absolute? disk.workingDirectory.path directory).map Path.components =
      (Path.absolute? disk.workingDirectory.path other).map Path.components)
    (fits : ∀ arguments, CommandLine.read words = .ok arguments → ∀ path ∈ arguments.paths,
      (directory.join path).bytes.length ≤ FileTree.pathLimit ∧
        (other.join path).bytes.length ≤ FileTree.pathLimit) (filterText : Option String) :
    Ending.Respelled directory other (run words filterText disk)
      (run wordsToo filterText disk) := by
  unfold run job
  rw [answer_congr help]
  generalize read : CommandLine.read words = first,
    readToo : CommandLine.read wordsToo = second at readAlike
  cases readAlike with
  | error refusals =>
      subst refusals
      exact respelled_refl _
  | @ok arguments _ values =>
      cases values with
      | same => exact respelled_refl _
      | dir own =>
          subst own
          obtain ⟨named, pathsNamed⟩ := CommandLine.named_of_read read
          obtain ⟨namedToo, -⟩ := CommandLine.named_of_read readToo
          obtain ⟨base, made⟩ :=
            Option.isSome_iff_exists.mp (Path.isSome_absolute? disk.workingDirectory.path named)
          obtain ⟨baseToo, madeToo⟩ :=
            Option.isSome_iff_exists.mp (Path.isSome_absolute? disk.workingDirectory.path namedToo)
          have sameMoves : base.moves = baseToo.moves := by
            rw [made, madeToo] at same
            rw [Path.moves_eq_map_components, Option.some.inj same,
              ← Path.moves_eq_map_components]
          have alike : ∀ path ∈ arguments.paths, disk.SeesAlike arguments.dir other path := by
            intro path member purpose
            obtain ⟨fitsFirst, fitsSecond⟩ := fits arguments read path member
            refine seated.locate_congr ?_ (pathsNamed path member) fitsFirst fitsSecond
            rw [← Path.moves_of_absolute? made, ← Path.moves_of_absolute? madeToo, sameMoves]
          have resolved : Clangd.ResolvesAlike base baseToo := fun path =>
            Path.resolve_congr (Path.isAbsolute_of_absolute? (Location.isAbsolute_path _) made)
              (Path.isAbsolute_of_absolute? (Location.isAbsolute_path _) madeToo) sameMoves
          dsimp only
          obtain ⟨failure, none, noneToo⟩ | ⟨job, jobToo, asked, askedToo, respelled⟩ :=
            Job.ofArguments_cases alike
          · rw [none, noneToo]
            exact respelled_refl _
          · rw [asked, askedToo]
            dsimp only
            rw [respelled.verbose]
            cases Filter.choose filterText job.verbose with
            | none => exact respelled_refl _
            | some filter => exact respelled_finish filter (respelled.run made madeToo resolved)

/-- **The spelling of the project directory does not matter.** Two command lines that are the
same but for the directory end alike if their directories have the same components once they
are absolute: with the same exit status, the same output and the same files. -/
theorem run_respelled {disk : Disk} (seated : disk.Seated) {directory other : Path}
    (named : directory.bytes ≠ []) (namedToo : other.bytes ≠ []) {words wordsToo : List Bytes}
    (respelled : CommandLine.Respelled directory other words wordsToo)
    (same : (Path.absolute? disk.workingDirectory.path directory).map Path.components =
      (Path.absolute? disk.workingDirectory.path other).map Path.components)
    (fits : ∀ arguments, CommandLine.read words = .ok arguments → ∀ path ∈ arguments.paths,
      (directory.join path).bytes.length ≤ FileTree.pathLimit ∧
        (other.join path).bytes.length ≤ FileTree.pathLimit) (filterText : Option String) :
    Ending.Respelled directory other (run words filterText disk)
      (run wordsToo filterText disk) :=
  run_of_read seated (CommandLine.read_respelled named namedToo respelled)
    (respelled.answer_eq named namedToo) same fits filterText

/-- A disk with a project in the directory below the working directory. -/
def nestedDisk : Disk :=
  ⟨⟨[([Utf8.encode "p"], .directory),
    ([Utf8.encode "p", Utf8.encode "d"], .directory),
    ([Utf8.encode "p", Utf8.encode "d", Utf8.encode "compiler_options.txt"],
      .file (Utf8.encode "-I ./x\n"))]⟩, [Utf8.encode "p"]⟩

/-- The words that ask for the document of a directory. -/
def printing (directory : String) : List Bytes :=
  [Utf8.encode ("-C" ++ directory), Utf8.encode "clangd", Utf8.encode "--stdout"]

/-- The project is the same from the working directory and from the root. -/
theorem run_respelled_nested :
    (run (printing "d//.") none nestedDisk).stdout = "CompileFlags:\n  Add:\n    - -I/p/d/x\n" ∧
      (run (printing "/p/d/") none nestedDisk).stdout =
        "CompileFlags:\n  Add:\n    - -I/p/d/x\n" := by
  have seated : nestedDisk.Seated := by
    refine ⟨?_, ?_, ?_, ?_⟩
    · intro location front
      rcases List.prefix_cons_iff.mp front with rfl | ⟨rest, rfl, none⟩
      · rfl
      · obtain rfl := List.prefix_nil.mp none
        cbv
    · exact List.forall_mem_singleton.mpr ⟨by decide, by decide, by decide⟩
    · exact List.forall_mem_singleton.mpr (by decide)
    · exact List.forall_mem_singleton.mpr (by decide)
  have respelled : CommandLine.Respelled (.ofText "d//.") (.ofText "/p/d/") (printing "d//.")
      (printing "/p/d/") := by
    have said {directory : String} (parts : directory = "d//." ∨ directory = "/p/d/")
        (place : Option CommandLine.Command) :
        CommandLine.wordMentions? place (Utf8.encode ("-C" ++ directory)) =
          some ([] ++ [.value .dir (Path.ofText directory).bytes], none) := by
      rcases parts with rfl | rfl <;> rcases place with _ | _ | _ <;> cbv
    exact .joined (said (.inl rfl)) (said (.inr rfl)) (.same _ (.same _ .nil))
  have read : CommandLine.read (printing "d//.") = .ok ⟨.ofText "d//.",
      FlagFile.baseName, FlagFile.extraName, 0, .clangd .stdout⟩ := by cbv
  have fits : ∀ arguments, CommandLine.read (printing "d//.") = .ok arguments →
      ∀ path ∈ arguments.paths,
        ((Path.ofText "d//.").join path).bytes.length ≤ FileTree.pathLimit ∧
          ((Path.ofText "/p/d/").join path).bytes.length ≤ FileTree.pathLimit := by
    intro arguments accepted
    obtain rfl := Except.ok.inj (read.symm.trans accepted)
    decide
  have printed : (run (printing "d//.") none nestedDisk).stdout =
      "CompileFlags:\n  Add:\n    - -I/p/d/x\n" := by
    rw [run, job, read]
    cbv
  have ending := run_respelled seated (by decide) (by decide) respelled (by cbv) fits none
  exact ⟨printed, ending.stdout.trans printed⟩

end Program

end EditorFlags
