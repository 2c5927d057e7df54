import EditorFlags.Proofs.Project
import Mathlib

/-!
# Four ways to the same flags

The flags of some files can be asked for with a request, as bare words, as the settings of
the extracted items, and from a project that is open. All of these rest on one extraction,
so they give the same flags or fail on the same file, whatever the request and the directory.
They differ in when the request is spoken of: before the extraction, or after it and then only
if it goes through. The words are the same, and each way speaks in its own name.
-/

namespace EditorFlags

namespace FlagFile

variable {read? : Path → Option Bytes}

theorem not_requested_of_items {path file : Path} {provider : Provider} :
    .settingsRequested provider file ∉ (items read? path).log := by
  intro said
  rcases Logged.mem_log_bind said with before | ⟨found, -, after⟩
  · cases before
  cases found with
  | none =>
      rcases Logged.mem_log_bind after with skipped | ⟨_, -, nothing⟩
      · simp [Logged.say] at skipped
      · cases nothing
  | some lines =>
      rcases Logged.mem_log_bind after with read | ⟨_, -, nothing⟩
      · simp [Logged.say] at read
      · cases nothing

/-- An extraction says nothing of requests. -/
theorem not_requested_of_extract {sources : List Path} {provider : Provider} {file : Path} :
    .settingsRequested provider file ∉ (extract read? sources).log := by
  induction sources with
  | nil => exact List.not_mem_nil
  | cons path rest ih =>
      intro said
      rcases Logged.mem_log_bind said with first | ⟨_, -, later⟩
      · exact not_requested_of_items first
      · exact ih later

theorem tokens_flatMap_ofLine (lines : List String) :
    Item.tokens (lines.flatMap Item.ofLine) = lines.flatMap Lines.words := by
  have ofLine (line : String) : (Item.ofLine line).filterMap Item.token? = Lines.words line := by
    simp [Item.ofLine, Item.token?, List.filterMap_map, Function.comp_def]
  induction lines with
  | nil => rfl
  | cons line lines ih =>
      rw [List.flatMap_cons, List.flatMap_cons, ← ih, ← ofLine, Item.tokens, Item.tokens,
        List.filterMap_append]

end FlagFile

namespace Settings

/-- The settings of a directory by way of a project that is opened for them. -/
def ofProject (read? : Path → Option Bytes) (workingDirectory directory : Path)
    (sources : List Path) (request : Request) : Logged Settings := do
  let project ← Logged.ofExcept (Project.openAt workingDirectory directory sources)
  let project ← project.extract read?
  project.settings request

variable {read? : Path → Option Bytes} {sources : List Path}

theorem flags_ofSources (request : Request) :
    flags <$> ofSources read? sources request =
      ⟨request.events .files ++ (FlagFile.extract read? sources).log,
        (FlagFile.extract read? sources).result.map Item.tokens⟩ := by
  have spoken : (Logged.sayAll (request.events .files)).result = .ok () := rfl
  rw [ofSources, Logged.bind_of_ok spoken]
  cases extracted : (FlagFile.extract read? sources).result with
  | error failure => rw [Logged.bind_of_error extracted]; rfl
  | ok items =>
      rw [Logged.bind_of_ok extracted]
      simp [Functor.map, Logged.map, Except.map, pure, ofItems, Logged.sayAll]

/-- What the settings of a project say and give, once its files are extracted. -/
theorem flags_settings (project : Project) (request : Request) :
    flags <$> project.settings request =
      ⟨request.events .project, .ok (Item.tokens project.items)⟩ := by
  have spoken : (Logged.sayAll (request.events .project)).result = .ok () := rfl
  rw [Project.settings, Logged.bind_of_ok spoken]
  simp [Functor.map, Logged.map, Except.map, pure, ofItems, Logged.sayAll]

theorem flags_ofProject {workingDirectory directory : Path} (named : directory.bytes ≠ [])
    (request : Request) :
    flags <$> ofProject read? workingDirectory directory sources request =
      ⟨(FlagFile.extract read? sources).log ++
          match (FlagFile.extract read? sources).result with
          | .ok _ => request.events .project
          | .error _ => [],
        (FlagFile.extract read? sources).result.map Item.tokens⟩ := by
  obtain ⟨base, made⟩ := Option.isSome_iff_exists.mp (Path.isSome_absolute? workingDirectory named)
  have opened : Project.openAt workingDirectory directory sources = .ok ⟨base, sources, []⟩ :=
    Project.openAt_eq_ok_iff.mpr ⟨base, made, rfl⟩
  have start : (Logged.ofExcept (Project.openAt workingDirectory directory sources)).result =
      .ok ⟨base, sources, []⟩ := opened
  rw [ofProject, Logged.bind_of_ok start]
  cases extracted : (FlagFile.extract read? sources).result with
  | error failure =>
      have stopped : ((⟨base, sources, []⟩ : Project).extract read?).result = .error failure := by
        rw [Project.result_extract_project, extracted]
        rfl
      rw [Logged.bind_of_error stopped, Project.extract, Logged.bind_of_error extracted]
      simp [Functor.map, Logged.map, Except.map, Logged.ofExcept]
  | ok items =>
      have read : ((⟨base, sources, []⟩ : Project).extract read?).result =
          .ok ⟨base, sources, items⟩ := by
        rw [Project.result_extract_project, extracted]
        rfl
      have settled := flags_settings ⟨base, sources, items⟩ request
      rw [Logged.bind_of_ok read, Project.extract, Logged.bind_of_ok extracted]
      simp only [Functor.map, Logged.map, Except.map, Logged.mk.injEq] at settled
      simp [Functor.map, Logged.map, Except.map, Logged.ofExcept, pure, settled]

/-- **All ways give the same flags.** What there is to give depends on the files alone: their
words, or the path of one that is no text. Every way gives it, and they say the same but for the
request, of which the first way speaks first and a project last, in the same words. -/
theorem ways_agree (read? : Path → Option Bytes) (workingDirectory : Path) (sources : List Path) :
    ∃ (log : List Event) (outcome : Except Path (List String)),
      (∀ provider file, .settingsRequested provider file ∉ log) ∧
      (match outcome with
        | .ok flags => flags = (FlagFile.sourceLines read? sources).flatMap Lines.words
        | .error path => path ∈ sources ∧
            ∃ bytes, read? path = some bytes ∧ Utf8.decode? bytes = none) ∧
      ∀ (request : Request) (directory : Path), directory.bytes ≠ [] →
        let requested (provider : Provider) :=
          request.filename.toList.map (Event.settingsRequested provider)
        let given := outcome.mapError Failure.unreadable
        flags <$> ofSources read? sources request = ⟨requested .files ++ log, given⟩ ∧
        FlagFile.extractTokens read? sources = ⟨log, given⟩ ∧
        (fun items => (ofItems items).flags) <$> FlagFile.extract read? sources = ⟨log, given⟩ ∧
        flags <$> ofProject read? workingDirectory directory sources request =
          ⟨log ++ (if outcome.isOk then requested .project else []), given⟩ ∧
        (requested .project).map Event.message = (requested .files).map Event.message := by
  have sameWords (request : Request) :
      (request.events .project).map Event.message = (request.events .files).map Event.message := by
    rw [Request.events, Request.events, List.map_map, List.map_map]
    exact List.map_congr_left fun file _ => rfl
  have bare : FlagFile.extractTokens read? sources =
      ⟨(FlagFile.extract read? sources).log,
        (FlagFile.extract read? sources).result.map Item.tokens⟩ := rfl
  have ofStream : (fun items => (ofItems items).flags) <$> FlagFile.extract read? sources =
      FlagFile.extractTokens read? sources := rfl
  refine ⟨(FlagFile.extract read? sources).log, ?_⟩
  cases extracted : (FlagFile.extract read? sources).result with
  | error failure =>
      obtain ⟨path, member, rfl, unreadable⟩ := FlagFile.exists_of_extract_error extracted
      refine ⟨.error path, fun provider file => FlagFile.not_requested_of_extract,
        ⟨member, unreadable⟩, ?_⟩
      intro request directory named
      rw [ofStream, bare, flags_ofSources, flags_ofProject named, extracted]
      exact ⟨rfl, rfl, rfl, rfl, sameWords request⟩
  | ok items =>
      refine ⟨.ok (Item.tokens items), fun provider file => FlagFile.not_requested_of_extract,
        ?_, ?_⟩
      · obtain ⟨-, rfl⟩ := FlagFile.result_extract_eq_ok_iff.mp extracted
        exact FlagFile.tokens_flatMap_ofLine _
      intro request directory named
      rw [ofStream, bare, flags_ofSources, flags_ofProject named, extracted]
      exact ⟨rfl, rfl, rfl, rfl, sameWords request⟩

/-- A disk with two flag files, of which the second is no text. -/
def tornDisk : Disk :=
  ⟨⟨[([Utf8.encode "first"], .file (Utf8.encode "-Wall -g\n")),
    ([Utf8.encode "second"], .file [0xFF])]⟩, []⟩

/-- With the second file no way gives flags, and only the way that starts with the request speaks
of it. Without it all ways give the flags of the first, and a file that is not there takes nothing
from them. -/
theorem ways_agree_tornDisk :
    let request : Request := ⟨some (.ofText "main.c")⟩
    let torn : List Path := [.ofText "/first", .ofText "/second"]
    let whole : List Path := [.ofText "/first", .ofText "/third"]
    let said : List Event := [.readLines 1 (.ofText "/first"), .skippedMissing (.ofText "/third")]
    (Path.ofText "p").bytes ≠ [] ∧
      flags <$> ofSources tornDisk.read? torn request =
        ⟨[.settingsRequested .files (.ofText "main.c"), .readLines 1 (.ofText "/first")],
          .error (.unreadable (.ofText "/second"))⟩ ∧
      flags <$> ofProject tornDisk.read? (.ofText "/") (.ofText "p") torn request =
        ⟨[.readLines 1 (.ofText "/first")], .error (.unreadable (.ofText "/second"))⟩ ∧
      flags <$> ofSources tornDisk.read? whole request =
        ⟨.settingsRequested .files (.ofText "main.c") :: said, .ok ["-Wall", "-g"]⟩ ∧
      FlagFile.extractTokens tornDisk.read? whole = ⟨said, .ok ["-Wall", "-g"]⟩ ∧
      (fun items => (ofItems items).flags) <$> FlagFile.extract tornDisk.read? whole =
        ⟨said, .ok ["-Wall", "-g"]⟩ ∧
      flags <$> ofProject tornDisk.read? (.ofText "/") (.ofText "p") whole request =
        ⟨said ++ [.settingsRequested .project (.ofText "main.c")], .ok ["-Wall", "-g"]⟩ := by
  intro request torn whole said
  have named : (Path.ofText "p").bytes ≠ [] := by decide
  have fails : FlagFile.extractTokens tornDisk.read? torn =
      ⟨[.readLines 1 (.ofText "/first")], .error (.unreadable (.ofText "/second"))⟩ := by cbv
  have found : FlagFile.extractTokens tornDisk.read? whole = ⟨said, .ok ["-Wall", "-g"]⟩ := by cbv
  obtain ⟨log, outcome, -, -, ways⟩ := ways_agree tornDisk.read? (.ofText "/") torn
  obtain ⟨asked, bare, -, opened, -⟩ := ways request (.ofText "p") named
  obtain ⟨logToo, outcomeToo, -, -, waysToo⟩ := ways_agree tornDisk.read? (.ofText "/") whole
  obtain ⟨askedToo, bareToo, ofStream, openedToo, -⟩ := waysToo request (.ofText "p") named
  rw [fails, Logged.mk.injEq] at bare
  rw [found, Logged.mk.injEq] at bareToo
  obtain ⟨rfl, given⟩ := bare
  obtain ⟨rfl, givenToo⟩ := bareToo
  cases outcome with
  | ok flags => cases given
  | error path =>
      cases outcomeToo with
      | error path => cases givenToo
      | ok flags =>
          rw [← given] at asked opened
          rw [← givenToo] at askedToo ofStream openedToo
          exact ⟨named, asked, opened, askedToo, found, ofStream, openedToo⟩

end Settings

end EditorFlags
