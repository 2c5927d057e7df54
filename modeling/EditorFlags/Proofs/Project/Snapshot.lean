import EditorFlags.Project.Session
import EditorFlags.Proofs.Project
import Mathlib

/-!
# An open project answers from a snapshot

The items of an open project are those that its flag files had when they were last
extracted with success, and its base is the one that it was opened with. Whatever
else happens, in the session or to the disk by other hands, changes neither
(`Snapshot.follow`), not even when the session overwrites its own flag files. So
every answer is one about that moment.
-/

namespace EditorFlags

namespace Session

/-- What can happen while a project is open: the session takes one of its actions,
or others leave any other disk behind. -/
inductive Happening where
  | act (action : Action)
  | elsewhere (disk : Disk)

/-- The session after something has happened. -/
def follow (session : Session) : Happening → Session
  | .act action => (session.step action).2
  | .elsewhere disk => { session with disk := disk }

/-- The session after a number of things have happened. -/
def followAll (session : Session) : List Happening → Session
  | [] => session
  | happening :: rest => (session.follow happening).followAll rest

/-- Whether what happens is an extraction that goes through. -/
def refreshes (session : Session) : Happening → Bool
  | .act .extract => (session.step .extract).1.result.isOk
  | _ => false

/-- The disk as it was at the last extraction that went through; `earlier` if there
is none. -/
def lastRead (session : Session) (earlier : Option Disk) : List Happening → Option Disk
  | [] => earlier
  | happening :: rest =>
      (session.follow happening).lastRead
        (if session.refreshes happening then some session.disk else earlier) rest

/-- The items that some flag files had on a disk; before there is one they have
none. -/
def itemsOn (sources : List Path) : Option Disk → Except Failure (List Item)
  | none => .ok []
  | some disk => (FlagFile.extract disk.read? sources).result

/-! ## The invariant -/

/-- A session's project is still the one that was opened, with the items of a disk
that has been read. -/
structure Snapshot (opened : Project) (seen : Option Disk) (session : Session) : Prop where
  base : session.project.base = opened.base
  sources : session.project.sources = opened.sources
  items : itemsOn opened.sources seen = .ok session.project.items

variable {session : Session} {opened : Project} {seen : Option Disk}

/-- An extraction that fails changes nothing. -/
theorem step_extract_of_error {failure : Failure}
    (failed : (FlagFile.extract session.disk.read? session.project.sources).result =
      .error failure) :
    (session.step .extract).1.result = .error failure ∧ (session.step .extract).2 = session := by
  have result := session.project.result_extract_project session.disk.read?
  rw [failed] at result
  simp [step, withProject, result, Except.map]

/-- One that goes through changes the items and nothing else. -/
theorem step_extract_of_ok {items : List Item}
    (extracted : (FlagFile.extract session.disk.read? session.project.sources).result =
      .ok items) :
    (session.step .extract).1.result = .ok (.count items.length) ∧
      (session.step .extract).2 =
        { session with project := { session.project with items := items } } := by
  have result := session.project.result_extract_project session.disk.read?
  rw [extracted] at result
  simp [step, withProject, result, Except.map]

theorem project_withDisk (session : Session) (next : Logged Disk) :
    (session.withDisk next).2.project = session.project := by
  unfold withDisk
  split <;> rfl

/-- No other action touches the project. -/
theorem project_step {action : Action} (other : action ≠ .extract) :
    (session.step action).2.project = session.project := by
  cases action with
  | extract => exact absurd rfl other
  | items => rfl
  | settings request => rfl
  | document => rfl
  | save path => exact project_withDisk session _
  | install path node => exact project_withDisk session _
  | discard path => exact project_withDisk session _

/-- A session that has just begun shows the files as they were before any was read. -/
theorem Snapshot.start {project : Project} (disk : Disk) (nothing : project.items = []) :
    Snapshot project none ⟨project, disk⟩ :=
  ⟨rfl, rfl, congrArg Except.ok nothing.symm⟩

theorem Snapshot.of_project (snapshot : Snapshot opened seen session) {after : Session}
    (same : after.project = session.project) : Snapshot opened seen after := by
  refine ⟨?_, ?_, ?_⟩
  · rw [same, snapshot.base]
  · rw [same, snapshot.sources]
  · rw [same, snapshot.items]

/-- What happens keeps the snapshot, or is an extraction and makes another. -/
theorem Snapshot.follow (snapshot : Snapshot opened seen session) (happening : Happening) :
    Snapshot opened (if session.refreshes happening then some session.disk else seen)
      (session.follow happening) := by
  cases happening with
  | elsewhere disk => exact snapshot.of_project rfl
  | act action =>
      -- Of all actions only an extraction can change the project.
      by_cases extraction : action = .extract
      · subst extraction
        cases extracted : (FlagFile.extract session.disk.read? session.project.sources).result with
        | error failure =>
            obtain ⟨failed, same⟩ := step_extract_of_error extracted
            have stale : session.refreshes (.act .extract) = false := by
              simp only [refreshes, failed]
              rfl
            rw [stale]
            exact snapshot.of_project (congrArg Session.project same)
        | ok items =>
            obtain ⟨ok, after⟩ := step_extract_of_ok extracted
            have fresh : session.refreshes (.act .extract) = true := by
              simp only [refreshes, ok]
              rfl
            rw [fresh]
            show Snapshot opened (some session.disk) (session.step .extract).2
            rw [after]
            refine ⟨snapshot.base, snapshot.sources, ?_⟩
            rw [snapshot.sources] at extracted
            exact extracted
      · have stale : session.refreshes (.act action) = false := by
          cases action <;> first | rfl | exact absurd rfl extraction
        rw [stale]
        exact snapshot.of_project (project_step extraction)

theorem Snapshot.followAll (snapshot : Snapshot opened seen session)
    (happenings : List Happening) :
    Snapshot opened (session.lastRead seen happenings) (session.followAll happenings) := by
  induction happenings generalizing session seen with
  | nil => exact snapshot
  | cons happening rest ih => exact ih (snapshot.follow happening)

/-! ## What the session answers -/

/-- A session whose answers are those of a base and some items. -/
structure AnswersFrom (base : Path) (items : List Item) (session : Session) : Prop where
  baseIs : session.project.base = base
  itemsAre : (session.step .items).1.result = .ok (.items items)
  flagsAre : ∀ request,
    (session.step (.settings request)).1.result = .ok (.flags (Settings.ofItems items).flags)
  documentIs : (session.step .document).1 = (Clangd.render base items).map .document
  /-- An extraction that fails leaves the project as it is. -/
  keptOnFailure : ∀ failure, (session.step .extract).1.result = .error failure →
    (session.step .extract).2.project = session.project

theorem Snapshot.answersFrom (snapshot : Snapshot opened seen session) :
    AnswersFrom opened.base session.project.items session := by
  refine ⟨snapshot.base, rfl, fun request => rfl, ?_, ?_⟩
  · rw [← snapshot.base]
    rfl
  · intro failure failed
    cases extracted : (FlagFile.extract session.disk.read? session.project.sources).result with
    | error cause => rw [(step_extract_of_error extracted).2]
    | ok items =>
        rw [(step_extract_of_ok extracted).1] at failed
        simp at failed

/-- **Answers come from a snapshot.** Whatever has happened since a project was
opened, it has no items if no extraction has gone through, and else the items that
its flag files had on the disk of the last one that did; and every answer is made
from these items and from the base with which the project was opened. -/
theorem answers_from_snapshot (project : Project)
    (opened : project = .anywhere ∨ ∃ workingDirectory directory sources,
      Project.openAt workingDirectory directory sources = .ok project)
    (disk : Disk) (happenings : List Happening) :
    ∃ items,
      itemsOn project.sources (lastRead ⟨project, disk⟩ none happenings) = .ok items ∧
      AnswersFrom project.base items (followAll ⟨project, disk⟩ happenings) := by
  have start : Snapshot project none ⟨project, disk⟩ :=
    .start disk (Project.items_of_made opened)
  have now := start.followAll happenings
  exact ⟨_, now.items, now.answersFrom⟩

/-- A disk with one flag file. -/
def flagDisk : Disk :=
  ⟨⟨[([Utf8.encode "f"], .file (Utf8.encode "-g -O2"))]⟩, []⟩

/-- The disk after its flag file has been replaced by one that is no text. -/
def spoiledDisk : Disk :=
  ⟨⟨[([Utf8.encode "f"], .file [0xFF])]⟩, []⟩

/-- The project of that flag file, just opened. -/
def flagProject : Project :=
  ⟨.ofText "/p", [.ofText "/f"], []⟩

/-- A project reads its flag file and overwrites it with its document; then the file is spoiled,
and cannot be extracted again. -/
def spoiling : List Happening :=
  [.act .extract, .act (.save (.ofText "/f")), .elsewhere spoiledDisk, .act .extract]

/-- After all that the project still answers from the file as it was when it was read, and it
does so after any further extraction, which fails. -/
theorem answers_from_snapshot_overwritten :
    Project.openAt (.ofText "/") (.ofText "/p") [.ofText "/f"] = .ok flagProject ∧
      lastRead ⟨flagProject, flagDisk⟩ none spoiling = some flagDisk ∧
      let session := followAll ⟨flagProject, flagDisk⟩ spoiling
      (session.step .items).1.result = .ok (.items [.token "-g", .token "-O2", .endOfLine]) ∧
        (∀ request, (session.step (.settings request)).1.result = .ok (.flags ["-g", "-O2"])) ∧
        (session.step .document).1 =
          ⟨[.gluedTokens 2 "-g-O2"], .ok (.document "CompileFlags:\n  Add:\n    - -g-O2\n")⟩ ∧
        (session.step .extract).1.result = .error (.unreadable (.ofText "/f")) ∧
        (session.step .extract).2.project = session.project := by
  have opened : Project.openAt (.ofText "/") (.ofText "/p") [.ofText "/f"] = .ok flagProject := by
    cbv
  have last : lastRead ⟨flagProject, flagDisk⟩ none spoiling = some flagDisk := by cbv
  have read : (FlagFile.extract flagDisk.read? flagProject.sources).result =
      .ok [.token "-g", .token "-O2", .endOfLine] := by cbv
  obtain ⟨items, were, answers⟩ :=
    answers_from_snapshot flagProject (.inr ⟨_, _, _, opened⟩) flagDisk spoiling
  rw [last] at were
  obtain rfl := Except.ok.inj (read.symm.trans were)
  have rendered : Clangd.render flagProject.base [.token "-g", .token "-O2", .endOfLine] =
      ⟨[.gluedTokens 2 "-g-O2"], .ok "CompileFlags:\n  Add:\n    - -g-O2\n"⟩ := by cbv
  have failed : ((followAll ⟨flagProject, flagDisk⟩ spoiling).step .extract).1.result =
      .error (.unreadable (.ofText "/f")) := by cbv
  refine ⟨opened, last, answers.itemsAre, answers.flagsAre, ?_, failed,
    answers.keptOnFailure _ failed⟩
  rw [answers.documentIs, rendered]
  rfl

end Session

end EditorFlags
