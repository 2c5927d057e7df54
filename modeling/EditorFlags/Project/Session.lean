import EditorFlags.Project

/-!
# Sessions

In a session a project stays open while the files around it change, by its own
hand or by others'. Every action gets an answer, which may be a failure, and
leaves a project and a disk for the next one. An action that fails changes
neither.
-/

namespace EditorFlags

/-- A project that is open on a disk. -/
structure Session where
  project : Project
  disk : Disk
deriving Repr

namespace Session

/-- What can be done in a session. The last two are done by others. -/
inductive Action where
  | extract
  | items
  | settings (request : Request)
  | document
  | save (path : Path)
  | install (path : Path) (node : Node)
  | discard (path : Path)
deriving Repr

/-- What an action gives. -/
inductive Answer where
  | count (items : Nat)
  | items (items : List Item)
  | flags (flags : List String)
  | document (text : String)
  | done
deriving DecidableEq, Repr

/-- Goes on with another project if there is one. -/
def withProject (session : Session) (next : Logged Project) : Logged Answer × Session :=
  match next.result with
  | .error failure => (⟨next.log, .error failure⟩, session)
  | .ok project =>
      (⟨next.log, .ok (.count project.items.length)⟩, { session with project := project })

/-- Goes on with another disk if there is one. -/
def withDisk (session : Session) (next : Logged Disk) : Logged Answer × Session :=
  match next.result with
  | .error failure => (⟨next.log, .error failure⟩, session)
  | .ok disk => (⟨next.log, .ok .done⟩, { session with disk := disk })

/-- Takes one action. -/
def step (session : Session) : Action → Logged Answer × Session
  | .extract => session.withProject (session.project.extract session.disk.read?)
  | .items => (pure (.items session.project.items), session)
  | .settings request =>
      ((session.project.settings request).map fun settings => .flags settings.flags, session)
  | .document => (session.project.document.map .document, session)
  | .save path => session.withDisk (session.project.document.andThen (session.disk.save path))
  | .install path node => session.withDisk (pure (session.disk.install path node))
  | .discard path => session.withDisk (pure (session.disk.discard path))

end Session

end EditorFlags
