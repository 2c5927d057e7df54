import EditorFlags.Project
import EditorFlags.Proofs.FlagFile
import EditorFlags.Proofs.Path

/-!
# Opening a project and extracting its flag files

A project that has been opened has the absolute form of its directory as its base and holds
no items. Extracting its flag files changes the items and nothing else.
-/

namespace EditorFlags

theorem Location.isAbsolute_path (location : Location) : location.path.isAbsolute = true := by
  cases location <;> rfl

namespace Project

variable {workingDirectory directory : Path} {sources : List Path} {project : Project}

theorem openAt_eq_ok_iff :
    openAt workingDirectory directory sources = .ok project ↔
      ∃ base, Path.absolute? workingDirectory directory = some base ∧
        project = ⟨base, sources, []⟩ := by
  unfold openAt
  cases Path.absolute? workingDirectory directory with
  | none => simp
  | some base => simp [eq_comm]

/-- The base of a project is absolute if the project has been opened somewhere. -/
theorem isAbsolute_base (opened : openAt workingDirectory directory sources = .ok project)
    (absolute : workingDirectory.isAbsolute = true) : project.base.isAbsolute = true := by
  obtain ⟨base, made, rfl⟩ := openAt_eq_ok_iff.mp opened
  exact Path.isAbsolute_of_absolute? absolute made

/-- A project that has been made and not used yet holds no items. -/
theorem items_of_made (made : project = .anywhere ∨ ∃ workingDirectory directory sources,
    openAt workingDirectory directory sources = .ok project) : project.items = [] := by
  rcases made with rfl | ⟨workingDirectory, directory, sources, opened⟩
  · rfl
  · obtain ⟨base, -, rfl⟩ := openAt_eq_ok_iff.mp opened
    rfl

theorem result_extract_project (project : Project) (read? : Path → Option Bytes) :
    (project.extract read?).result =
      (FlagFile.extract read? project.sources).result.map
        fun items => { project with items := items } := by
  cases extracted : (FlagFile.extract read? project.sources).result with
  | error failure => rw [extract, Logged.bind_of_error extracted]; rfl
  | ok items => rw [extract, Logged.bind_of_ok extracted]; rfl

end Project

end EditorFlags
