import EditorFlags.Proofs.Clangd.Interrupted
import EditorFlags.Proofs.Path.Normal
import EditorFlags.Proofs.Project.Snapshot

/-!
# The operands of includes

The operand that a document has in the place of a relative path is absolute if the base of
the project is. A project that has been opened has an absolute base and keeps it
(`Session.Snapshot`). The project that has not been told of any directory has none: its
operands depend on where the document is read, and a parent that has nothing to take away
is lost.
-/

namespace EditorFlags

namespace Clangd

/-- That rendering some items puts `operand` in the place of one of their tokens. -/
inductive Substitutes (base : Path) (items : List Item) (operand : String) : Prop where
  | intro (before : List Item) (token : String) (after : List Item)
      (cut : items = before ++ .token token :: after)
      (resolves : ((Writer.start base .unlimited).1.run (before.map .push)).entry.resolves token =
        true)
      (text : (((Writer.start base .unlimited).1.run (before.map .push)).push
        (.token token)).1.entry.text = "-I" ++ operand)

namespace Writer

theorem base_step (writer : Writer) (step : Step) : (writer.step step).1.base = writer.base := by
  cases step with
  | grow more => rfl
  | push item =>
      cases item with
      | token token => rfl
      | endOfLine =>
          show (writer.push .endOfLine).1.base = writer.base
          obtain ⟨sink, pushed | ⟨fault, pushed⟩⟩ := writer.push_endOfLine_cases
          · rw [pushed]
          · rw [pushed]

theorem base_run (writer : Writer) (steps : List Step) : (writer.run steps).base = writer.base := by
  induction steps generalizing writer with
  | nil => rfl
  | cons step rest ih => rw [run, ih, base_step]

end Writer

/-- Operands are resolved paths, shown as text. -/
theorem Substitutes.exists_token {base : Path} {items : List Item} {operand : String}
    (substitutes : Substitutes base items operand) :
    ∃ token : String, token.toList.head? = some '.' ∧
      operand = (base.resolve (.ofText token)).lossyText := by
  obtain ⟨before, token, after, cut, resolves, text⟩ := substitutes
  generalize writerIs : (Writer.start base .unlimited).1.run (before.map .push) = writer at *
  have sameBase : writer.base = base := by
    rw [← writerIs, Writer.base_run]
    rfl
  obtain ⟨flag, dotted⟩ := Entry.resolves_iff.mp resolves
  have added : (writer.push (.token token)).1.entry = (writer.entry.add writer.base token).1 := rfl
  rw [added, Entry.add_of_resolves flag dotted, sameBase] at text
  exact ⟨token, dotted, (String.append_right_inj "-I").mp text.symm⟩

end Clangd

/-- An operand is a normal path if the base is absolute, and only then. -/
theorem Clangd.Substitutes.isNormal_iff {base : Path} {items : List Item} {operand : String}
    (substitutes : Clangd.Substitutes base items operand) :
    (Path.ofText operand).IsNormal ↔ base.isAbsolute = true := by
  obtain ⟨token, dotted, rfl⟩ := substitutes.exists_token
  rw [Path.isNormal_lossyText_resolve_iff,
    Path.isAbsolute_join_relative (Path.isAbsolute_ofText_of_dot dotted)]

namespace Session

/-- **Operands are absolute in a project that has been opened.** Whatever has happened to the
project since it was made, an operand in its document is a normal path exactly if the project
was opened in a directory. If it has not been told of any, no operand is. -/
theorem operand_isNormal_iff (disk : Disk) (project : Project)
    (made : project = .anywhere ∨ ∃ directory sources,
      Project.openAt disk.workingDirectory.path directory sources = .ok project)
    (happenings : List Happening) (operand : String)
    (substitutes : Clangd.Substitutes (followAll ⟨project, disk⟩ happenings).project.base
      (followAll ⟨project, disk⟩ happenings).project.items operand) :
    (Path.ofText operand).IsNormal ↔ project ≠ .anywhere := by
  have nothing : project.items = [] := Project.items_of_made (made.imp id fun ⟨_, _, opened⟩ =>
    ⟨_, _, _, opened⟩)
  have now := (Snapshot.start disk nothing).followAll happenings
  rw [substitutes.isNormal_iff, now.base]
  rcases made with rfl | ⟨directory, sources, opened⟩
  · -- The empty base is not absolute.
    simp [Project.anywhere, Path.isAbsolute]
  · have absolute := Project.isAbsolute_base opened (Location.isAbsolute_path _)
    refine iff_of_true absolute ?_
    rintro rfl
    simp [Project.anywhere, Path.isAbsolute] at absolute

/-- A disk with a project directory that includes a directory beside it. -/
def besideDisk : Disk :=
  ⟨⟨[([Utf8.encode "p"], .directory),
    ([Utf8.encode "p", FlagFile.baseName.bytes], .file (Utf8.encode "-I ../inc\n"))]⟩,
    [Utf8.encode "p"]⟩

/-- The items of its flag file. -/
def besideItems : List Item :=
  [.token "-I", .token "../inc", .endOfLine]

/-- Opened in its directory, the project includes the directory beside it. -/
theorem operand_isNormal_beside :
    Project.openAt besideDisk.workingDirectory.path (.ofText "/p") FlagFile.standard =
        .ok ⟨.ofText "/p", FlagFile.standard, []⟩ ∧
      followAll ⟨⟨.ofText "/p", FlagFile.standard, []⟩, besideDisk⟩ [.act .extract] =
        ⟨⟨.ofText "/p", FlagFile.standard, besideItems⟩, besideDisk⟩ ∧
      Clangd.Substitutes (.ofText "/p") besideItems "/inc" ∧ (Path.ofText "/inc").IsNormal := by
  have opened : Project.openAt besideDisk.workingDirectory.path (.ofText "/p")
      FlagFile.standard = .ok ⟨.ofText "/p", FlagFile.standard, []⟩ := by cbv
  have session : followAll ⟨⟨.ofText "/p", FlagFile.standard, []⟩, besideDisk⟩ [.act .extract] =
      ⟨⟨.ofText "/p", FlagFile.standard, besideItems⟩, besideDisk⟩ := by cbv
  have substitutes : Clangd.Substitutes (.ofText "/p") besideItems "/inc" :=
    ⟨[.token "-I"], "../inc", [.endOfLine], rfl, by cbv, by cbv⟩
  have other : (⟨.ofText "/p", FlagFile.standard, []⟩ : Project) ≠ .anywhere := by
    intro same
    have absolute : (Path.ofText "/p").isAbsolute = true := by cbv
    have base : Path.ofText "/p" = Project.anywhere.base := congrArg Project.base same
    rw [base] at absolute
    cases absolute
  have normal := operand_isNormal_iff besideDisk ⟨.ofText "/p", FlagFile.standard, []⟩
    (Or.inr ⟨_, _, opened⟩) [.act .extract] "/inc"
  rw [session] at normal
  exact ⟨opened, session, substitutes, (normal substitutes).mpr other⟩

/-- Not told of its directory, it includes one inside of the directory from which the
document is read, for there was nothing to take the parent from. -/
theorem operand_relative_anywhere :
    followAll ⟨.anywhere, besideDisk⟩ [.act .extract] =
        ⟨{ Project.anywhere with items := besideItems }, besideDisk⟩ ∧
      (Clangd.render Project.anywhere.base besideItems).result =
        .ok "CompileFlags:\n  Add:\n    - -Iinc\n" ∧
      Clangd.Substitutes Project.anywhere.base besideItems "inc" ∧
      ¬ (Path.ofText "inc").IsNormal := by
  refine ⟨by cbv, by cbv, ⟨[.token "-I"], "../inc", [.endOfLine], rfl, by cbv, by cbv⟩, ?_⟩
  intro normal
  have relative : (Path.ofText "inc").isAbsolute = false := by cbv
  rw [normal.absolute] at relative
  cases relative

end Session

end EditorFlags
