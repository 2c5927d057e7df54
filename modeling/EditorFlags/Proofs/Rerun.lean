import EditorFlags.Proofs.Clangd.Document
import EditorFlags.Proofs.Program
import EditorFlags.Proofs.Project
import EditorFlags.Proofs.Text.Lines

/-!
# Saving a document twice

A job that has saved a document can be run again. If no flag file is the file that the
document went to, all flag files are still read as before (`Disk.Written.read?_elsewhere`),
so the same document goes to the same place and the disk stays as it is. If one is, then
the job reads its own document. A document has more lines than it was made from
(`length_add_two_le_lines`), even where the base has line breaks in it. So the second
document, made from at least the lines of the first, cannot be the first again.
-/

namespace EditorFlags

/-! ## Lines of a document -/

namespace Clangd

theorem length_le_count_documentLines (base : Path) (lines : List String) :
    lines.length ≤ (documentLines base lines).toList.count '\n' := by
  induction lines with
  | nil => exact Nat.zero_le _
  | cons line lines ih =>
      have ended : "\n".toList.count '\n' = 1 := by decide
      have whole : documentLines base (line :: lines) =
          "    - " ++ lineEntry base line ++ "\n" ++ documentLines base lines := by
        simp [documentLines]
      rw [whole, String.toList_append, String.toList_append, List.count_append,
        List.count_append, ended, List.length_cons]
      omega

/-- A document has more lines than it has been made from. -/
theorem length_add_two_le_lines (base : Path) (lines : List String) :
    lines.length + 2 ≤ (Lines.ofText (header ++ documentLines base lines)).length := by
  have headed : header.toList.count '\n' = 2 := by decide
  have ended := length_le_count_documentLines base lines
  have counted := Lines.count_le_length_split (header ++ documentLines base lines).toList
  rw [String.toList_append, List.count_append, headed] at counted
  rw [Lines.ofText, List.length_map, String.toList_append]
  omega

end Clangd

namespace FlagFile

variable {read? other? : Path → Option Bytes} {sources : List Path}

theorem sourceLines_congr (same : ∀ source ∈ sources, read? source = other? source) :
    sourceLines read? sources = sourceLines other? sources := by
  apply List.flatMap_congr
  intro source member
  rw [linesAt, same source member, linesAt]

/-- The lines of a flag file are among those of all. -/
theorem length_ofText_le_sourceLines {source : Path} {text : String} (member : source ∈ sources)
    (holds : read? source = some (Utf8.encode text)) :
    (Lines.ofText text).length ≤ (sourceLines read? sources).length := by
  have own : linesAt read? source = Lines.ofText text := by
    simp [linesAt, holds]
  have part : (linesAt read? source).Sublist (sourceLines read? sources) :=
    List.sublist_flatten_of_mem (List.mem_map_of_mem member)
  exact own ▸ part.length_le

end FlagFile

/-! ## Jobs that save -/

namespace Job

/-- The document that a job makes of the flag files on a disk. -/
def documentOn (job : Job) (base : Path) (disk : Disk) : String :=
  Clangd.header ++ Clangd.documentLines base (FlagFile.sourceLines disk.read? job.sources)

variable {job : Job} {disk after : Disk} {path : Path}

theorem collects_iff {workingDirectory : Path} {read? : Path → Option Bytes} {project : Project} :
    job.Collects workingDirectory read? project ↔
      ∃ base, Path.absolute? workingDirectory job.directory = some base ∧
        (∀ source ∈ job.sources, ∀ bytes, read? source = some bytes →
          (Utf8.decode? bytes).isSome) ∧
        project = ⟨base, job.sources,
          (FlagFile.sourceLines read? job.sources).flatMap Item.ofLine⟩ := by
  simp only [Collects, Project.openAt_eq_ok_iff]
  constructor
  · rintro ⟨opened, ⟨base, made, rfl⟩, collected⟩
    rw [Project.result_extract_project] at collected
    cases extracted : (FlagFile.extract read? job.sources).result with
    | error failure => simp [extracted, Except.map] at collected
    | ok items =>
        obtain ⟨readable, rfl⟩ := FlagFile.result_extract_eq_ok_iff.mp extracted
        rw [extracted] at collected
        exact ⟨base, made, readable, (Except.ok.inj collected).symm⟩
  · rintro ⟨base, made, readable, rfl⟩
    refine ⟨_, ⟨base, made, rfl⟩, ?_⟩
    rw [Project.result_extract_project, FlagFile.result_extract readable]
    rfl

/-- A job that is to save goes through if its directory has an absolute form, its flag files
are text and its document can be written. -/
theorem run_saves_iff (saves : job.goal = .saveDocument path) :
    (job.run disk).result = .ok () ∧ (job.run disk).disk = after ↔
      ∃ base, Path.absolute? disk.workingDirectory.path job.directory = some base ∧
        (∀ source ∈ job.sources, ∀ bytes, disk.read? source = some bytes →
          (Utf8.decode? bytes).isSome) ∧
        disk.write path (Utf8.encode (job.documentOn base disk)) = .ok after := by
  have rendered {base : Path}
      (made : Path.absolute? disk.workingDirectory.path job.directory = some base) :
      (Project.document ⟨base, job.sources,
        (FlagFile.sourceLines disk.read? job.sources).flatMap Item.ofLine⟩).result =
        .ok (job.documentOn base disk) :=
    Clangd.result_render (Path.isAbsolute_of_absolute? (Location.isAbsolute_path _) made) _
  constructor
  · rintro ⟨ok, rfl⟩
    obtain ⟨project, delivery, collects, delivers⟩ := delivers_of_run ok
    obtain ⟨base, made, readable, rfl⟩ := collects_iff.mp collects
    have delivered := saves ▸ delivers
    cases delivered with
    | saveDocument path renderedToo =>
        obtain rfl := Except.ok.inj (renderedToo.symm.trans (rendered made))
        exact ⟨base, made, readable, (run_of_save collects delivers ok).2⟩
  · rintro ⟨base, made, readable, written⟩
    have collects := collects_iff.mpr ⟨base, made, readable, rfl⟩
    have delivers := saves ▸ Delivers.saveDocument path (rendered made)
    have prepared := result_prepare_eq_ok_iff.mpr ⟨_, collects, delivers⟩
    simp [run, prepared, Disk.save, written]

/-! ## The second run -/

/-- What is written is read as it was before, or is the document. -/
theorem readable_of_written {location : Location} {text : String} {sources : List Path}
    (written : Disk.Written disk after path location (Utf8.encode text))
    (readable : ∀ source ∈ sources, ∀ bytes, disk.read? source = some bytes →
      (Utf8.decode? bytes).isSome) :
    ∀ source ∈ sources, ∀ bytes, after.read? source = some bytes → (Utf8.decode? bytes).isSome := by
  intro source member bytes there
  by_cases leads : after.locate .find source = .ok (.node location)
  · obtain rfl := Option.some.inj ((written.read?_onto leads).symm.trans there)
    simp
  · exact readable source member bytes ((written.read?_elsewhere leads).symm.trans there)

/-- A document that goes to one of its own flag files is another one the next time. -/
theorem documentOn_ne_of_leads {base source : Path} {location : Location} {text : String}
    (written : Disk.Written disk after path location (Utf8.encode text))
    (member : source ∈ job.sources) (leads : after.locate .find source = .ok (.node location)) :
    job.documentOn base after ≠ text := by
  intro same
  have atLeast := FlagFile.length_ofText_le_sourceLines member (written.read?_onto leads)
  have more := Clangd.length_add_two_le_lines base (FlagFile.sourceLines after.read? job.sources)
  have again : Lines.ofText (Clangd.header ++
      Clangd.documentLines base (FlagFile.sourceLines after.read? job.sources)) =
      Lines.ofText text := congrArg Lines.ofText same
  rw [again] at more
  omega

/-- **Saving twice.** When a job has saved its document, it can be run again and saves to the
same file. The second document is the first one exactly if no flag file is the file that the
document has gone to; then the second run leaves the whole disk as it is. -/
theorem rerun_saves (disk : Disk) (job : Job) (path : Path) (saves : job.goal = .saveDocument path)
    (ok : (job.run disk).result = .ok ()) :
    let once := (job.run disk).disk
    let again := job.run once
    again.result = .ok () ∧
      ∃ location first second,
        Disk.Written disk once path location first ∧
        Disk.Written once again.disk path location second ∧
        (second = first ↔
          ∀ source ∈ job.sources, once.locate .find source ≠ .ok (.node location)) ∧
        ((∀ source ∈ job.sources, once.locate .find source ≠ .ok (.node location)) →
          again.disk = once) := by
  intro once
  have saved : (job.run disk).disk = once := rfl
  clear_value once
  obtain ⟨base, made, readable, wrote⟩ := (run_saves_iff saves).mp ⟨ok, saved⟩
  obtain ⟨location, written⟩ := Disk.written_of_write wrote
  obtain ⟨wroteAgain, writtenAgain⟩ :=
    written.write_again (Utf8.encode (job.documentOn base once))
  rw [← written.workingDirectory] at made
  obtain ⟨okAgain, again⟩ :=
    (run_saves_iff saves).mpr ⟨base, made, readable_of_written written readable, wroteAgain⟩
  have unread (away : ∀ source ∈ job.sources, once.locate .find source ≠ .ok (.node location)) :
      job.documentOn base once = job.documentOn base disk :=
    congrArg (fun lines => Clangd.header ++ Clangd.documentLines base lines)
      (FlagFile.sourceLines_congr fun source member => written.read?_elsewhere (away source member))
  show (job.run once).result = .ok () ∧ _
  rw [again]
  refine ⟨okAgain, location, _, _, written, writtenAgain, ⟨?_, ?_⟩, ?_⟩
  · intro same source member leads
    have sameText := congrArg Utf8.decode? same
    rw [Utf8.decode?_encode, Utf8.decode?_encode] at sameText
    exact documentOn_ne_of_leads written member leads (Option.some.inj sameText)
  · intro away
    rw [unread away]
  · intro away
    -- The file that is put once more is the one that is there.
    rw [unread away, written.eq_put wrote, FileTree.put_put]

/-- A disk on which a flag file is a link to a file that is not there yet. -/
def danglingDisk : Disk :=
  ⟨⟨[([Utf8.encode "flags"], .file (Utf8.encode "-I ./x\n")),
    ([Utf8.encode "more"], .link (.ofText "doc"))]⟩, []⟩

/-- The job that saves its document as the file that the link leads to. -/
def danglingJob : Job :=
  ⟨.ofText "/p", [.ofText "/flags", .ofText "/more"], .saveDocument (.ofText "/doc"), 0⟩

/-- The first run makes the file that the link has waited for, so that the second run reads
the document and makes another one of it. -/
theorem rerun_saves_dangling :
    danglingJob.goal = .saveDocument (.ofText "/doc") ∧
      (danglingJob.run danglingDisk).result = .ok () ∧
      ∃ location first second,
        Disk.Written danglingDisk (danglingJob.run danglingDisk).disk (.ofText "/doc")
          location first ∧
        Disk.Written (danglingJob.run danglingDisk).disk
          (danglingJob.run (danglingJob.run danglingDisk).disk).disk (.ofText "/doc")
          location second ∧
        second ≠ first := by
  have ok : (danglingJob.run danglingDisk).result = .ok () := by cbv
  obtain ⟨-, location, first, second, written, writtenAgain, sameIff, -⟩ :=
    rerun_saves danglingDisk danglingJob (.ofText "/doc") rfl ok
  refine ⟨rfl, ok, location, first, second, written, writtenAgain, fun same => ?_⟩
  have throughLink : (danglingJob.run danglingDisk).disk.locate .find (.ofText "/more") =
      (danglingJob.run danglingDisk).disk.locate .find (.ofText "/doc") := by cbv
  have member : Path.ofText "/more" ∈ danglingJob.sources := by simp [danglingJob]
  exact sameIff.mp same _ member (throughLink.trans written.leads)

end Job

end EditorFlags
