import EditorFlags.Job
import EditorFlags.Proofs.FlagFile.Reading
import EditorFlags.Proofs.Project
import EditorFlags.Proofs.Text.Endings
import Mathlib

/-!
# Flag files made of two

A text that is divided behind an ending has the lines of its two parts (`split_append`). Divided
between a CR and an LF it has them as well, but for the empty line that the LF would end
(`split_append_lf`); anywhere else the last line of the first part and the first line of the second
one are the two parts of one line (`split_append_open`). What is done with flag files rests on their
lines, so the end of one file can be moved to the next one behind any ending without a change of the
settings or the document (`items_divided`).
-/

namespace EditorFlags

namespace Lines

/-! ## Lines of a divided text -/

/-- That a text is divided between two lines: what comes first is empty or ends in an ending that
does not go on in what comes after it. -/
def Parted (first second : List Char) : Prop :=
  first = [] ∨ first.getLast? = some '\n' ∨
    first.getLast? = some '\r' ∧ second.head? ≠ some '\n'

variable {first second : List Char}

theorem Parted.tail {c : Char} (parted : Parted (c :: first) second) : Parted first second := by
  cases first with
  | nil => exact .inl rfl
  | cons next first =>
      rw [Parted, List.getLast?_cons_cons] at parted
      exact .inr (parted.resolve_left (List.cons_ne_nil c _))

theorem Parted.ends {c : Char} (parted : Parted [c] second) (notLf : c ≠ '\n') :
    c = '\r' ∧ second.head? ≠ some '\n' := by
  simpa [Parted, notLf] using parted

theorem split_ne_nil (some : first ≠ []) : split first ≠ [] := by
  obtain ⟨parts, cut⟩ := exists_isCut first
  rw [cut.split_eq, Ne, List.map_eq_nil_iff, cut.eq_nil_iff]
  exact some

theorem split_append (parted : Parted first second) :
    split (first ++ second) = split first ++ split second := by
  fun_induction split first with
  | case1 => rfl
  | case2 rest ih =>
      rw [List.cons_append, List.cons_append, split.eq_2, ih parted.tail.tail, List.cons_append]
  | case3 rest noLf ih =>
      have single : (rest ++ second).head? ≠ some '\n' := by
        cases rest with
        | nil => exact (parted.ends (by decide)).2
        | cons next rest =>
            intro lf
            obtain rfl : next = '\n' := by simpa using lf
            exact noLf rest rfl
      rw [List.cons_append, split_cr single, ih parted.tail, List.cons_append]
  | case4 rest ih => rw [List.cons_append, split.eq_4, ih parted.tail, List.cons_append]
  | case5 c rest _ notCr notLf nothing ih =>
      -- Then there is nothing after the character, and it is no ending.
      obtain rfl : rest = [] := by
        by_contra some
        exact split_ne_nil some nothing
      exact absurd (parted.ends notLf).1 notCr
  | case6 c rest _ notCr notLf line lines found ih =>
      rw [List.cons_append, split_cons ⟨notCr, notLf⟩, ih parted.tail, found]
      rfl

/-- Any text ends with a line that has not been ended, which may be empty. -/
theorem exists_lead (text : List Char) :
    ∃ lead line, text = lead ++ line ∧ Unbroken line ∧
      ∀ rest : List Char, rest.head? ≠ some '\n' → Parted lead rest := by
  induction text using List.reverseRecOn with
  | nil => exact ⟨[], [], rfl, by simp [Unbroken], fun _ _ => .inl rfl⟩
  | append_singleton front c ih =>
      by_cases plain : c ≠ '\r' ∧ c ≠ '\n'
      · obtain ⟨lead, line, rfl, unbroken, parted⟩ := ih
        refine ⟨lead, line ++ [c], List.append_assoc .., ?_, parted⟩
        exact List.forall_mem_append.mpr ⟨unbroken, by simpa using plain⟩
      · refine ⟨front ++ [c], [], (List.append_nil _).symm, by simp [Unbroken], ?_⟩
        intro rest noLf
        rw [Parted, List.getLast?_concat]
        by_cases lf : c = '\n'
        · exact .inr (.inl (by rw [lf]))
        · obtain rfl : c = '\r' := by simpa [lf] using plain
          exact .inr (.inr ⟨rfl, noLf⟩)

theorem head?_append_ne_lf {line rest : List Char} (unbroken : Unbroken line)
    (start : line = [] → rest.head? ≠ Option.some '\n') :
    (line ++ rest).head? ≠ Option.some '\n' := by
  cases line with
  | nil => exact start rfl
  | cons c line => simpa using (unbroken c List.mem_cons_self).2

/-- An ending that is divided is still one ending. -/
theorem split_append_lf (ends : first.getLast? = some '\r') (second : List Char) :
    split (first ++ '\n' :: second) = split first ++ split second := by
  obtain ⟨front, rfl⟩ := List.getLast?_eq_some_iff.mp ends
  obtain ⟨lead, line, rfl, unbroken, parted⟩ := exists_lead front
  -- Either way the line that has not been ended is ended by the CR.
  have ended (rest : List Char) (lines : List (List Char))
      (cut : split ('\r' :: rest) = [] :: lines) :
      split (lead ++ (line ++ '\r' :: rest)) = split lead ++ line :: lines := by
    have noLf : (line ++ '\r' :: rest).head? ≠ some '\n' :=
      head?_append_ne_lf unbroken fun _ => by simp
    rw [split_append (parted _ noLf), split_append_of_split unbroken cut, List.append_nil]
  have whole := ended ('\n' :: second) (split second) (split.eq_2 second)
  have front := ended [] [] rfl
  simp only [List.append_assoc, List.singleton_append]
  rw [whole, front, List.append_assoc]
  rfl

/-- A line that is divided is one line. -/
theorem split_append_open (begun : first ≠ []) (notCr : first.getLast? ≠ some '\r')
    (notLf : first.getLast? ≠ some '\n') (more : second ≠ []) :
    ∃ before last next after, split first = before ++ [last] ∧ split second = next :: after ∧
      split (first ++ second) = before ++ (last ++ next) :: after := by
  obtain ⟨lead, line, rfl, unbroken, parted⟩ := exists_lead first
  have some : line ≠ [] := by
    rintro rfl
    rw [List.append_nil] at begun notCr notLf
    rcases parted [] (by simp) with empty | lf | ⟨cr, -⟩
    · exact begun empty
    · exact notLf lf
    · exact notCr cr
  obtain ⟨next, after, cut⟩ := List.exists_cons_of_ne_nil (split_ne_nil more)
  have alone : line.head? ≠ Option.some '\n' := by
    simpa using @head?_append_ne_lf line [] unbroken fun empty => absurd empty some
  have joined : (line ++ second).head? ≠ Option.some '\n' :=
    head?_append_ne_lf unbroken fun empty => absurd empty some
  refine ⟨split lead, line, next, after, ?_, cut, ?_⟩
  · rw [split_append (parted line alone), split_of_unbroken unbroken some]
  · rw [List.append_assoc, split_append (parted _ joined), split_append_of_split unbroken cut]

theorem ofText_append {first second : String} (parted : Parted first.toList second.toList) :
    ofText (first ++ second) = ofText first ++ ofText second := by
  simp only [ofText, String.toList_append, split_append parted, List.map_append]

theorem ofText_append_lf {first : String} (ends : first.toList.getLast? = some '\r')
    (second : String) : ofText (first ++ ("\n" ++ second)) = ofText first ++ ofText second := by
  have lf : "\n".toList = ['\n'] := rfl
  simp only [ofText, String.toList_append, lf, List.singleton_append, split_append_lf ends,
    List.map_append]

theorem ofText_append_open {first second : String} (begun : first ≠ "")
    (notCr : first.toList.getLast? ≠ some '\r') (notLf : first.toList.getLast? ≠ some '\n')
    (more : second ≠ "") :
    ∃ before last next after, ofText first = before ++ [last] ∧ ofText second = next :: after ∧
      ofText (first ++ second) = before ++ (last ++ next) :: after := by
  obtain ⟨before, last, next, after, ofFirst, ofSecond, ofBoth⟩ :=
    split_append_open (mt String.toList_eq_nil_iff.mp begun) notCr notLf
      (mt String.toList_eq_nil_iff.mp more)
  refine ⟨before.map String.ofList, .ofList last, .ofList next, after.map String.ofList, ?_, ?_, ?_⟩
  · simp only [ofText, ofFirst, List.map_append, List.map_cons, List.map_nil]
  · simp only [ofText, ofSecond, List.map_cons]
  · simp only [ofText, String.toList_append, ofBoth, List.map_append, List.map_cons,
      String.ofList_append]

end Lines

/-! ## Moving the end of a flag file -/

/-- That a disk has become another one by moving the end of one flag file to a second one, which was
missing or empty before. -/
structure Disk.Moved (before after : Disk) (base extra : Path) (first second : String) : Prop where
  /-- Both are seen from the same directory. -/
  workingDirectory : after.workingDirectory = before.workingDirectory
  /-- The first file had all of the text. -/
  whole : before.Holds base (Utf8.encode (first ++ second))
  /-- The second file had none of it. -/
  empty : ∀ bytes, before.Holds extra bytes → bytes = []
  /-- The first file has kept the first part. -/
  kept : after.Holds base (Utf8.encode first)
  /-- The second file has the other part. -/
  moved : after.Holds extra (Utf8.encode second)

namespace FlagFile

variable {disk before after : Disk} {path base extra : Path} {text first second : String}

/-- The items of a flag file with some text in it. -/
def itemsOf (text : String) : List Item :=
  (Lines.ofText text).flatMap Item.ofLine

theorem reads_of_holds (holds : disk.Holds path (Utf8.encode text)) :
    Reads disk path (itemsOf text) (.readLines (Lines.ofText text).length path) :=
  .read holds (hasLines_iff.mpr rfl)

/-- A file that is empty has as many items as one that is missing. -/
theorem exists_reads_nil (empty : ∀ bytes, disk.Holds path bytes → bytes = []) :
    ∃ event, Reads disk path [] event := by
  by_cases missing : ∀ bytes, ¬disk.Holds path bytes
  · exact ⟨_, .skipped missing⟩
  · simp only [not_forall, not_not] at missing
    obtain ⟨bytes, holds⟩ := missing
    obtain rfl := empty bytes holds
    exact ⟨_, @reads_of_holds disk path "" holds⟩

theorem itemsOf_append (parted : Lines.Parted first.toList second.toList) :
    itemsOf (first ++ second) = itemsOf first ++ itemsOf second := by
  rw [itemsOf, Lines.ofText_append parted, List.flatMap_append]
  rfl

/-- The same is extracted before and after such a move. -/
theorem result_extract_moved (parted : Lines.Parted first.toList second.toList)
    (moved : Disk.Moved before after base extra first second) :
    (extract before.read? [base, extra]).result = (extract after.read? [base, extra]).result := by
  obtain ⟨event, nothing⟩ := exists_reads_nil moved.empty
  have old : ReadsAll before [base, extra] [(itemsOf (first ++ second), _), ([], event)] :=
    .cons (reads_of_holds moved.whole) (.cons nothing .nil)
  have new : ReadsAll after [base, extra] [(itemsOf first, _), (itemsOf second, _)] :=
    .cons (reads_of_holds moved.kept) (.cons (reads_of_holds moved.moved) .nil)
  rw [old.extract_eq, new.extract_eq]
  simp [itemsOf_append parted]

theorem result_extract_append {read? : Path → Option Bytes} {sources others : List Path}
    {found more : List Item} (ofSources : (extract read? sources).result = .ok found)
    (ofOthers : (extract read? others).result = .ok more) :
    (extract read? (sources ++ others)).result = .ok (found ++ more) := by
  obtain ⟨readable, rfl⟩ := result_extract_eq_ok_iff.mp ofSources
  obtain ⟨readableToo, rfl⟩ := result_extract_eq_ok_iff.mp ofOthers
  refine result_extract_eq_ok_iff.mpr ⟨List.forall_mem_append.mpr ⟨readable, readableToo⟩, ?_⟩
  rw [sourceLines_append, List.flatMap_append]

end FlagFile

namespace Job

variable {job : Job} {read? other? : Path → Option Bytes}

/-- What a job is about to deliver rests on what is extracted from its flag files. -/
theorem result_prepare_congr (workingDirectory : Path)
    (same : (FlagFile.extract read? job.sources).result =
      (FlagFile.extract other? job.sources).result) :
    (job.prepare workingDirectory read?).result = (job.prepare workingDirectory other?).result := by
  unfold prepare
  refine Logged.result_bind_congr rfl fun project opened => ?_
  obtain ⟨base, -, rfl⟩ := Project.openAt_eq_ok_iff.mp opened
  refine Logged.result_bind_congr ?_ fun _ _ => rfl
  rw [Project.result_extract_project, Project.result_extract_project, same]

/-- What is printed is what was to be printed. -/
theorem stdout_run (disk : Disk) (job : Job) :
    (job.run disk).stdout =
      match (job.prepare disk.workingDirectory.path disk.read?).result with
      | .ok (.print text) => text
      | _ => "" := by
  rw [run]
  rcases (job.prepare disk.workingDirectory.path disk.read?).result with _ | text | ⟨path, text⟩
  · rfl
  · rfl
  · dsimp only
    split <;> rfl

end Job

namespace FlagFile

/-- **A flag file can be divided behind any ending.** The items of the whole are then those of its
parts, so that nothing that is printed or saved changes when the second part is moved to a second
file that was missing or empty. When a CR LF is divided its LF has to be left out, and when a line
is divided its parts are the last line of the one text and the first line of the other one. What is
extracted from two lists of files is extracted from both of them together. -/
theorem items_divided (first second : String) :
    (∀ disk path, Disk.Holds disk path (Utf8.encode first) →
        (items disk.read? path).result = .ok (itemsOf first)) ∧
      (Lines.Parted first.toList second.toList →
        itemsOf (first ++ second) = itemsOf first ++ itemsOf second ∧
          ∀ before after base extra, Disk.Moved before after base extra first second →
            ∀ job : Job, job.sources = [base, extra] →
              (∀ workingDirectory, (job.prepare workingDirectory before.read?).result =
                (job.prepare workingDirectory after.read?).result) ∧
              (job.run before).stdout = (job.run after).stdout) ∧
      (first.toList.getLast? = some '\r' →
        itemsOf (first ++ ("\n" ++ second)) = itemsOf first ++ itemsOf second) ∧
      (first ≠ "" → first.toList.getLast? ≠ some '\r' → first.toList.getLast? ≠ some '\n' →
        second ≠ "" →
        ∃ before last next after, Lines.ofText first = before ++ [last] ∧
          Lines.ofText second = next :: after ∧
          Lines.ofText (first ++ second) = before ++ (last ++ next) :: after) ∧
      ∀ (read? : Path → Option Bytes) (sources others : List Path) (found more : List Item),
        (extract read? sources).result = .ok found → (extract read? others).result = .ok more →
        (extract read? (sources ++ others)).result = .ok (found ++ more) := by
  refine ⟨?_, fun parted => ⟨itemsOf_append parted, ?_⟩, fun ends => ?_, Lines.ofText_append_open,
    fun _ _ _ _ _ => result_extract_append⟩
  · intro disk path holds
    rw [(reads_of_holds holds).items_eq]
  · intro before after base extra moved job sources
    have same : (extract before.read? job.sources).result =
        (extract after.read? job.sources).result := by
      rw [sources, result_extract_moved parted moved]
    have prepared (workingDirectory : Path) := Job.result_prepare_congr workingDirectory same
    refine ⟨prepared, ?_⟩
    rw [Job.stdout_run, Job.stdout_run, moved.workingDirectory, prepared]
  · rw [itemsOf, Lines.ofText_append_lf ends, List.flatMap_append]
    rfl

/-- A disk with one flag file, `options`. -/
def wholeDisk : Disk :=
  ⟨⟨[([Utf8.encode "options"], .file (Utf8.encode "-a\r-b c"))]⟩, []⟩

/-- The same disk with the second line in a file of its own, `more`. -/
def movedDisk : Disk :=
  ⟨⟨[([Utf8.encode "options"], .file (Utf8.encode "-a\r")),
    ([Utf8.encode "more"], .file (Utf8.encode "-b c"))]⟩, []⟩

/-- A job that prints the document of both files. -/
def dividedJob : Job :=
  ⟨.ofText "/", [.ofText "/options", .ofText "/more"], .printDocument, 0⟩

/-- Both files make the same document as the one file did; in front of an LF the same CR ends the
same line; and a line goes on across an end of file that is no end of line. -/
theorem items_divided_moved :
    Disk.Moved wholeDisk movedDisk (.ofText "/options") (.ofText "/more") "-a\r" "-b c" ∧
      (dividedJob.run wholeDisk).stdout = "CompileFlags:\n  Add:\n    - -a\n    - -bc\n" ∧
      (dividedJob.run movedDisk).stdout = "CompileFlags:\n  Add:\n    - -a\n    - -bc\n" ∧
      itemsOf "-a\r\n-b c" = itemsOf "-a\r" ++ itemsOf "-b c" ∧
      (∃ before last next after, Lines.ofText "-a\n-b" = before ++ [last] ∧
        Lines.ofText "c\n" = next :: after ∧
        Lines.ofText ("-a\n-b" ++ "c\n") = before ++ (last ++ next) :: after) ∧
      (extract movedDisk.read? ([.ofText "/options"] ++ [.ofText "/more"])).result =
        .ok (itemsOf "-a\r" ++ itemsOf "-b c") := by
  have moved :
      Disk.Moved wholeDisk movedDisk (.ofText "/options") (.ofText "/more") "-a\r" "-b c" :=
    { workingDirectory := rfl
      whole := Disk.holds_iff.mpr (by cbv)
      empty := fun bytes holds => by
        have missing : wholeDisk.read? (.ofText "/more") = none := by cbv
        rw [Disk.holds_iff, missing] at holds
        cases holds
      kept := Disk.holds_iff.mpr (by cbv)
      moved := Disk.holds_iff.mpr (by cbv) }
  obtain ⟨ofFirst, behindCr, beforeLf, -, together⟩ := items_divided "-a\r" "-b c"
  obtain ⟨-, same⟩ := behindCr (.inr (.inr ⟨by decide, by decide⟩))
  obtain ⟨-, printed⟩ := same wholeDisk movedDisk _ _ moved dividedJob rfl
  have whole : (dividedJob.run wholeDisk).stdout =
      "CompileFlags:\n  Add:\n    - -a\n    - -bc\n" := by cbv
  have read := ofFirst movedDisk _ moved.kept
  have readToo := (items_divided "-b c" "").1 movedDisk _ moved.moved
  have extracted {path : Path} {found : List Item}
      (read : (items movedDisk.read? path).result = .ok found) :
      (extract movedDisk.read? [path]).result = .ok found := by
    rw [extract, Logged.bind_of_ok read]
    simp [extract, pure, Except.map]
  refine ⟨moved, whole, printed ▸ whole, beforeLf (by decide), ?_, ?_⟩
  · obtain ⟨-, -, -, inside, -⟩ := items_divided "-a\n-b" "c\n"
    exact inside (by decide) (by decide) (by decide) (by decide)
  · exact together movedDisk.read? _ _ _ _ (extracted read) (extracted readToo)

end FlagFile

end EditorFlags
