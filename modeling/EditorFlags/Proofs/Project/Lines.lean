import EditorFlags.Proofs.Clangd.Document
import EditorFlags.Proofs.FlagFile.Stream
import EditorFlags.Proofs.Path.Moves
import EditorFlags.Proofs.Project
import EditorFlags.Proofs.Text.Lossy

/-!
# The lines of a document

A document has two lines and then one for each source line, as long as no entry has an LF in it.
Source lines have none. What can bring one in is the path of a resolved include, for the name of
a directory may have any character but the separator (`newline_mem_lineEntry_iff`). So a document
has its lines if no resolved path is broken by an LF, and only then.
-/

namespace EditorFlags

namespace Path

/-- That a path has an LF in it, which breaks the line on which it is written. -/
def Breaks (path : Path) : Prop :=
  (0x0A : UInt8) ∈ path.bytes

theorem newline_mem_lossyText_iff {path : Path} :
    '\n' ∈ path.lossyText.toList ↔ path.Breaks :=
  Utf8.mem_lossy_iff (c := 0x0A) (by decide)

/-- What breaks the absolute form of a path is in the path or in the working directory. -/
theorem breaks_of_absolute? {workingDirectory path base : Path}
    (made : absolute? workingDirectory path = some base) (breaks : base.Breaks) :
    workingDirectory.Breaks ∨ path.Breaks := by
  obtain ⟨move, member, inside⟩ := (mem_bytes_iff (by decide) (by decide)).mp breaks
  have found {other : Path} (among : move ∈ other.moves) : other.Breaks :=
    (mem_bytes_iff (by decide) (by decide)).mpr ⟨move, among, inside⟩
  rw [moves_of_absolute? made, movesFrom] at member
  split at member
  · exact .inr (found member)
  · exact (List.mem_append.mp member).imp found found

/-- What breaks a resolved path is in the base or in the path that has been resolved. -/
theorem breaks_of_resolve {base path : Path} (absolute : base.isAbsolute = true)
    (breaks : (base.resolve path).Breaks) : base.Breaks ∨ path.Breaks := by
  have joined : (0x0A : UInt8) ∈ (base.join path).bytes :=
    (resolve_sublist absolute path).subset breaks
  unfold join at joined
  split at joined
  · exact .inr joined
  · split at joined
    · exact List.mem_append.mp joined
    · have apart : (0x0A : UInt8) ≠ slash := by decide
      simpa [Breaks, apart] using joined

theorem not_breaks_ofText {text : String} (unbroken : '\n' ∉ text.toList) :
    ¬(ofText text).Breaks := by
  intro breaks
  have shown : '\n' ∈ (Utf8.lossy (Utf8.encode text)).toList := newline_mem_lossyText_iff.mpr breaks
  rw [Utf8.lossy_encode] at shown
  exact unbroken shown

end Path

namespace Clangd

variable {base : Path} {line operand rest : String}

/-- All of an include stands in its line. -/
theorem IsInclude.mem_line (shape : IsInclude line operand rest) {c : Char}
    (member : c ∈ operand.toList ∨ c ∈ rest.toList) : c ∈ line.toList := by
  obtain ⟨indent, gap, more, spelled⟩ := shape.spelled
  rw [spelled]
  simp only [List.mem_append, List.mem_cons]
  tauto

theorem newline_mem_withoutSpaces_iff {text : String} :
    '\n' ∈ (Lines.withoutSpaces text).toList ↔ '\n' ∈ text.toList := by
  simp [Lines.withoutSpaces]

/-- The entry of a source line is broken by the path of an include or not at all. -/
theorem newline_mem_lineEntry_iff (unbroken : '\n' ∉ line.toList) :
    '\n' ∈ (lineEntry base line).toList ↔
      ∃ operand rest, IsInclude line operand rest ∧ (base.resolve (.ofText operand)).Breaks := by
  unfold lineEntry
  split
  · next operand rest found =>
      have shape := isInclude_of_include? found
      have unbrokenRest : '\n' ∉ (Lines.withoutSpaces rest).toList := fun member =>
        unbroken (shape.mem_line (.inr (newline_mem_withoutSpaces_iff.mp member)))
      rw [String.toList_append, String.toList_append, List.mem_append, List.mem_append,
        Path.newline_mem_lossyText_iff]
      constructor
      · rintro ((flag | breaks) | member)
        · exact absurd flag (by decide)
        · exact ⟨operand, rest, shape, breaks⟩
        · exact absurd member unbrokenRest
      · rintro ⟨other, more, shapeToo, breaks⟩
        obtain ⟨rfl, rfl⟩ : operand = other ∧ rest = more := by
          simpa [found] using include?_of_isInclude shapeToo
        exact .inl (.inr breaks)
  · next notFound =>
      rw [newline_mem_withoutSpaces_iff]
      refine iff_of_false unbroken ?_
      rintro ⟨operand, rest, shape, -⟩
      rw [include?_of_isInclude shape] at notFound
      cases notFound

/-! ## Cutting a document -/

/-- The lines of a document when each source line comes to one: the header's two, and the entry
of each source line with its mark. -/
def lineForLine (base : Path) (lines : List String) : List String :=
  "CompileFlags:" :: "  Add:" :: lines.map fun line =>
    "    - " ++ (Entry.empty.addAll base (Lines.words line)).text

theorem header_documentLines (absolute : base.isAbsolute = true) (lines : List String) :
    header ++ documentLines base lines =
      String.join ((lineForLine base lines).map (· ++ "\n")) := by
  have each : ∀ line ∈ lines, "    - " ++ lineEntry base line ++ "\n" =
      "    - " ++ (Entry.empty.addAll base (Lines.words line)).text ++ "\n" := by
    intro line _
    rw [addAll_words absolute]
  rw [documentLines, List.map_congr_left each, lineForLine, List.map_cons, List.map_cons,
    List.map_map, String.join_cons, String.join_cons, ← String.append_assoc]
  rfl

/-- A document is cut after each of its lines, and wherever else one of them has an LF. -/
theorem splitOn_document (absolute : base.isAbsolute = true) (lines : List String) :
    (header ++ documentLines base lines).toList.splitOn '\n' =
      (lineForLine base lines).flatMap (fun part => part.toList.splitOn '\n') ++ [[]] := by
  have ended : (header ++ documentLines base lines).toList =
      ((lineForLine base lines).map String.toList).flatMap (· ++ ['\n']) := by
    rw [header_documentLines absolute, String.toList_join, List.flatMap_map, List.flatMap_map]
    simp
  rw [ended, Cut.splitOn_flatMap_ended, List.flatMap_map]

/-- No line of a document has an LF in it if none comes from the path of an include. -/
theorem unbroken_lineForLine_iff (absolute : base.isAbsolute = true) {lines : List String}
    (unbroken : ∀ line ∈ lines, '\n' ∉ line.toList) :
    (∀ part ∈ (lineForLine base lines).map String.toList, '\n' ∉ part) ↔
      ∀ line ∈ lines, ∀ operand rest, IsInclude line operand rest →
        ¬(base.resolve (.ofText operand)).Breaks := by
  have ofLine : ∀ line ∈ lines,
      ('\n' ∉ ("    - " ++ (Entry.empty.addAll base (Lines.words line)).text).toList ↔
        ∀ operand rest, IsInclude line operand rest →
          ¬(base.resolve (.ofText operand)).Breaks) := by
    intro line member
    have mark : '\n' ∉ "    - ".toList := by decide
    rw [addAll_words absolute, String.toList_append, List.mem_append, or_iff_right mark,
      newline_mem_lineEntry_iff (unbroken line member)]
    push Not
    rfl
  have headed : '\n' ∉ "CompileFlags:".toList ∧ '\n' ∉ "  Add:".toList := by decide
  simp only [lineForLine, List.map_cons, List.map_map, List.forall_mem_cons, List.forall_mem_map,
    headed, not_false_eq_true, true_and, Function.comp_apply]
  exact forall₂_congr ofLine

end Clangd

namespace Project

open Clangd

/-- **A document line for each source line.** If the flag files that are there are text, the
document of an opened project is cut at its LFs into the lines that it is to have, and nothing
behind the last LF, but for lines that are cut themselves. None is if no path that an include is
resolved to has an LF in it, and only then; so none is if neither the directory of the project
nor the working directory has one. -/
theorem document_lines_iff (disk : Disk) (directory : Path) (sources : List Path)
    (project : Project)
    (opened : openAt disk.workingDirectory.path directory sources = .ok project)
    (readable : ∀ path ∈ sources, ∀ bytes, disk.read? path = some bytes →
      (Utf8.decode? bytes).isSome) :
    ∃ text, (project.extract disk.read? >>= document).result = .ok text ∧
      text.toList.splitOn '\n' =
        ((lineForLine project.base (FlagFile.sourceLines disk.read? sources)).flatMap
          fun part => part.toList.splitOn '\n') ++ [[]] ∧
      (text.toList.splitOn '\n' =
          (lineForLine project.base (FlagFile.sourceLines disk.read? sources)).map
            String.toList ++ [[]] ↔
        ∀ line ∈ FlagFile.sourceLines disk.read? sources, ∀ operand rest,
          IsInclude line operand rest → ¬(project.base.resolve (.ofText operand)).Breaks) ∧
      (¬disk.workingDirectory.path.Breaks → ¬directory.Breaks →
        text.toList.splitOn '\n' =
          (lineForLine project.base (FlagFile.sourceLines disk.read? sources)).map
            String.toList ++ [[]]) := by
  have absolute := isAbsolute_base opened (Location.isAbsolute_path _)
  obtain ⟨base, made, rfl⟩ := openAt_eq_ok_iff.mp opened
  have extracted : ((⟨base, sources, []⟩ : Project).extract disk.read?).result =
      .ok ⟨base, sources, (FlagFile.sourceLines disk.read? sources).flatMap Item.ofLine⟩ := by
    rw [result_extract_project, FlagFile.result_extract readable]
    rfl
  generalize linesAre : FlagFile.sourceLines disk.read? sources = lines at extracted ⊢
  have unbroken : ∀ line ∈ lines, '\n' ∉ line.toList := by
    intro line member newline
    rw [← linesAre] at member
    exact (FlagFile.unbroken_of_mem_sourceLines member '\n' newline).2 rfl
  have cut := splitOn_document absolute lines
  have whole : (header ++ documentLines base lines).toList.splitOn '\n' =
      (lineForLine base lines).map String.toList ++ [[]] ↔
      ∀ line ∈ lines, ∀ operand rest, IsInclude line operand rest →
        ¬(base.resolve (.ofText operand)).Breaks := by
    rw [cut, List.append_left_inj, ← unbroken_lineForLine_iff absolute unbroken,
      ← Cut.flatMap_splitOn_eq_self_iff, List.flatMap_map]
  refine ⟨header ++ documentLines base lines, ?_, cut, whole, ?_⟩
  · rw [Logged.bind_of_ok extracted]
    exact result_render absolute lines
  · intro workingDirectoryWhole directoryWhole
    apply whole.mpr
    intro line member operand rest shape breaks
    rcases Path.breaks_of_resolve absolute breaks with inBase | inOperand
    · exact (Path.breaks_of_absolute? made inBase).elim workingDirectoryWhole directoryWhole
    · have inLine : '\n' ∉ operand.toList := fun newline =>
        unbroken line member (shape.mem_line (.inl newline))
      exact Path.not_breaks_ofText inLine inOperand

/-- A disk with a flag file that includes a directory beside that of the project. -/
def parentDisk : Disk :=
  ⟨⟨[([Utf8.encode "flags"], .file (Utf8.encode "-I ../x\n-c\n"))]⟩, []⟩

/-- The name of the directory has an LF in it, but the include leaves that directory. -/
theorem document_lines_parent :
    openAt parentDisk.workingDirectory.path (.ofText "/a\nb") [.ofText "/flags"] =
        .ok ⟨.ofText "/a\nb", [.ofText "/flags"], []⟩ ∧
      ∃ text, (Project.extract parentDisk.read? ⟨.ofText "/a\nb", [.ofText "/flags"], []⟩ >>=
          document).result = .ok text ∧
        text.toList.splitOn '\n' =
          ["CompileFlags:", "  Add:", "    - -I/x", "    - -c", ""].map String.toList := by
  have opened : openAt parentDisk.workingDirectory.path (.ofText "/a\nb") [.ofText "/flags"] =
      .ok ⟨.ofText "/a\nb", [.ofText "/flags"], []⟩ := by cbv
  have there : parentDisk.read? (.ofText "/flags") = some (Utf8.encode "-I ../x\n-c\n") := by cbv
  have readable : ∀ path ∈ [Path.ofText "/flags"], ∀ bytes,
      parentDisk.read? path = some bytes → (Utf8.decode? bytes).isSome := by
    simp [there]
  obtain ⟨text, rendered, -, whole, -⟩ :=
    document_lines_iff parentDisk (.ofText "/a\nb") [.ofText "/flags"] _ opened readable
  have linesAre : FlagFile.sourceLines parentDisk.read? [.ofText "/flags"] =
      ["-I ../x", "-c"] := by cbv
  rw [linesAre] at whole
  refine ⟨opened, text, rendered, ?_⟩
  have cut := whole.mpr (by
    intro line member operand rest shape
    have found := include?_of_isInclude shape
    rcases List.mem_pair.mp member with rfl | rfl
    · have operandIs : include? "-I ../x" = some ("../x", "") := by cbv
      obtain ⟨rfl, rfl⟩ : "../x" = operand ∧ "" = rest := by simpa [operandIs] using found
      have resolvedIs : (Path.ofText "/a\nb").resolve (.ofText "../x") = .ofText "/x" := by cbv
      rw [resolvedIs]
      exact Path.not_breaks_ofText (by decide)
    · have none : include? "-c" = none := by cbv
      rw [none] at found
      cases found)
  rw [cut]
  cbv

/-- A disk with a flag file that includes a directory inside of that of the project. -/
def childDisk : Disk :=
  ⟨⟨[([Utf8.encode "flags"], .file (Utf8.encode "-I ./x\n"))]⟩, []⟩

/-- Inside of a directory that has an LF in its name, one include is two lines of the document,
and neither is the entry. -/
theorem document_lines_child :
    openAt childDisk.workingDirectory.path (.ofText "/a\nb") [.ofText "/flags"] =
        .ok ⟨.ofText "/a\nb", [.ofText "/flags"], []⟩ ∧
      childDisk.read? (.ofText "/flags") = some (Utf8.encode "-I ./x\n") ∧
      FlagFile.sourceLines childDisk.read? [.ofText "/flags"] = ["-I ./x"] ∧
      ∃ text, (Project.extract childDisk.read? ⟨.ofText "/a\nb", [.ofText "/flags"], []⟩ >>=
          document).result = .ok text ∧
        text.toList.splitOn '\n' =
          ["CompileFlags:", "  Add:", "    - -I/a", "b/x", ""].map String.toList ∧
        text.toList.splitOn '\n' ≠
          (lineForLine (.ofText "/a\nb") ["-I ./x"]).map String.toList ++ [[]] := by
  have five : "CompileFlags:\n  Add:\n    - -I/a\nb/x\n".toList.splitOn '\n' =
      ["CompileFlags:", "  Add:", "    - -I/a", "b/x", ""].map String.toList := by decide
  refine ⟨by cbv, by cbv, by cbv, "CompileFlags:\n  Add:\n    - -I/a\nb/x\n", by cbv, five, ?_⟩
  intro whole
  have sameLength := congrArg List.length (five.symm.trans whole)
  simp [lineForLine] at sameLength

end Project

end EditorFlags
