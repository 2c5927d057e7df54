import EditorFlags.Proofs.Clangd.Group
import EditorFlags.Proofs.Clangd.Include
import EditorFlags.Proofs.FlagFile
import EditorFlags.FileTree
import Mathlib

/-!
# The document of a project's flag files

A document is the header and one line for each line of the flag files, in their
order. What stands on it depends on that source line alone (`lineEntry`): it is
the line without its spaces, with one exception for includes of a relative path.
-/

namespace EditorFlags.Clangd

/-- The lines of a document for some source lines. -/
def documentLines (base : Path) (lines : List String) : String :=
  String.join (lines.map fun line => "    - " ++ lineEntry base line ++ "\n")

/-- The words of a line are the group of tokens that come to its entry. -/
theorem groupLines_words {base : Path} (absolute : base.isAbsolute = true) (lines : List String) :
    groupLines base (lines.map Lines.words) = documentLines base lines := by
  rw [groupLines, documentLines, List.map_map]
  congr 1
  apply List.map_congr_left
  intro line _
  show (Entry.empty.addAll base (Lines.words line)).line = _
  rw [Entry.line, addAll_words absolute]

/-- Lines are rendered one by one, and rendering them never fails. -/
theorem result_render {base : Path} (absolute : base.isAbsolute = true) (lines : List String) :
    (render base (lines.flatMap Item.ofLine)).result =
      .ok (header ++ documentLines base lines) := by
  rw [Item.flatMap_ofLine_eq_ofGroups, result_render_groups, groupLines_words absolute]

/-- **A document line for each source line.** If the flag files that are there are
text, then extracting them and rendering what was extracted goes through, and
gives the header and, for each of their lines in order, one entry that depends on
that line alone: for the include of a relative path its flag, the operand resolved
against the base, and the rest of the line without its spaces; for any other line
the line without its spaces. -/
theorem render_extract (disk : Disk) (sources : List Path) (base : Path)
    (absolute : base.isAbsolute = true)
    (readable : ∀ path ∈ sources, ∀ bytes, disk.read? path = some bytes →
      (Utf8.decode? bytes).isSome) :
    (FlagFile.extract disk.read? sources >>= render base).result =
        .ok ("CompileFlags:\n  Add:\n" ++ String.join
          ((FlagFile.sourceLines disk.read? sources).map fun line =>
            "    - " ++ lineEntry base line ++ "\n")) ∧
      ∀ line,
        (∀ operand rest, IsInclude line operand rest →
          lineEntry base line =
            "-I" ++ (base.resolve (.ofText operand)).lossyText ++ Lines.withoutSpaces rest) ∧
        ((¬ ∃ operand rest, IsInclude line operand rest) →
          lineEntry base line = Lines.withoutSpaces line) := by
  constructor
  · rw [Logged.bind_of_ok (FlagFile.result_extract readable)]
    exact result_render absolute _
  · intro line
    constructor
    · intro operand rest shape
      rw [lineEntry, include?_of_isInclude shape]
    · intro plain
      cases found : include? line with
      | none => rw [lineEntry, found]
      | some parts => exact absurd ⟨parts.1, parts.2, isInclude_of_include? found⟩ plain

/-- A disk with one flag file, whose first line is an include in many tokens. -/
def includeDisk : Disk :=
  ⟨⟨[([Utf8.encode "flags"], .file (Utf8.encode " - I  ./x -g\n-Wall  -O2"))]⟩, []⟩

/-- The include is resolved and the rest of the lines glued; the second flag file
is not there. -/
theorem render_extract_includeDisk :
    (∀ path ∈ [Path.ofText "/flags", Path.ofText "/more"], ∀ bytes,
      includeDisk.read? path = some bytes → (Utf8.decode? bytes).isSome) ∧
    (FlagFile.extract includeDisk.read? [Path.ofText "/flags", Path.ofText "/more"] >>=
        render (.ofText "/p")).result =
      .ok "CompileFlags:\n  Add:\n    - -I/p/x-g\n    - -Wall-O2\n" := by
  have there : includeDisk.read? (.ofText "/flags") =
      some (Utf8.encode " - I  ./x -g\n-Wall  -O2") := by cbv
  have missing : includeDisk.read? (.ofText "/more") = none := by cbv
  have readable : ∀ path ∈ [Path.ofText "/flags", Path.ofText "/more"], ∀ bytes,
      includeDisk.read? path = some bytes → (Utf8.decode? bytes).isSome := by
    simp [there, missing]
  refine ⟨readable, ?_⟩
  rw [(render_extract includeDisk _ (.ofText "/p") (by cbv) readable).1]
  cbv

end EditorFlags.Clangd
