import EditorFlags.Proofs.FileTree
import EditorFlags.Proofs.FlagFile
import EditorFlags.Proofs.Text.Endings
import EditorFlags.Proofs.Text.Lossy
import Mathlib

/-!
# What comes of reading flag files

A path that leads to a regular file with a text in it gives the lines of that text, one that
leads to no regular file gives nothing, and each of these is said in one event (`Reads`). A path
to a regular file that is no text is the one thing that ends the reading. So what is extracted
from a list of paths is known from its first such path, or from all of them if there is none
(`extract_outcome`).
-/

namespace EditorFlags

namespace Disk

variable {disk : Disk} {path : Path} {bytes : Bytes}

/-- That a path leads to a regular file with these bytes. -/
def Holds (disk : Disk) (path : Path) (bytes : Bytes) : Prop :=
  ∃ location, disk.locate .find path = .ok (.node location) ∧
    disk.tree.node? location = some (.file bytes)

/-- That a path leads to a regular file that is no text. -/
def HoldsNoText (disk : Disk) (path : Path) : Prop :=
  ∃ bytes, disk.Holds path bytes ∧ ∀ text, bytes ≠ Utf8.encode text

theorem holds_iff : disk.Holds path bytes ↔ disk.read? path = some bytes :=
  read?_eq_some_iff.symm

theorem holdsNoText_iff :
    disk.HoldsNoText path ↔ ∃ bytes, disk.read? path = some bytes ∧ Utf8.decode? bytes = none := by
  simp only [HoldsNoText, holds_iff]
  refine exists_congr fun bytes => and_congr_right fun _ => ?_
  constructor
  · intro noText
    cases decoded : Utf8.decode? bytes with
    | none => rfl
    | some text => exact absurd (Utf8.encode_of_decode? decoded).symm (noText text)
  · rintro broken text rfl
    simp at broken

end Disk

namespace FlagFile

variable {disk : Disk} {path : Path} {sources : List Path}

/-! ## The lines of one file -/

/-- That some lines are those of a text: with what ends them they make up the text. -/
def HasLines (text : String) (lines : List String) : Prop :=
  ∃ parts, Lines.IsCut text.toList parts ∧ lines = parts.map Lines.Part.text

theorem hasLines_iff {text : String} {lines : List String} :
    HasLines text lines ↔ lines = Lines.ofText text := by
  have ofCut {parts : List Lines.Part} (cut : Lines.IsCut text.toList parts) :
      parts.map Lines.Part.text = Lines.ofText text := by
    rw [Lines.ofText, cut.split_eq, List.map_map]
    rfl
  constructor
  · rintro ⟨parts, cut, rfl⟩
    exact ofCut cut
  · rintro rfl
    obtain ⟨parts, cut⟩ := Lines.exists_isCut text.toList
    exact ⟨parts, cut, (ofCut cut).symm⟩

theorem lines?_of_holds {text : String} (holds : disk.Holds path (Utf8.encode text)) :
    lines? disk.read? path = .ok (some (Lines.ofText text)) := by
  rw [lines?, Disk.holds_iff.mp holds]
  simp

/-- **CR LF, CR and LF all end a line.** The lines that are read from a regular file with a text in
it are the only ones that make up the text together with their endings, in the sense of
`Lines.IsCut`; there are none exactly if the text is empty. Taking every CR LF for an LF, then
every CR, and cutting behind each LF gives the same lines. -/
theorem lines_of_regular_file (disk : Disk) (path : Path) (text : String)
    (holds : disk.Holds path (Utf8.encode text)) :
    ∃ lines, lines? disk.read? path = .ok (some lines) ∧
      HasLines text lines ∧ (∀ others, HasLines text others → others = lines) ∧
      (lines = [] ↔ text = "") ∧
      lines = (Lines.cutBehindLf (Lines.withLf text.toList)).map
        fun piece => String.ofList (Lines.withoutLf piece) := by
  refine ⟨Lines.ofText text, lines?_of_holds holds, hasLines_iff.mpr rfl,
    fun others have' => hasLines_iff.mp have', ?_, ?_⟩
  · obtain ⟨parts, cut, lines⟩ := hasLines_iff.mpr rfl
    rw [lines, List.map_eq_nil_iff, cut.eq_nil_iff, String.toList_eq_nil_iff]
  · rw [Lines.ofText, Lines.split_eq_map_withoutLf, List.map_map]
    rfl

/-- A disk with two flag files, of which the second is no text, a directory, and links: one to the
first file, one that leads nowhere and one that leads to itself. -/
def tangledDisk : Disk :=
  ⟨⟨[([Utf8.encode "first"], .file (Utf8.encode "-a\r\r\n\n\r-b")),
    ([Utf8.encode "torn"], .file [0x2D, 0xFF]),
    ([Utf8.encode "folder"], .directory),
    ([Utf8.encode "alias"], .link (.ofText "folder/../first")),
    ([Utf8.encode "dangling"], .link (.ofText "nowhere")),
    ([Utf8.encode "ring"], .link (.ofText "ring"))]⟩, []⟩

/-- The second CR and the LF after it are one ending, and the first CR is one by itself. -/
theorem lines_of_regular_file_alias :
    tangledDisk.Holds (.ofText "/alias") (Utf8.encode "-a\r\r\n\n\r-b") ∧
      Lines.IsCut "-a\r\r\n\n\r-b".toList
        [⟨['-', 'a'], .cr⟩, ⟨[], .crLf⟩, ⟨[], .lf⟩, ⟨[], .cr⟩, ⟨['-', 'b'], .none⟩] ∧
      lines? tangledDisk.read? (.ofText "/alias") = .ok (some ["-a", "", "", "", "-b"]) := by
  have holds : tangledDisk.Holds (.ofText "/alias") (Utf8.encode "-a\r\r\n\n\r-b") :=
    Disk.holds_iff.mpr (by cbv)
  have cut : Lines.IsCut "-a\r\r\n\n\r-b".toList
      [⟨['-', 'a'], .cr⟩, ⟨[], .crLf⟩, ⟨[], .lf⟩, ⟨[], .cr⟩, ⟨['-', 'b'], .none⟩] := by
    refine ⟨by decide, ?_, ?_, ?_, ?_⟩ <;> simp [Lines.Unbroken]
  obtain ⟨lines, read, -, only, -⟩ := lines_of_regular_file tangledDisk (.ofText "/alias") _ holds
  obtain rfl := only ["-a", "", "", "", "-b"] ⟨_, cut, rfl⟩
  exact ⟨holds, cut, read⟩

/-! ## One path after the other -/

/-- What reading a path comes to unless it ends the reading: the items that it gives, and the event
that is said of it. -/
inductive Reads (disk : Disk) (path : Path) : List Item → Event → Prop where
  | skipped (nowhere : ∀ bytes, ¬disk.Holds path bytes) : Reads disk path [] (.skippedMissing path)
  | read {text : String} {lines : List String} (holds : disk.Holds path (Utf8.encode text))
      (its : HasLines text lines) :
      Reads disk path (lines.flatMap Item.ofLine) (.readLines lines.length path)

theorem Reads.items_eq {found : List Item} {event : Event} (reads : Reads disk path found event) :
    items disk.read? path = ⟨[event], .ok found⟩ := by
  cases reads with
  | skipped nowhere =>
      have unread : disk.read? path = none :=
        Option.eq_none_iff_forall_ne_some.mpr fun bytes found =>
          nowhere bytes (Disk.holds_iff.mpr found)
      have nothing : (Logged.ofExcept (lines? disk.read? path)).result = .ok none := by
        rw [lines?, unread]
        rfl
      rw [items, Logged.bind_of_ok nothing]
      rfl
  | read holds its =>
      obtain rfl := hasLines_iff.mp its
      have found : (Logged.ofExcept (lines? disk.read? path)).result = .ok (some _) :=
        lines?_of_holds holds
      rw [items, Logged.bind_of_ok found]
      rfl

theorem items_of_holdsNoText (noText : disk.HoldsNoText path) :
    items disk.read? path = ⟨[], .error (.unreadable path)⟩ := by
  obtain ⟨bytes, there, broken⟩ := Disk.holdsNoText_iff.mp noText
  have refused : (Logged.ofExcept (lines? disk.read? path)).result = .error (.unreadable path) := by
    rw [lines?, there]
    simp only [broken]
    rfl
  rw [items, Logged.bind_of_error refused]
  rfl

/-- A path is read, or it ends the reading. -/
theorem reads_or_holdsNoText (disk : Disk) (path : Path) :
    (∃ found event, Reads disk path found event) ∨ disk.HoldsNoText path := by
  by_cases somewhere : ∃ bytes, disk.Holds path bytes
  · obtain ⟨bytes, holds⟩ := somewhere
    by_cases isText : ∃ text, bytes = Utf8.encode text
    · obtain ⟨text, rfl⟩ := isText
      exact .inl ⟨_, _, .read holds (hasLines_iff.mpr rfl)⟩
    · exact .inr ⟨bytes, holds, not_exists.mp isText⟩
  · exact .inl ⟨_, _, .skipped (not_exists.mp somewhere)⟩

theorem Reads.not_holdsNoText {found : List Item} {event : Event}
    (reads : Reads disk path found event) : ¬disk.HoldsNoText path := by
  intro noText
  have same := reads.items_eq.symm.trans (items_of_holdsNoText noText)
  cases (Logged.mk.inj same).2

/-- That some paths are read one after the other, with what each of them comes to. -/
abbrev ReadsAll (disk : Disk) : List Path → List (List Item × Event) → Prop :=
  List.Forall₂ fun path come => Reads disk path come.1 come.2

/-- When some paths have been read the rest is still to be read. -/
theorem ReadsAll.extract_append {come : List (List Item × Event)}
    (reads : ReadsAll disk sources come) (rest : List Path) :
    extract disk.read? (sources ++ rest) =
      ⟨come.map (·.2) ++ (extract disk.read? rest).log,
        (extract disk.read? rest).result.map (come.flatMap (·.1) ++ ·)⟩ := by
  induction reads with
  | nil =>
      rw [List.nil_append]
      rcases extract disk.read? rest with ⟨log, _ | items⟩ <;> rfl
  | @cons path came paths others first _ ih =>
      have found : (items disk.read? path).result = .ok came.1 := by rw [first.items_eq]
      rw [List.cons_append, extract, Logged.bind_of_ok found, first.items_eq, ih]
      rcases extract disk.read? rest with ⟨log, _ | items⟩
      · rfl
      · simp [Functor.map, Logged.map, Except.map]

/-- All paths are read, or all that come before one that ends the reading. -/
theorem exists_readsAll (disk : Disk) (sources : List Path) :
    ∃ come, ReadsAll disk sources come ∨
      ∃ before path after, sources = before ++ path :: after ∧ ReadsAll disk before come ∧
        disk.HoldsNoText path := by
  induction sources with
  | nil => exact ⟨[], .inl .nil⟩
  | cons path rest ih =>
      rcases reads_or_holdsNoText disk path with ⟨found, event, reads⟩ | noText
      · obtain ⟨come, others | ⟨before, last, after, rfl, others, noText⟩⟩ := ih
        · exact ⟨(found, event) :: come, .inl (.cons reads others)⟩
        · exact ⟨(found, event) :: come, .inr ⟨path :: before, last, after, rfl, .cons reads others,
            noText⟩⟩
      · exact ⟨[], .inr ⟨[], path, rest, rfl, .nil, noText⟩⟩

theorem ReadsAll.not_holdsNoText {come : List (List Item × Event)}
    (reads : ReadsAll disk sources come) : ∀ path ∈ sources, ¬disk.HoldsNoText path := by
  induction reads with
  | nil => simp
  | cons first _ ih => exact List.forall_mem_cons.mpr ⟨first.not_holdsNoText, ih⟩

theorem ReadsAll.extract_eq {come : List (List Item × Event)}
    (reads : ReadsAll disk sources come) :
    extract disk.read? sources = ⟨come.map (·.2), .ok (come.flatMap (·.1))⟩ := by
  have whole := reads.extract_append []
  rw [List.append_nil] at whole
  rw [whole]
  simp [extract, pure, Except.map]

theorem ReadsAll.extract_eq_error {come : List (List Item × Event)}
    (reads : ReadsAll disk sources come) (noText : disk.HoldsNoText path) (after : List Path) :
    extract disk.read? (sources ++ path :: after) =
      ⟨come.map (·.2), .error (.unreadable path)⟩ := by
  have refused : (items disk.read? path).result = .error (.unreadable path) := by
    rw [items_of_holdsNoText noText]
  rw [reads.extract_append, extract, Logged.bind_of_error refused, items_of_holdsNoText noText]
  simp [Except.map]

/-- What paths come to is known from the items of each. -/
theorem ReadsAll.eq_of_items {come comeToo : List (List Item × Event)}
    (reads : ReadsAll disk sources come)
    (known : sources.map (items disk.read?) =
      comeToo.map fun (found, event) => ⟨[event], .ok found⟩) : come = comeToo := by
  induction reads generalizing comeToo with
  | nil => exact (List.map_eq_nil_iff.mp known.symm).symm
  | @cons path came paths others first _ ih =>
      obtain ⟨⟨found, event⟩, rest, rfl, same, later⟩ := List.map_eq_cons_iff.mp known.symm
      rw [first.items_eq, Logged.mk.injEq, List.singleton_inj, Except.ok.injEq] at same
      obtain ⟨rfl, rfl⟩ := same
      rw [ih later.symm]

/-- What is said of a path is said at the level of `debug`, and names the lines that the items come
from by their number. -/
theorem Reads.message {found : List Item} {event : Event} (reads : Reads disk path found event) :
    event.level = .debug ∧
      (found = [] ∧ event.message = s!"Skipping missing flag file {path.quoted}" ∨
        ∃ lines : List String, found = lines.flatMap Item.ofLine ∧
          event.message = s!"Read {lines.length} lines from {path.quoted}") := by
  cases reads with
  | skipped nowhere => exact ⟨rfl, .inl ⟨rfl, rfl⟩⟩
  | read holds its => exact ⟨rfl, .inr ⟨_, rfl, rfl⟩⟩

/-- **Reading goes on to the first path that is no text.** It fails if one of the paths leads to a
regular file that is no text, and only then, with the first such path. Otherwise it gives the items
of all paths, in order. What is said is one event for each path up to the end, at the level of
`debug`: that so many lines have been read from it, or that there is no such file. -/
theorem extract_outcome (disk : Disk) (sources : List Path) :
    ((∃ failure, (extract disk.read? sources).result = .error failure) ↔
        ∃ path ∈ sources, disk.HoldsNoText path) ∧
      (∃ come,
        ReadsAll disk sources come ∧
            extract disk.read? sources = ⟨come.map (·.2), .ok (come.flatMap (·.1))⟩ ∨
          ∃ before path after, sources = before ++ path :: after ∧
            (∀ earlier ∈ before, ¬disk.HoldsNoText earlier) ∧ disk.HoldsNoText path ∧
            ReadsAll disk before come ∧
            extract disk.read? sources = ⟨come.map (·.2), .error (.unreadable path)⟩) ∧
      ∀ path found event, Reads disk path found event → event.level = .debug ∧
        (found = [] ∧ event.message = s!"Skipping missing flag file {path.quoted}" ∨
          ∃ lines : List String, found = lines.flatMap Item.ofLine ∧
            event.message = s!"Read {lines.length} lines from {path.quoted}") := by
  obtain ⟨come, all | ⟨before, path, after, rfl, reads, noText⟩⟩ := exists_readsAll disk sources
  · refine ⟨?_, ⟨come, .inl ⟨all, all.extract_eq⟩⟩, fun _ _ _ => Reads.message⟩
    refine iff_of_false ?_ ?_
    · rintro ⟨failure, failed⟩
      rw [all.extract_eq] at failed
      cases failed
    · rintro ⟨path, member, noText⟩
      exact all.not_holdsNoText path member noText
  · have failed := reads.extract_eq_error noText after
    refine ⟨?_, ⟨come, .inr ⟨before, path, after, rfl, reads.not_holdsNoText, noText, reads,
      failed⟩⟩, fun _ _ _ => Reads.message⟩
    exact iff_of_true ⟨_, congrArg Logged.result failed⟩ ⟨path, by simp, noText⟩

/-- Paths of each kind but one to a file that is no text. -/
def tangledPaths : List Path :=
  [.ofText "/first", .ofText "/folder", .ofText "/dangling", .ofText "/ring", .ofText "/no/such",
    .ofText "/alias"]

/-- The items of the first of them, and of the last, which leads to the same file. -/
def tangledItems : List Item :=
  [.token "-a", .endOfLine, .token "", .endOfLine, .token "", .endOfLine, .token "", .endOfLine,
    .token "-b", .endOfLine]

/-- What reading each of these paths comes to. -/
def tangledCome : List (List Item × Event) :=
  [(tangledItems, .readLines 5 (.ofText "/first")), ([], .skippedMissing (.ofText "/folder")),
    ([], .skippedMissing (.ofText "/dangling")), ([], .skippedMissing (.ofText "/ring")),
    ([], .skippedMissing (.ofText "/no/such")), (tangledItems, .readLines 5 (.ofText "/alias"))]

/-- One path of each kind is read or passed over, and the items of the file come once for each
path to it. With the file that is no text behind them the reading ends there, and what comes after
it is not read again. -/
theorem extract_outcome_tangled :
    tangledDisk.HoldsNoText (.ofText "/torn") ∧
      ReadsAll tangledDisk tangledPaths tangledCome ∧
      extract tangledDisk.read? tangledPaths =
        ⟨tangledCome.map (·.2), .ok (tangledItems ++ tangledItems)⟩ ∧
      extract tangledDisk.read? (tangledPaths ++ [.ofText "/torn", .ofText "/first"]) =
        ⟨tangledCome.map (·.2), .error (.unreadable (.ofText "/torn"))⟩ := by
  have noText : tangledDisk.HoldsNoText (.ofText "/torn") :=
    Disk.holdsNoText_iff.mpr ⟨[0x2D, 0xFF], by cbv, by cbv⟩
  have known : tangledPaths.map (items tangledDisk.read?) =
      tangledCome.map fun (found, event) => ⟨[event], .ok found⟩ := by cbv
  have goesThrough : (extract tangledDisk.read? tangledPaths).result.isOk = true := by cbv
  obtain ⟨-, ⟨come, ⟨reads, ends⟩ | ⟨before, path, after, -, -, -, -, ends⟩⟩, -⟩ :=
    extract_outcome tangledDisk tangledPaths
  · obtain rfl := reads.eq_of_items known
    exact ⟨noText, reads, ends, reads.extract_eq_error noText [.ofText "/first"]⟩
  · rw [ends] at goesThrough
    cases goesThrough

end FlagFile

end EditorFlags
