import EditorFlags.Program
import EditorFlags.Proofs.Clangd.Interrupted
import EditorFlags.Proofs.FlagFile.Stream
import EditorFlags.Proofs.Project

/-!
# Nothing is dropped

A writer drops what comes after the last end of line. The items of flag files end with an
end of line, so that the writer that has taken them has begun a new entry and put nothing
in it (`entry_run_of_ended`), and no run of the program says that it has dropped a line
(`Program.undropped_run`). Together with what is known of streams, items say no more and no
less than the lines that they came from.
-/

namespace EditorFlags

namespace Event

/-- That no event says of a line that it has been dropped. -/
def Undropped (log : List Event) : Prop :=
  ∀ entry, .droppedLine entry ∉ log

theorem undropped_nil : Undropped [] :=
  fun _ => List.not_mem_nil

theorem undropped_append {first second : List Event} (before : Undropped first)
    (after : Undropped second) : Undropped (first ++ second) := by
  intro entry said
  rcases List.mem_append.mp said with now | later
  · exact before entry now
  · exact after entry later

/-- A bind drops nothing if none of its parts does. -/
theorem undropped_bind {α β : Type} {first : Logged α} {next : α → Logged β}
    (before : Undropped first.log)
    (after : ∀ value, first.result = .ok value → Undropped (next value).log) :
    Undropped (first >>= next).log := by
  intro entry said
  rcases Logged.mem_log_bind said with now | ⟨value, came, later⟩
  · exact before entry now
  · exact after value came entry later

end Event

open Event

namespace Clangd.Writer

variable {writer : Writer}

/-! ## What a writer is left with -/

theorem run_append (writer : Writer) (first second : List Step) :
    writer.run (first ++ second) = (writer.run first).run second := by
  induction first generalizing writer with
  | nil => rfl
  | cons step first ih => exact ih (writer.step step).1

/-- Without a limit every item is taken, and there is still no limit. -/
theorem push_of_unlimited (unlimited : writer.sink.room = none) (item : Item) :
    (writer.push item).2.2 = .ok () ∧ (writer.push item).1.sink.room = none := by
  cases item with
  | token token => exact ⟨rfl, unlimited⟩
  | endOfLine =>
      rw [push_endOfLine_of_ok (Sink.write_unlimited unlimited)]
      exact ⟨rfl, unlimited⟩

theorem run_of_unlimited (unlimited : writer.sink.room = none) (items : List Item) :
    (writer.run (items.map .push)).sink.room = none := by
  induction items generalizing writer with
  | nil => exact unlimited
  | cons item items ih => exact ih (push_of_unlimited unlimited item).2

/-- Items that end with an end of line leave an empty entry. -/
theorem entry_run_of_ended (unlimited : writer.sink.room = none) (fresh : writer.entry = .empty)
    {items : List Item} (ended : items = [] ∨ items.getLast? = some .endOfLine) :
    (writer.run (items.map .push)).entry = .empty := by
  rcases ended with rfl | ended
  · exact fresh
  · obtain ⟨before, rfl⟩ := List.getLast?_eq_some_iff.mp ended
    have stillUnlimited := run_of_unlimited unlimited before
    rw [List.map_append, run_append]
    show ((writer.run (before.map .push)).push .endOfLine).1.entry = .empty
    rw [push_endOfLine_of_ok (Sink.write_unlimited stillUnlimited)]

/-! ## What a writer says -/

theorem undropped_push (writer : Writer) (item : Item) : Undropped (writer.push item).2.1 := by
  intro entry said
  cases item with
  | token token =>
      have added : (writer.push (.token token)).2.1 = (writer.entry.add writer.base token).2 := rfl
      rw [added, Entry.add] at said
      split at said
      · dsimp only at said
        split at said <;> simp at said
      · simp at said
  | endOfLine =>
      have events : (writer.push .endOfLine).2.1 = writer.entry.endEvents := by
        obtain ⟨sink, pushed | ⟨fault, pushed⟩⟩ := writer.push_endOfLine_cases
        · rw [pushed]
        · rw [pushed]
      rw [events, Entry.endEvents] at said
      split at said <;> simp at said

/-- Nothing is dropped of items that leave an empty entry. -/
theorem undropped_pushAll (unlimited : writer.sink.room = none) {items : List Item}
    (done : (writer.run (items.map .push)).entry = .empty) :
    Undropped (writer.pushAll items).log := by
  induction items generalizing writer with
  | nil =>
      have nothing : writer.entry = .empty := done
      intro entry said
      simp [pushAll, finish, nothing, Entry.empty] at said
  | cons item items ih =>
      obtain ⟨taken, stillUnlimited⟩ := push_of_unlimited unlimited item
      have own := undropped_push writer item
      have later := ih stillUnlimited done
      rcases pushed : writer.push item with ⟨after, events, result⟩
      rw [pushed] at taken own later
      obtain rfl : result = .ok () := taken
      rw [pushAll, pushed]
      exact undropped_append own later

end Clangd.Writer

theorem Clangd.undropped_render (base : Path) {items : List Item}
    (ended : items = [] ∨ items.getLast? = some .endOfLine) :
    Undropped (render base items).log := by
  have written : Undropped (write base items .unlimited).log := by
    rw [write, Writer.start_unlimited]
    exact Writer.undropped_pushAll rfl (Writer.entry_run_of_ended rfl rfl ended)
  unfold render
  dsimp only
  split
  · exact written
  · exact written
  · exact written

/-! ## Whole runs -/

namespace FlagFile

variable {read? : Path → Option Bytes}

theorem undropped_items (path : Path) : Undropped (items read? path).log := by
  apply undropped_bind undropped_nil
  intro lines _
  cases lines with
  | none =>
      apply undropped_bind
      · simp [Logged.say, Undropped]
      · exact fun _ _ => undropped_nil
  | some lines =>
      apply undropped_bind
      · simp [Logged.say, Undropped]
      · exact fun _ _ => undropped_nil

theorem undropped_extract (sources : List Path) : Undropped (extract read? sources).log := by
  induction sources with
  | nil => exact undropped_nil
  | cons path rest ih =>
      apply undropped_bind (undropped_items path)
      intro found _
      exact ih

/-- What has been extracted is a stream. -/
theorem isStream_of_extract {sources : List Path} {items : List Item}
    (extracted : (extract read? sources).result = .ok items) : Item.IsStream items := by
  obtain ⟨-, rfl⟩ := result_extract_eq_ok_iff.mp extracted
  exact Item.isStream_flatMap_ofLine fun line => unbroken_of_mem_sourceLines

end FlagFile

namespace Job

theorem undropped_prepare (workingDirectory : Path) (read? : Path → Option Bytes) (job : Job) :
    Undropped (job.prepare workingDirectory read?).log := by
  apply undropped_bind undropped_nil
  intro opened _
  apply undropped_bind
  · apply undropped_bind (FlagFile.undropped_extract opened.sources)
    exact fun _ _ => undropped_nil
  intro project extracted
  -- What is rendered has been extracted.
  have documented : Undropped project.document.log := by
    rw [Project.result_extract_project] at extracted
    cases read : (FlagFile.extract read? opened.sources).result with
    | error failure => simp [read, Except.map] at extracted
    | ok items =>
        rw [read] at extracted
        obtain rfl := Except.ok.inj extracted
        exact Clangd.undropped_render _ (FlagFile.isStream_of_extract read).ended
  cases job.goal with
  | settings request =>
      apply undropped_bind
      · apply undropped_bind
        · simp [Logged.sayAll, Request.events, Undropped]
        · exact fun _ _ => undropped_nil
      intro settings _
      apply undropped_bind
      · simp [Logged.say, Undropped]
      · exact fun _ _ => undropped_nil
  | printDocument => exact undropped_bind documented fun _ _ => undropped_nil
  | saveDocument path => exact undropped_bind documented fun _ _ => undropped_nil

theorem undropped_save (disk : Disk) (path : Path) (text : String) :
    Undropped (disk.save path text).log := by
  unfold Disk.save
  dsimp only
  split
  · exact undropped_nil
  · simp [Undropped]

theorem undropped_run (disk : Disk) (job : Job) : Undropped (job.run disk).log := by
  have prepared := undropped_prepare disk.workingDirectory.path disk.read? job
  unfold run
  dsimp only
  split
  · exact prepared
  · exact prepared
  · next path text _ =>
      have saved := undropped_save disk path text
      split
      · exact undropped_append prepared saved
      · exact undropped_append prepared saved

end Job

/-- No run of the program says that it has dropped a line. -/
theorem Program.undropped_run (words : List Bytes) (filterText : Option String) (disk : Disk) :
    Undropped (run words filterText disk).log := by
  intro entry said
  unfold run at said
  split at said
  · simp at said
  · next job _ =>
      split at said
      · simp at said
      · exact Job.undropped_run disk job entry (List.mem_of_mem_filter said)

/-! ## Items and lines -/

/-- **Items say what lines say.** If the flag files that are there are text, the items
extracted from them form a stream, which cut at the ends of line gives back the lines of the
files, has a word for each line and one more for each space, and leaves nothing to drop.
Every stream is what is extracted from the file with its text. So different lines have
different items, and no run says that it has dropped a line. -/
theorem Item.streams_encode_lines :
    (∀ (disk : Disk) (sources : List Path),
      (∀ path ∈ sources, ∀ bytes, disk.read? path = some bytes →
        (Utf8.decode? bytes).isSome) →
      ∃ items, (FlagFile.extract disk.read? sources).result = .ok items ∧
        lines items = FlagFile.sourceLines disk.read? sources ∧
        IsStream items ∧
        (tokens items).length = (FlagFile.sourceLines disk.read? sources).length +
          ((FlagFile.sourceLines disk.read? sources).flatMap String.toList).count ' ' ∧
        ∀ base, ((Clangd.Writer.start base .unlimited).1.run (items.map .push)).entry =
          .empty) ∧
    (∀ (items : List Item), IsStream items → ∀ (disk : Disk) (path : Path),
      disk.read? path = some (Utf8.encode (text items)) →
      (FlagFile.extract disk.read? [path]).result = .ok items) ∧
    (∀ (disk other : Disk) (sources others : List Path) (items : List Item),
      (FlagFile.extract disk.read? sources).result = .ok items →
      (FlagFile.extract other.read? others).result = .ok items →
      FlagFile.sourceLines disk.read? sources = FlagFile.sourceLines other.read? others) ∧
    ∀ (words : List Bytes) (filterText : Option String) (disk : Disk) (entry : String),
      .droppedLine entry ∉ (Program.run words filterText disk).log := by
  refine ⟨?_, ?_, ?_, Program.undropped_run⟩
  · intro disk sources readable
    have extracted := FlagFile.result_extract readable
    have stream := FlagFile.isStream_of_extract extracted
    refine ⟨_, extracted, lines_flatMap_ofLine _, stream, length_tokens_flatMap_ofLine _, ?_⟩
    intro base
    rw [Clangd.Writer.start_unlimited]
    exact Clangd.Writer.entry_run_of_ended rfl rfl stream.ended
  · intro items stream disk path found
    exact FlagFile.result_extract_text stream found
  · intro disk other sources others items extracted extractedToo
    obtain ⟨-, items_eq⟩ := FlagFile.result_extract_eq_ok_iff.mp extracted
    obtain ⟨-, items_eq_too⟩ := FlagFile.result_extract_eq_ok_iff.mp extractedToo
    have same := congrArg lines (items_eq.symm.trans items_eq_too)
    rwa [lines_flatMap_ofLine, lines_flatMap_ofLine] at same

namespace Item

/-- A disk with a flag file whose first line has spaces at its ends, and whose last line has
none of the characters that end lines after it. -/
def spacedDisk : Disk :=
  ⟨⟨[([Utf8.encode "f"], .file (Utf8.encode " -O2  -g \r\n\n-c"))]⟩, []⟩

/-- Its items. -/
def spacedItems : List Item :=
  [.token "", .token "-O2", .token "", .token "-g", .token "", .endOfLine,
    .token "", .endOfLine, .token "-c", .endOfLine]

/-- A disk with these items in their own file. -/
def spacedAgain : Disk :=
  ⟨⟨[([Utf8.encode "g"], .file (Utf8.encode " -O2  -g \n\n-c\n"))]⟩, []⟩

/-- Both have the same items, and so the same lines. -/
theorem streams_encode_lines_spaced :
    (FlagFile.extract spacedDisk.read? [.ofText "/f"]).result = .ok spacedItems ∧
      IsStream spacedItems ∧
      (FlagFile.extract spacedAgain.read? [.ofText "/g"]).result = .ok spacedItems ∧
      FlagFile.sourceLines spacedDisk.read? [.ofText "/f"] =
        FlagFile.sourceLines spacedAgain.read? [.ofText "/g"] := by
  have there : spacedDisk.read? (.ofText "/f") =
      some (Utf8.encode " -O2  -g \r\n\n-c") := by cbv
  have readable : ∀ path ∈ [Path.ofText "/f"], ∀ bytes, spacedDisk.read? path = some bytes →
      (Utf8.decode? bytes).isSome := by
    simp [there]
  obtain ⟨forth, back, injective, -⟩ := streams_encode_lines
  obtain ⟨items, extracted, -, stream, -, -⟩ := forth spacedDisk [.ofText "/f"] readable
  have known : (FlagFile.extract spacedDisk.read? [.ofText "/f"]).result = .ok spacedItems := by
    cbv
  obtain rfl : items = spacedItems := Except.ok.inj (extracted.symm.trans known)
  have again := back spacedItems stream spacedAgain (.ofText "/g") (by cbv)
  exact ⟨known, stream, again, injective _ _ _ _ _ known again⟩

end Item

end EditorFlags
