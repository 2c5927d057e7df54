import EditorFlags.FlagFile
import EditorFlags.Proofs.Logged

/-!
# What is extracted from flag files

The extraction goes through if every flag file that is there is text, and only then
(`result_extract_eq_ok_iff`). Its items are those of the lines of the files, in order.
-/

namespace EditorFlags.FlagFile

/-- The lines of the flag file at a path; none if there is no such file. -/
def linesAt (read? : Path → Option Bytes) (path : Path) : List String :=
  match (read? path).bind Utf8.decode? with
  | none => []
  | some text => Lines.ofText text

/-- The lines of some flag files, in order. -/
def sourceLines (read? : Path → Option Bytes) (sources : List Path) : List String :=
  sources.flatMap (linesAt read?)

variable {read? : Path → Option Bytes}

theorem sourceLines_append (sources others : List Path) :
    sourceLines read? (sources ++ others) =
      sourceLines read? sources ++ sourceLines read? others :=
  List.flatMap_append

theorem result_items {path : Path}
    (readable : ∀ bytes, read? path = some bytes → (Utf8.decode? bytes).isSome) :
    (items read? path).result = .ok ((linesAt read? path).flatMap Item.ofLine) := by
  cases found : read? path with
  | none =>
      have nothing : (Logged.ofExcept (lines? read? path)).result = .ok none := by
        simp [Logged.ofExcept, lines?, found]
      simp only [items, Logged.bind_of_ok nothing, linesAt, found]
      rfl
  | some bytes =>
      obtain ⟨text, decoded⟩ := Option.isSome_iff_exists.mp (readable bytes found)
      have read : (Logged.ofExcept (lines? read? path)).result =
          .ok (some (Lines.ofText text)) := by
        simp [Logged.ofExcept, lines?, found, decoded]
      simp only [items, Logged.bind_of_ok read, linesAt, found, Option.bind_some, decoded]
      rfl

theorem result_extract {sources : List Path}
    (readable : ∀ path ∈ sources, ∀ bytes, read? path = some bytes → (Utf8.decode? bytes).isSome) :
    (extract read? sources).result = .ok ((sourceLines read? sources).flatMap Item.ofLine) := by
  induction sources with
  | nil => rfl
  | cons path rest ih =>
      have first := result_items (readable path List.mem_cons_self)
      have others := ih fun other member => readable other (List.mem_cons_of_mem path member)
      rw [extract, Logged.bind_of_ok first, Logged.result_map, others]
      simp [sourceLines, Except.map]

/-- A flag file that is no text ends the reading. -/
theorem readable_of_items {path : Path} {found : List Item}
    (read : (items read? path).result = .ok found) (bytes : Bytes)
    (there : read? path = some bytes) : (Utf8.decode? bytes).isSome := by
  cases decoded : Utf8.decode? bytes with
  | some text => rfl
  | none =>
      have refused : (Logged.ofExcept (lines? read? path)).result = .error (.unreadable path) := by
        simp [Logged.ofExcept, lines?, there, decoded]
      rw [items, Logged.bind_of_error refused] at read
      simp at read

/-- It ends with the name of that file, and nothing else ends it. -/
theorem exists_of_items_error {path : Path} {failure : Failure}
    (failed : (items read? path).result = .error failure) :
    failure = .unreadable path ∧ ∃ bytes, read? path = some bytes ∧ Utf8.decode? bytes = none := by
  cases there : read? path with
  | none =>
      rw [result_items fun bytes found => by simp [there] at found] at failed
      cases failed
  | some bytes =>
      cases decoded : Utf8.decode? bytes with
      | some text =>
          have readable : ∀ bytes, read? path = some bytes → (Utf8.decode? bytes).isSome := by
            simp [there, decoded]
          rw [result_items readable] at failed
          cases failed
      | none =>
          have refused : (Logged.ofExcept (lines? read? path)).result =
              .error (.unreadable path) := by
            simp [Logged.ofExcept, lines?, there, decoded]
          rw [items, Logged.bind_of_error refused] at failed
          exact ⟨(Except.error.inj failed).symm, bytes, rfl, decoded⟩

theorem exists_of_extract_error {sources : List Path} {failure : Failure}
    (failed : (extract read? sources).result = .error failure) :
    ∃ path ∈ sources, failure = .unreadable path ∧
      ∃ bytes, read? path = some bytes ∧ Utf8.decode? bytes = none := by
  induction sources with
  | nil => cases failed
  | cons path rest ih =>
      rw [extract] at failed
      cases read : (items read? path).result with
      | error reason =>
          rw [Logged.bind_of_error read] at failed
          obtain rfl := Except.error.inj failed
          exact ⟨path, List.mem_cons_self, exists_of_items_error read⟩
      | ok first =>
          rw [Logged.bind_of_ok read] at failed
          cases later : (extract read? rest).result with
          | ok more => simp [later, Except.map] at failed
          | error reason =>
              obtain rfl : reason = failure := by simpa [later, Except.map] using failed
              obtain ⟨other, member, unreadable⟩ := ih later
              exact ⟨other, List.mem_cons_of_mem path member, unreadable⟩

theorem readable_of_extract {sources : List Path} {found : List Item}
    (extracted : (extract read? sources).result = .ok found) :
    ∀ path ∈ sources, ∀ bytes, read? path = some bytes → (Utf8.decode? bytes).isSome := by
  induction sources generalizing found with
  | nil => simp
  | cons path rest ih =>
      rw [extract, Logged.result_bind_eq_ok_iff] at extracted
      obtain ⟨first, read, others⟩ := extracted
      cases later : (extract read? rest).result with
      | error failure => simp [later, Except.map] at others
      | ok more =>
          exact List.forall_mem_cons.mpr ⟨fun bytes => readable_of_items read bytes, ih later⟩

theorem result_extract_eq_ok_iff {sources : List Path} {found : List Item} :
    (extract read? sources).result = .ok found ↔
      (∀ path ∈ sources, ∀ bytes, read? path = some bytes → (Utf8.decode? bytes).isSome) ∧
        found = (sourceLines read? sources).flatMap Item.ofLine := by
  constructor
  · intro extracted
    have readable := readable_of_extract extracted
    exact ⟨readable, Except.ok.inj (extracted.symm.trans (result_extract readable))⟩
  · rintro ⟨readable, rfl⟩
    exact result_extract readable

end EditorFlags.FlagFile
