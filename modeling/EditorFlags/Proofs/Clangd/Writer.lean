import EditorFlags.Clangd.Writer
import EditorFlags.Proofs.Clangd.Entry

/-!
# What single pushes and whole groups do to a writer

A write to a sink without limit goes through and is appended; a write to one with
a limit appends as many bytes as there is room for (`Sink.write_fits`,
`Sink.write_full`). So a token only changes the entry, and an end of line either
writes the whole entry and begins another one or, where there is too little room,
writes the beginning of it and keeps it. Some tokens and an end of line that goes
through come to one entry (`pushAll_group_of_ok`). It does not matter in how many
parts something is written (`Sink.deliver_flatten`): the room ends at the same
byte.
-/

namespace EditorFlags

namespace Sink

variable {sink : Sink} {bytes : Bytes} {room : Nat}

@[simp] theorem flush_append : (sink.append bytes).flush = sink.flush := rfl

theorem write_unlimited (unlimited : sink.room = none) :
    sink.write bytes = (sink.append bytes, .ok ()) := by
  simp only [write, unlimited]

theorem write_fits (limited : sink.room = some room) (fits : bytes.length ≤ room) :
    sink.write bytes = ({ sink.append bytes with room := some (room - bytes.length) }, .ok ()) := by
  simp only [write, limited, if_pos fits]

theorem write_full (limited : sink.room = some room) (tooLong : room < bytes.length) :
    sink.write bytes = ({ sink.append (bytes.take room) with room := some 0 }, .error .full) := by
  simp only [write, limited, if_neg (Nat.not_le.mpr tooLong)]

theorem append_append (first second : Bytes) :
    sink.append (first ++ second) = (sink.append first).append second := by
  simp [append, List.reverseAux_eq]

/-! ## Writing in parts -/

section
variable {first : Bytes} {after : Sink} {fault : SinkFault}

/-- When a first part has been written the second one is still to be written. -/
theorem write_append_of_ok (written : sink.write first = (after, .ok ())) (second : Bytes) :
    sink.write (first ++ second) = after.write second := by
  cases limit : sink.room with
  | none =>
      rw [write_unlimited limit] at written
      obtain rfl := (Prod.mk.inj written).1
      have stillUnlimited : (sink.append first).room = none := limit
      rw [write_unlimited limit, write_unlimited stillUnlimited, append_append]
  | some room =>
      by_cases fits : first.length ≤ room
      · rw [write_fits limit fits] at written
        obtain rfl := (Prod.mk.inj written).1
        by_cases left : second.length ≤ room - first.length
        · have both : (first ++ second).length ≤ room := by
            rw [List.length_append]
            omega
          rw [write_fits limit both, write_fits rfl left, append_append, List.length_append,
            ← Nat.sub_sub]
          rfl
        · have tooLong : room < (first ++ second).length := by
            rw [List.length_append]
            omega
          rw [write_full limit tooLong, write_full rfl (Nat.lt_of_not_le left), List.take_append,
            List.take_of_length_le fits, append_append]
          rfl
      · rw [write_full limit (Nat.lt_of_not_le fits)] at written
        cases (Prod.mk.inj written).2

/-- When it has been refused nothing of a second one is written. -/
theorem write_append_of_error (refused : sink.write first = (after, .error fault))
    (second : Bytes) : sink.write (first ++ second) = (after, .error fault) := by
  cases limit : sink.room with
  | none =>
      rw [write_unlimited limit] at refused
      cases (Prod.mk.inj refused).2
  | some room =>
      by_cases fits : first.length ≤ room
      · rw [write_fits limit fits] at refused
        cases (Prod.mk.inj refused).2
      · have tooLong := Nat.lt_of_not_le fits
        have longer : room < (first ++ second).length := by
          rw [List.length_append]
          omega
        rw [write_full limit longer, List.take_append_of_le_length (Nat.le_of_lt tooLong),
          ← write_full limit tooLong, refused]

end

theorem write_nil (sink : Sink) : sink.write [] = (sink, .ok ()) := by
  cases limit : sink.room with
  | none =>
      rw [write_unlimited limit]
      rfl
  | some room =>
      have fits : ([] : Bytes).length ≤ room := Nat.zero_le room
      obtain ⟨lastFirst, _, flushes⟩ := sink
      obtain rfl := limit
      rw [write_fits rfl fits]
      rfl

/-- Writes some parts one after the other, up to one for which there is too little room, and
flushes if there is none. -/
def deliver (sink : Sink) : List Bytes → Sink × Except SinkFault Unit
  | [] => (sink, sink.flush)
  | part :: parts =>
      match sink.write part with
      | (after, .ok ()) => after.deliver parts
      | (after, .error fault) => (after, .error fault)

theorem deliver_of_ok {part : Bytes} {after : Sink} (written : sink.write part = (after, .ok ()))
    (parts : List Bytes) : sink.deliver (part :: parts) = after.deliver parts := by
  simp only [deliver, written]

theorem deliver_of_error {part : Bytes} {after : Sink} {fault : SinkFault}
    (refused : sink.write part = (after, .error fault)) (parts : List Bytes) :
    sink.deliver (part :: parts) = (after, .error fault) := by
  simp only [deliver, refused]

/-- It does not matter how what is written is cut into parts. -/
theorem deliver_flatten (sink : Sink) (parts : List Bytes) :
    sink.deliver parts = sink.deliver [parts.flatten] := by
  induction parts generalizing sink with
  | nil => rw [List.flatten_nil, deliver_of_ok (write_nil sink)]
  | cons part parts ih =>
      rw [List.flatten_cons]
      rcases written : sink.write part with ⟨after, result⟩
      cases result with
      | ok =>
          rw [deliver_of_ok written, ih]
          simp only [deliver, write_append_of_ok written]
      | error fault =>
          rw [deliver_of_error written, deliver_of_error (write_append_of_error written _)]

theorem deliver_unlimited (unlimited : sink.room = none) (parts : List Bytes) :
    sink.deliver parts = (sink.append parts.flatten, sink.flush) := by
  rw [deliver_flatten, deliver_of_ok (write_unlimited unlimited)]
  rfl

end Sink

namespace Clangd

/-- What is left of a write when what was said is left out. -/
def Written.outcome (written : Written) : Sink × Except SinkFault Unit :=
  (written.sink, written.result)

namespace Writer

variable {writer : Writer}

theorem push_endOfLine_of_ok {sink : Sink}
    (written : writer.sink.write (Utf8.encode writer.entry.line) = (sink, .ok ())) :
    writer.push .endOfLine =
      ({ writer with sink := sink, entry := .empty }, writer.entry.endEvents, .ok ()) := by
  simp only [push, written]

theorem push_endOfLine_of_error {sink : Sink} {fault : SinkFault}
    (refused : writer.sink.write (Utf8.encode writer.entry.line) = (sink, .error fault)) :
    writer.push .endOfLine =
      ({ writer with sink := sink }, writer.entry.endEvents, .error fault) := by
  simp only [push, refused]

/-- An end of line changes the sink and nothing else, but for the entry if it goes through,
and says what the entry is worth saying. -/
theorem push_endOfLine_cases (writer : Writer) :
    ∃ sink, writer.push .endOfLine =
        ({ writer with sink := sink, entry := .empty }, writer.entry.endEvents, .ok ()) ∨
      ∃ fault, writer.push .endOfLine =
        ({ writer with sink := sink }, writer.entry.endEvents, .error fault) := by
  rcases written : writer.sink.write (Utf8.encode writer.entry.line) with ⟨sink, result⟩
  cases result with
  | ok => exact ⟨sink, .inl (push_endOfLine_of_ok written)⟩
  | error fault => exact ⟨sink, .inr ⟨fault, push_endOfLine_of_error written⟩⟩

theorem start_unlimited (base : Path) :
    start base .unlimited =
      (⟨base, Sink.unlimited.append (Utf8.encode header), .empty⟩, .ok ()) := by
  rw [start, Sink.write_unlimited rfl]

/-! ## Whole groups -/

/-- What is said while some tokens are added to an entry. -/
def tokenEvents (base : Path) : Entry → List String → List Event
  | _, [] => []
  | entry, token :: tokens =>
      (entry.add base token).2 ++ tokenEvents base (entry.add base token).1 tokens

theorem pushAll_tokens (writer : Writer) (tokens : List String) (rest : List Item) :
    writer.pushAll (tokens.map .token ++ rest) =
      let later :=
        { writer with entry := writer.entry.addAll writer.base tokens }.pushAll rest
      { later with log := tokenEvents writer.base writer.entry tokens ++ later.log } := by
  induction tokens generalizing writer with
  | nil => rfl
  | cons token tokens ih =>
      rw [List.map_cons, List.cons_append, pushAll]
      simp only [push, ih, tokenEvents, Entry.addAll_cons, List.append_assoc]

/-- Some tokens and an end of line that goes through write one entry and begin another. -/
theorem pushAll_group_of_ok {tokens : List String} {sink : Sink}
    (written : writer.sink.write (Utf8.encode (writer.entry.addAll writer.base tokens).line) =
      (sink, .ok ())) (rest : List Item) :
    writer.pushAll (tokens.map .token ++ .endOfLine :: rest) =
      let entry := writer.entry.addAll writer.base tokens
      let later := { writer with sink := sink, entry := .empty }.pushAll rest
      { later with
        log := tokenEvents writer.base writer.entry tokens ++ (entry.endEvents ++ later.log) } := by
  have ended := @push_endOfLine_of_ok
    { writer with entry := writer.entry.addAll writer.base tokens } _ written
  rw [pushAll_tokens, pushAll]
  simp only [ended]

/-- An end of line that fails is the last that is heard of the items. -/
theorem pushAll_group_of_error {tokens : List String} {sink : Sink} {fault : SinkFault}
    (refused : writer.sink.write (Utf8.encode (writer.entry.addAll writer.base tokens).line) =
      (sink, .error fault)) (rest : List Item) :
    writer.pushAll (tokens.map .token ++ .endOfLine :: rest) =
      ⟨tokenEvents writer.base writer.entry tokens ++
        (writer.entry.addAll writer.base tokens).endEvents, sink, .error fault⟩ := by
  have ended := @push_endOfLine_of_error
    { writer with entry := writer.entry.addAll writer.base tokens } _ _ refused
  rw [pushAll_tokens, pushAll]
  simp only [ended]

end Writer

end Clangd

end EditorFlags
