import EditorFlags.Proofs.Clangd.Writer
import Mathlib

/-!
# Writing with too little room

A writer whose destination has room for only so many bytes can fail at any end of
a line, and go on after more room has been made. What it does is compared with a
second run, on a destination without limit, from which the ends of line that
failed are left out (`kept`). The two runs have the same entry under way after
every step, for an end of line that fails changes only the destination. So nothing
is lost or written twice: the entry that could not be written is continued, and
written as a whole by the next end of line for which there is room.
-/

namespace EditorFlags.Clangd

/-- One step of a run: a writer takes an item, or its destination gets more
room. -/
inductive Step where
  | push (item : Item)
  | grow (more : Nat)
deriving DecidableEq, Repr

namespace Writer

/-- The writer after a step, and whether the step went through. -/
def step (writer : Writer) : Step → Writer × Except SinkFault Unit
  | .push item => ((writer.push item).1, (writer.push item).2.2)
  | .grow more => ({ writer with sink := writer.sink.grow more }, .ok ())

/-- The writer after some steps, whether or not they went through. -/
def run (writer : Writer) : List Step → Writer
  | [] => writer
  | step :: rest => (writer.step step).1.run rest

/-- The steps of a run that went through. The others are ends of line that could
not be written. -/
def kept (writer : Writer) : List Step → List Step
  | [] => []
  | step :: rest =>
      match writer.step step with
      | (after, .ok ()) => step :: after.kept rest
      | (after, .error _) => after.kept rest

/-! ## What one push does -/

/-- How a writer with a limit keeps in step with one without: they are at the same
entry, and what the limited one does next is what the other does, or an end of
line of which the destination took as much as it had room for. -/
structure InStep (limited free : Writer) : Prop where
  /-- Text, count of tokens and whether an include has been resolved. -/
  entry : limited.entry = free.entry
  /-- An end of line that goes through writes what it writes without a limit, the
  whole entry. -/
  whole : ∀ after events, limited.push .endOfLine = (after, events, .ok ()) →
    ∃ freeAfter, free.push .endOfLine = (freeAfter, events, .ok ()) ∧
      after.sink.written = limited.sink.written ++ Utf8.encode free.entry.line ∧
      freeAfter.sink.written = free.sink.written ++ Utf8.encode free.entry.line
  /-- One that fails writes the beginning of its entry, up to the room left. -/
  cut : ∀ after events fault, limited.push .endOfLine = (after, events, .error fault) →
    ∃ left, limited.sink.room = some left ∧
      left < (Utf8.encode limited.entry.line).length ∧
      after.sink.written =
        limited.sink.written ++ (Utf8.encode limited.entry.line).take left ∧
      after.sink.room = some 0
  /-- A token is always taken and writes nothing. -/
  silent : ∀ token, (limited.push (.token token)).2.2 = .ok () ∧
    (limited.push (.token token)).1.sink = limited.sink

variable {writer limited free : Writer}

theorem push_endOfLine_eq_ok {after : Writer} {events : List Event}
    (pushed : writer.push .endOfLine = (after, events, .ok ())) :
    events = writer.entry.endEvents ∧ after.base = writer.base ∧ after.entry = .empty ∧
      after.sink.written = writer.sink.written ++ Utf8.encode writer.entry.line := by
  cases limit : writer.sink.room with
  | none =>
      rw [push_endOfLine_of_ok (Sink.write_unlimited limit)] at pushed
      obtain ⟨rfl, rfl, -⟩ := by simpa using pushed
      exact ⟨rfl, rfl, rfl, Sink.written_append _ _⟩
  | some room =>
      by_cases fits : (Utf8.encode writer.entry.line).length ≤ room
      · rw [push_endOfLine_of_ok (Sink.write_fits limit fits)] at pushed
        obtain ⟨rfl, rfl, -⟩ := by simpa using pushed
        exact ⟨rfl, rfl, rfl, Sink.written_append _ _⟩
      · rw [push_endOfLine_of_error (Sink.write_full limit (Nat.lt_of_not_le fits))] at pushed
        simp at pushed

theorem push_endOfLine_eq_error {after : Writer} {events : List Event} {fault : SinkFault}
    (pushed : writer.push .endOfLine = (after, events, .error fault)) :
    after.base = writer.base ∧ after.entry = writer.entry ∧
      ∃ left, writer.sink.room = some left ∧
        left < (Utf8.encode writer.entry.line).length ∧
        after.sink.written =
          writer.sink.written ++ (Utf8.encode writer.entry.line).take left ∧
        after.sink.room = some 0 := by
  cases limit : writer.sink.room with
  | none =>
      rw [push_endOfLine_of_ok (Sink.write_unlimited limit)] at pushed
      simp at pushed
  | some room =>
      by_cases fits : (Utf8.encode writer.entry.line).length ≤ room
      · rw [push_endOfLine_of_ok (Sink.write_fits limit fits)] at pushed
        simp at pushed
      · have tooLong := Nat.lt_of_not_le fits
        rw [push_endOfLine_of_error (Sink.write_full limit tooLong)] at pushed
        obtain ⟨rfl, -⟩ := by simpa using pushed
        exact ⟨rfl, rfl, room, rfl, tooLong, Sink.written_append _ _, rfl⟩

/-! ## Two runs side by side -/

/-- What the two runs have in common after every step: the entry under way. The
second of them is on a destination without limit. -/
structure Alike (limited free : Writer) : Prop where
  base : limited.base = free.base
  entry : limited.entry = free.entry
  unlimited : free.sink.room = none

/-- Alike writers stay alike when both take a step that goes through for the
limited one. -/
theorem Alike.step_ok (alike : Alike limited free) {step : Step} {after : Writer}
    (taken : limited.step step = (after, .ok ())) : Alike after (free.step step).1 := by
  cases step with
  | push item =>
      cases item with
      | token token =>
          obtain rfl : _ = after := (Prod.mk.inj taken).1
          refine ⟨alike.base, ?_, alike.unlimited⟩
          show (limited.entry.add limited.base token).1 = (free.entry.add free.base token).1
          rw [alike.base, alike.entry]
      | endOfLine =>
          obtain ⟨afterIs, result⟩ := Prod.mk.inj taken
          have pushed : limited.push .endOfLine =
              (after, (limited.push .endOfLine).2.1, .ok ()) := by
            rw [← afterIs, ← result]
          obtain ⟨-, base, entry, -⟩ := push_endOfLine_eq_ok pushed
          have freePushed := push_endOfLine_of_ok (Sink.write_unlimited alike.unlimited)
          show Alike after (free.push .endOfLine).1
          rw [freePushed]
          exact ⟨base.trans alike.base, entry, alike.unlimited⟩
  | grow more =>
      obtain rfl : _ = after := (Prod.mk.inj taken).1
      refine ⟨alike.base, alike.entry, ?_⟩
      show free.sink.room.map (· + more) = none
      rw [alike.unlimited, Option.map_none]

/-- They also stay alike when only the limited one takes a step, and it fails. -/
theorem Alike.step_error (alike : Alike limited free) {step : Step} {after : Writer}
    {fault : SinkFault} (taken : limited.step step = (after, .error fault)) : Alike after free := by
  cases step with
  | push item =>
      cases item with
      | token token => exact absurd (Prod.mk.inj taken).2 (by simp [push])
      | endOfLine =>
          obtain ⟨afterIs, result⟩ := Prod.mk.inj taken
          have pushed : limited.push .endOfLine =
              (after, (limited.push .endOfLine).2.1, .error fault) := by
            rw [← afterIs, ← result]
          obtain ⟨base, entry, -⟩ := push_endOfLine_eq_error pushed
          exact ⟨base.trans alike.base, entry.trans alike.entry, alike.unlimited⟩
  | grow more => exact absurd (Prod.mk.inj taken).2 (by simp)

/-- The run of all steps and the run without those that failed stay alike. -/
theorem Alike.run (alike : Alike limited free) (steps : List Step) :
    Alike (limited.run steps) (free.run (limited.kept steps)) := by
  induction steps generalizing limited free with
  | nil => exact alike
  | cons step rest ih =>
      rw [Writer.run, kept]
      -- The second run takes the step only if it has gone through in the first.
      split
      · next after taken =>
          rw [taken]
          exact ih (alike.step_ok taken)
      · next after fault taken =>
          rw [taken]
          exact ih (alike.step_error taken)

theorem Alike.inStep (alike : Alike limited free) : InStep limited free := by
  refine ⟨alike.entry, ?_, ?_, fun token => ⟨rfl, rfl⟩⟩
  · intro after events pushed
    obtain ⟨eventsIs, -, -, written⟩ := push_endOfLine_eq_ok pushed
    have freePushed := push_endOfLine_of_ok (Sink.write_unlimited alike.unlimited)
    rw [← alike.entry, ← eventsIs] at freePushed
    refine ⟨_, freePushed, ?_, ?_⟩
    · rw [written, alike.entry]
    · rw [← alike.entry, Sink.written_append]
  · intro after events fault pushed
    exact (push_endOfLine_eq_error pushed).2.2

/-- **Interrupted writing.** Started with enough room for the header, a writer is,
after any tokens, ends of line and gains of room, in step with the run on a
destination without limit from which the ends of line that failed are left
out. -/
theorem interrupted_inStep (base : Path) (room : Nat) (flushes : Bool) (writer : Writer)
    (started : start base (.ofRoom (some room) flushes) = (writer, .ok ())) (steps : List Step) :
    InStep (writer.run steps) ((start base .unlimited).1.run (writer.kept steps)) := by
  obtain ⟨rfl, -⟩ := Prod.mk.inj started
  have alike : Alike (start base (.ofRoom (some room) flushes)).1 (start base .unlimited).1 := by
    refine ⟨rfl, rfl, ?_⟩
    rw [start, Sink.write_unlimited rfl]
    rfl
  exact (alike.run steps).inStep

/-- A writer with room for four bytes after the header. -/
def tightWriter : Writer :=
  (start (.ofText "/p") (.ofRoom (some 25) true)).1

/-- An include whose line is ended too early, and again after room has been
made. -/
def retriedSteps : List Step :=
  [.push (.token "-I"), .push .endOfLine, .grow 96, .push (.token "./x"), .push .endOfLine]

/-- The writer before the first end of line. -/
def cutWriter : Writer := tightWriter.run (retriedSteps.take 1)

/-- The writer before the second one. -/
def retriedWriter : Writer := tightWriter.run (retriedSteps.take 4)

/-- The first end of line fails after four bytes and keeps the flag. The token after it goes on
with the same include, and the second one writes that as a whole behind the four bytes. -/
theorem interrupted_inStep_retried :
    start (.ofText "/p") (.ofRoom (some 25) true) = (tightWriter, .ok ()) ∧
      tightWriter.kept retriedSteps =
        [.push (.token "-I"), .grow 96, .push (.token "./x"), .push .endOfLine] ∧
      (cutWriter.push .endOfLine).2.2 = .error .full ∧
      (cutWriter.push .endOfLine).1.sink.written = Utf8.encode header ++ Utf8.encode "    " ∧
      (cutWriter.push .endOfLine).1.sink.room = some 0 ∧
      retriedWriter.entry = ⟨"-I/p/x", 2, true⟩ ∧
      (retriedWriter.push .endOfLine).2.2 = .ok () ∧
      (retriedWriter.push .endOfLine).1.sink.written =
        Utf8.encode header ++ Utf8.encode "    " ++ Utf8.encode "    - -I/p/x\n" ∧
      InStep (tightWriter.run retriedSteps)
        ((start (.ofText "/p") .unlimited).1.run (tightWriter.kept retriedSteps)) := by
  have fits : (start (.ofText "/p") (.ofRoom (some 25) true)).2 = .ok () := by cbv
  have started : start (.ofText "/p") (.ofRoom (some 25) true) = (tightWriter, .ok ()) :=
    Prod.ext rfl fits
  have kept : tightWriter.kept retriedSteps =
      [.push (.token "-I"), .grow 96, .push (.token "./x"), .push .endOfLine] := by cbv
  have inStep (steps : List Step) := interrupted_inStep _ 25 true tightWriter started steps
  -- The end of line that fails.
  have failed : (cutWriter.push .endOfLine).2.2 = .error .full := by cbv
  have room : cutWriter.sink.room = some 4 := by cbv
  have untouched : cutWriter.sink.written = Utf8.encode header := by cbv
  have front : (Utf8.encode cutWriter.entry.line).take 4 = Utf8.encode "    " := by cbv
  obtain ⟨left, roomLeft, -, cut, noRoom⟩ :=
    (inStep (retriedSteps.take 1)).cut _ _ _ (Prod.ext rfl (Prod.ext rfl failed))
  obtain rfl : 4 = left := Option.some.inj (room.symm.trans roomLeft)
  -- The one that goes through, and writes what the other run writes.
  have entry : retriedWriter.entry = ⟨"-I/p/x", 2, true⟩ := by cbv
  have passed : (retriedWriter.push .endOfLine).2.2 = .ok () := by cbv
  have silent : retriedWriter.sink.written = (cutWriter.push .endOfLine).1.sink.written := rfl
  have free := inStep (retriedSteps.take 4)
  obtain ⟨-, -, whole, -⟩ := free.whole _ _ (Prod.ext rfl (Prod.ext rfl passed))
  rw [← free.entry] at whole
  refine ⟨started, kept, failed, ?_, noRoom, entry, passed, ?_, inStep retriedSteps⟩
  · rw [← untouched, ← front]
    exact cut
  · rw [← untouched, ← front]
    refine whole.trans ?_
    show retriedWriter.sink.written ++ Utf8.encode retriedWriter.entry.line = _
    rw [silent, entry]
    exact congrArg (· ++ _) cut

end Writer

end EditorFlags.Clangd
