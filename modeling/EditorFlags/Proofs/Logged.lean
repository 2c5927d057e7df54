import EditorFlags.Log

/-!
# What comes of a computation that logs

How a bind goes on depends on the first result alone, and all that it says is said by one
of its parts.
-/

namespace EditorFlags.Logged

variable {α β : Type}

@[simp] theorem result_map (f : α → β) (logged : Logged α) :
    (f <$> logged).result = logged.result.map f := rfl

theorem bind_of_ok {first : Logged α} {value : α} (ok : first.result = .ok value)
    (next : α → Logged β) :
    first >>= next = ⟨first.log ++ (next value).log, (next value).result⟩ := by
  show first.andThen next = _
  simp only [andThen, ok]

theorem bind_of_error {first : Logged α} {failure : Failure}
    (failed : first.result = .error failure) (next : α → Logged β) :
    first >>= next = ⟨first.log, .error failure⟩ := by
  show first.andThen next = _
  simp only [andThen, failed]

/-- A bind ends well if both of its parts do. -/
theorem result_bind_eq_ok_iff {first : Logged α} {next : α → Logged β} {last : β} :
    (first >>= next).result = .ok last ↔
      ∃ value, first.result = .ok value ∧ (next value).result = .ok last := by
  cases result : first.result with
  | error failure => simp [bind_of_error result]
  | ok value => simp [bind_of_ok result]

/-- What a bind comes to rests on what its parts come to, whatever they say. -/
theorem result_bind_congr {first other : Logged α} {next after : α → Logged β}
    (same : first.result = other.result)
    (later : ∀ value, first.result = .ok value → (next value).result = (after value).result) :
    (first >>= next).result = (other >>= after).result := by
  cases result : first.result with
  | error failure => rw [bind_of_error result, bind_of_error (same.symm.trans result)]
  | ok value =>
      rw [bind_of_ok result, bind_of_ok (same.symm.trans result)]
      exact later value result

/-- What a bind says is said by one of its parts. -/
theorem mem_log_bind {first : Logged α} {next : α → Logged β} {event : Event}
    (said : event ∈ (first >>= next).log) :
    event ∈ first.log ∨ ∃ value, first.result = .ok value ∧ event ∈ (next value).log := by
  cases result : first.result with
  | error failure =>
      rw [bind_of_error result] at said
      exact .inl said
  | ok value =>
      rw [bind_of_ok result] at said
      rcases List.mem_append.mp said with before | after
      · exact .inl before
      · exact .inr ⟨value, rfl, after⟩

end EditorFlags.Logged
