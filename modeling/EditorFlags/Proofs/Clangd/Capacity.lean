import EditorFlags.Proofs.Clangd.Group

/-!
# Documents for which there is too little room

A destination with room for so many bytes keeps the first that many bytes of the document, be
they the end of a header line, of an entry or of a part of a character. Writing goes through
if that is all of them and the destination can be flushed (`write_within`).
-/

namespace EditorFlags

namespace Sink

variable {sink : Sink} {room : Nat}

theorem written_deliver (limited : sink.room = some room) (bytes : Bytes) :
    (sink.deliver [bytes]).1.written = sink.written ++ bytes.take room := by
  by_cases fits : bytes.length ≤ room
  · rw [deliver_of_ok (write_fits limited fits), List.take_of_length_le fits]
    exact written_append sink bytes
  · rw [deliver_of_error (write_full limited (Nat.lt_of_not_le fits))]
    exact written_append sink (bytes.take room)

theorem result_deliver (limited : sink.room = some room) (bytes : Bytes) :
    (sink.deliver [bytes]).2 = if bytes.length ≤ room then sink.flush else .error .full := by
  by_cases fits : bytes.length ≤ room
  · rw [deliver_of_ok (write_fits limited fits), if_pos fits]
    rfl
  · rw [deliver_of_error (write_full limited (Nat.lt_of_not_le fits)), if_neg fits]

end Sink

namespace Clangd

/-- **A destination keeps as much of a document as it has room for.** Written to a destination
with room for some bytes, any items leave there the first bytes of the document that is rendered
from them, up to that number. That goes through if the document fits and the destination can be
flushed; otherwise what is reported is that it is full or, if only that has been refused, the
flush. However else the document may be cut into parts that are written one after the other, it
comes to the same. -/
theorem write_within (base : Path) (items : List Item) (room : Nat) (flushes : Bool) :
    ∃ document, (render base items).result = .ok document ∧
      (write base items (.ofRoom (some room) flushes)).sink.written =
        (Utf8.encode document).take room ∧
      ((write base items (.ofRoom (some room) flushes)).result = .ok () ↔
        (Utf8.encode document).length ≤ room ∧ flushes = true) ∧
      (room < (Utf8.encode document).length →
        (write base items (.ofRoom (some room) flushes)).result = .error .full) ∧
      ((Utf8.encode document).length ≤ room → flushes = false →
        (write base items (.ofRoom (some room) flushes)).result = .error .flushRefused) ∧
      ∀ parts, parts.flatten = Utf8.encode document →
        (write base items (.ofRoom (some room) flushes)).outcome =
          (Sink.ofRoom (some room) flushes).deliver parts := by
  have rendered := result_render_groups base (Item.ended items) (Item.unended items)
  have outcome := outcome_write_groups base (.ofRoom (some room) flushes) (Item.ended items)
    (Item.unended items)
  rw [Item.ofGroups_ended] at rendered outcome
  generalize header ++ groupLines base (Item.ended items) = document at rendered outcome
  have limited : (Sink.ofRoom (some room) flushes).room = some room := rfl
  have sinkIs : (write base items (.ofRoom (some room) flushes)).sink = _ :=
    congrArg Prod.fst outcome
  have resultIs : (write base items (.ofRoom (some room) flushes)).result = _ :=
    congrArg Prod.snd outcome
  rw [Sink.result_deliver limited] at resultIs
  refine ⟨document, rendered, ?_, ?_, ?_, ?_, ?_⟩
  · rw [sinkIs, Sink.written_deliver limited]
    rfl
  · rw [resultIs]
    by_cases fits : (Utf8.encode document).length ≤ room
    · cases flushes <;> simp [fits, Sink.flush, Sink.ofRoom]
    · simp [fits]
  · intro short
    rw [resultIs, if_neg (Nat.not_le.mpr short)]
  · rintro fits rfl
    rw [resultIs, if_pos fits]
    rfl
  · intro parts whole
    rw [outcome, Sink.deliver_flatten _ parts, whole]

/-- One letter beyond ASCII on a line of its own. -/
def letterItems : List Item :=
  [.token "é", .endOfLine]

/-- There is room for the first of the two bytes of the letter, in however many parts it all is
written. -/
theorem write_within_letter :
    (render (.ofText "/p") letterItems).result = .ok "CompileFlags:\n  Add:\n    - é\n" ∧
      (write (.ofText "/p") letterItems (.ofRoom (some 28) true)).sink.written =
        Utf8.encode "CompileFlags:\n  Add:\n    - " ++ [0xC3] ∧
      (write (.ofText "/p") letterItems (.ofRoom (some 28) true)).result = .error .full ∧
      (["CompileFlags:", "\n", "  Add:", "\n", "    - ", "é", "\n"].map Utf8.encode).flatten =
        Utf8.encode "CompileFlags:\n  Add:\n    - é\n" ∧
      (write (.ofText "/p") letterItems (.ofRoom (some 28) true)).outcome =
        (Sink.ofRoom (some 28) true).deliver
          (["CompileFlags:", "\n", "  Add:", "\n", "    - ", "é", "\n"].map Utf8.encode) := by
  have known : (render (.ofText "/p") letterItems).result =
      .ok "CompileFlags:\n  Add:\n    - é\n" := by cbv
  have whole : (["CompileFlags:", "\n", "  Add:", "\n", "    - ", "é", "\n"].map
      Utf8.encode).flatten = Utf8.encode "CompileFlags:\n  Add:\n    - é\n" := by cbv
  obtain ⟨document, rendered, written, -, full, -, inParts⟩ :=
    write_within (.ofText "/p") letterItems 28 true
  obtain rfl : document = _ := Except.ok.inj (rendered.symm.trans known)
  have beginning : (Utf8.encode "CompileFlags:\n  Add:\n    - é\n").take 28 =
      Utf8.encode "CompileFlags:\n  Add:\n    - " ++ [0xC3] := by cbv
  have short : 28 < (Utf8.encode "CompileFlags:\n  Add:\n    - é\n").length := by cbv
  exact ⟨known, written.trans beginning, full short, whole, inParts _ whole⟩

end Clangd

end EditorFlags
