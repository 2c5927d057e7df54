import EditorFlags.Failure

/-!
# Destinations of limited room

A sink keeps the bytes that are written to it. It may have room for only so many
more; a write that does not fit leaves the bytes that did, and fails. A sink may
also refuse to be flushed, which changes none of its bytes.
-/

namespace EditorFlags

/-- A destination for bytes. Without `room` there is no limit. The bytes are
kept last one first, so that a write does not have to go through them. -/
structure Sink where
  lastFirst : Bytes
  room : Option Nat
  flushes : Bool
deriving DecidableEq, Repr

namespace Sink

/-- An empty sink. -/
def ofRoom (room : Option Nat) (flushes : Bool) : Sink :=
  ⟨[], room, flushes⟩

/-- An empty sink that takes everything. -/
def unlimited : Sink :=
  ofRoom none true

/-- The bytes written so far, in order. -/
def written (sink : Sink) : Bytes :=
  sink.lastFirst.reverse

/-- The sink with some more bytes in it. -/
def append (sink : Sink) (bytes : Bytes) : Sink :=
  { sink with lastFirst := bytes.reverseAux sink.lastFirst }

@[simp] theorem written_append (sink : Sink) (bytes : Bytes) :
    (sink.append bytes).written = sink.written ++ bytes := by
  simp [written, append, List.reverseAux_eq]

/-- Writes some bytes, as many as there is room for. -/
def write (sink : Sink) (bytes : Bytes) : Sink × Except SinkFault Unit :=
  match sink.room with
  | none => (sink.append bytes, .ok ())
  | some room =>
      if bytes.length ≤ room then
        ({ sink.append bytes with room := some (room - bytes.length) }, .ok ())
      else
        ({ sink.append (bytes.take room) with room := some 0 }, .error .full)

/-- Makes room for more bytes, which is nothing where there is no limit. -/
def grow (sink : Sink) (more : Nat) : Sink :=
  { sink with room := sink.room.map (· + more) }

/-- Brings everything written to its place. -/
def flush (sink : Sink) : Except SinkFault Unit :=
  if sink.flushes then .ok () else .error .flushRefused

end Sink

end EditorFlags
