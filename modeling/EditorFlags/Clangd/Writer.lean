import EditorFlags.Clangd.Entry
import EditorFlags.Clangd.Sink

/-!
# Writing a clangd document

A writer takes items one by one and writes an entry to its sink at each end of a
line. An end of line that cannot be written leaves the entry as it is, so tokens
that follow go on with it and a later end of line writes it whole. Tokens after
the last end of line are dropped.
-/

namespace EditorFlags.Clangd

/-- The lines above the entries. -/
def header : String :=
  "CompileFlags:\n  Add:\n"

/-- A document that is being written. -/
structure Writer where
  base : Path
  sink : Sink
  entry : Entry
deriving DecidableEq, Repr

/-- What came of a write: the sink after it, what was said, and whether it went
through. -/
structure Written where
  log : List Event
  sink : Sink
  result : Except SinkFault Unit

namespace Writer

/-- Writes the header. The writer is of use only if that went through. -/
def start (base : Path) (sink : Sink) : Writer × Except SinkFault Unit :=
  let (sink, result) := sink.write (Utf8.encode header)
  (⟨base, sink, .empty⟩, result)

/-- Takes one item. -/
def push (writer : Writer) : Item → Writer × List Event × Except SinkFault Unit
  | .token token =>
      let (entry, events) := writer.entry.add writer.base token
      ({ writer with entry := entry }, events, .ok ())
  | .endOfLine =>
      match writer.sink.write (Utf8.encode writer.entry.line) with
      | (sink, .ok ()) =>
          ({ writer with sink := sink, entry := .empty }, writer.entry.endEvents, .ok ())
      | (sink, .error fault) =>
          -- The entry stays as it is, to be written by a later end of line.
          ({ writer with sink := sink }, writer.entry.endEvents, .error fault)

/-- Drops what was never ended and flushes the sink. -/
def finish (writer : Writer) : Written where
  log := if writer.entry.text.isEmpty then [] else [.droppedLine writer.entry.text]
  sink := writer.sink
  result := writer.sink.flush

/-- Takes items until one cannot be written, and finishes if all could. -/
def pushAll (writer : Writer) : List Item → Written
  | [] => writer.finish
  | item :: rest =>
      match writer.push item with
      | (writer, events, .ok ()) =>
          let written := writer.pushAll rest
          { written with log := events ++ written.log }
      | (writer, events, .error fault) => ⟨events, writer.sink, .error fault⟩

end Writer

/-- Writes a whole document. -/
def write (base : Path) (items : List Item) (sink : Sink) : Written :=
  match Writer.start base sink with
  | (writer, .ok ()) => writer.pushAll items
  | (writer, .error fault) => ⟨[], writer.sink, .error fault⟩

/-- A whole document as text. -/
def render (base : Path) (items : List Item) : Logged String :=
  let written := write base items .unlimited
  match written.result, Utf8.decode? written.sink.written with
  | .error fault, _ => ⟨written.log, .error (.sink fault)⟩
  | .ok (), none => ⟨written.log, .error .notText⟩
  | .ok (), some text => ⟨written.log, .ok text⟩

end EditorFlags.Clangd
