/-!
# Lines and words

A line is ended by CR LF, by CR or by LF, whichever of these comes first, and
the end of the text ends a line that has been begun. Words are what single
spaces separate, so a run of spaces has empty words in it and a line always has
one word more than it has spaces.
-/

namespace EditorFlags.Lines

/-- The lines of a text, without what ends them. -/
def split : List Char → List (List Char)
  | [] => []
  | '\r' :: '\n' :: rest => [] :: split rest
  | '\r' :: rest => [] :: split rest
  | '\n' :: rest => [] :: split rest
  | c :: rest =>
      match split rest with
      | [] => [[c]]
      | line :: lines => (c :: line) :: lines

/-- The lines of a text as texts. -/
def ofText (text : String) : List String :=
  (split text.toList).map String.ofList

/-- The words of a line. -/
def words (line : String) : List String :=
  (line.toList.splitOn ' ').map String.ofList

end EditorFlags.Lines
