import EditorFlags.Text.Blank

/-!
# Modes of patterns

Flags change how what follows them is read, up to the end of the group that they
are in. Three of them decide what is a pattern: whether blanks and comments
count for nothing, whether letters stand for both their cases, and whether the
pattern is about characters or about bytes.
-/

namespace EditorFlags.Pattern

/-- How a pattern is read. -/
structure Mode where
  extended : Bool
  anyCase : Bool
  unicode : Bool
deriving DecidableEq, Repr

namespace Mode

/-- How a pattern is read from its beginning. -/
def initial : Mode :=
  ⟨false, false, true⟩

/-! ## Flags -/

/-- Whether some characters are flags: each of them known and given once, with a
minus sign somewhere before the last. -/
def areFlags (items : List Char) : Bool :=
  items.all "-imsUuRx".toList.contains && decide items.Nodup && items.getLast? != some '-'

/-- What a flag is after some flags: set, or unset if it stands behind the minus
sign, or else as it was. -/
def flagAfter (items : List Char) (flag : Char) (before : Bool) : Bool :=
  if (items.takeWhile (· != '-')).contains flag then true
  else before && !items.contains flag

/-- The mode after some flags. -/
def after (mode : Mode) (items : List Char) : Mode where
  extended := flagAfter items 'x' mode.extended
  anyCase := flagAfter items 'i' mode.anyCase
  unicode := flagAfter items 'u' mode.unicode

/-! ## Blanks -/

/-- The input without a comment at its front, from after the `#`. -/
def dropComment (input : List Char) : List Char :=
  (input.dropWhile (· != '\n')).drop 1

theorem length_dropComment_le (input : List Char) :
    (dropComment input).length ≤ input.length := by
  have total := congrArg List.length (List.takeWhile_append_dropWhile
    (p := (· != '\n')) (l := input))
  simp only [List.length_append] at total
  simp only [dropComment, List.length_drop]
  omega

/-- The input without the blanks and comments at its front. -/
def dropSpace : List Char → List Char
  | [] => []
  | c :: rest =>
      if Blank.isBlank c then dropSpace rest
      else if c = '#' then dropSpace (dropComment rest)
      else c :: rest
termination_by input => input.length
decreasing_by
  · simp
  · have := length_dropComment_le rest
    simp only [List.length_cons]
    omega

/-- The input without what counts for nothing at its front. -/
def skipSpace (mode : Mode) (input : List Char) : List Char :=
  if mode.extended then dropSpace input else input

/-- The character that comes next but for blanks. Of a comment only the `#` is
passed over; where nothing else is left, blanks count. -/
def peek? (mode : Mode) (input : List Char) : Option Char :=
  if mode.extended then
    let next :=
      match input.dropWhile Blank.isBlank with
      | '#' :: comment => comment.dropWhile Blank.isBlank
      | other => other
    next.head?.or input.head?
  else input.head?

/-! ## Literals -/

/-- Whether a character may stand for itself. There are no tables to tell the
cases of characters by, so where case does not count it may not. A byte beyond
ASCII is not part of any text. -/
def admitsLiteral (mode : Mode) (c : Char) (asByte : Bool) : Bool :=
  if mode.unicode then !mode.anyCase else !asByte || c.toNat < 0x80

/-- Whether a character may stand in a class. -/
def admitsMember (mode : Mode) (c : Char) : Bool :=
  if mode.unicode then !mode.anyCase else c.toNat < 0x80

end Mode

/-! ## Nesting -/

/-- How deeply a pattern may nest. -/
def nestLimit : Nat := 250

/-- How deeply some parts nest that stand side by side, by how deeply each of
them does. One part alone is not put into another. -/
def sideBySide : List Nat → Nat
  | [] => 0
  | [height] => height
  | heights => heights.foldl max 0 + 1

end EditorFlags.Pattern
