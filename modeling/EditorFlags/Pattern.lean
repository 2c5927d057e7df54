import EditorFlags.Pattern.Class
import EditorFlags.Text.Alphanumeric

/-!
# Patterns

A log filter may compare a value with a pattern, a regular expression. No event
of a run has such a value, so all there is to know about a pattern is whether it
is one: its groups and classes are closed, every repetition has something to
repeat, every escape is known, ranges ascend, names are given once, it matches
text only, and it does not nest too deeply. Counted repetitions are none, for
their closing brace would close the field that the pattern stands in.
-/

namespace EditorFlags.Pattern

/-! ## Groups -/

/-- What an opening parenthesis opens: a group with a mode, and with the names
that are taken then, or nothing, if it only sets the mode. -/
inductive Opening where
  | group (names : List (List Char)) (mode : Mode)
  | flags (mode : Mode)

/-- Whether some characters are the name of a group. -/
def isName (name : List Char) : Bool :=
  match name with
  | [] => false
  | first :: rest =>
      (first == '_' || Alphanumeric.isAlphabetic first) &&
        rest.all fun c => Alphanumeric.isAlphanumeric c || "_.[]".toList.contains c

/-- A group with a name, from after the angle bracket that opens the name. -/
def openNamed (names : List (List Char)) (mode : Mode) (input : List Char) :
    Option (Opening × List Char) :=
  let name := input.takeWhile (· != '>')
  match input.dropWhile (· != '>') with
  | [] => none
  | _ :: rest =>
      if isName name && !names.contains name then some (.group (name :: names) mode, rest)
      else none

/-- What follows an opening parenthesis. Nothing looks around in a pattern. -/
def openGroup (names : List (List Char)) (mode : Mode) (input : List Char) :
    Option (Opening × List Char) :=
  match mode.skipSpace input with
  | '?' :: '<' :: '!' :: _ => none
  | '?' :: '<' :: '=' :: _ => none
  | '?' :: '<' :: rest => openNamed names mode rest
  | '?' :: 'P' :: '<' :: rest => openNamed names mode rest
  | '?' :: rest =>
      let items := rest.takeWhile fun c => c != ':' && c != ')'
      if !Mode.areFlags items then none
      else
        match rest.dropWhile fun c => c != ':' && c != ')' with
        | ':' :: left => some (.group names (mode.after items), left)
        | ')' :: left => if items.isEmpty then none else some (.flags (mode.after items), left)
        | _ => none
  | other => some (.group names mode, other)

/-! ## Patterns -/

/-- A part of a pattern: how deeply it nests, and whether it can be repeated. -/
structure Part where
  height : Nat
  repeatable : Bool
deriving DecidableEq, Repr

/-- A group that is being read, or the whole pattern: the mode for what comes
next, how deeply each branch before the last bar nests, and the parts after it,
last one first. -/
structure Level where
  mode : Mode
  branches : List Nat
  parts : List Part
deriving DecidableEq, Repr

namespace Level

/-- A level that has just begun. -/
def start (mode : Mode) : Level :=
  ⟨mode, [], []⟩

/-- The level with one more part. -/
def add (level : Level) (height : Nat) : Level :=
  { level with parts := ⟨height, true⟩ :: level.parts }

/-- The level after flags, which are a part that cannot be repeated. -/
def set (level : Level) (mode : Mode) : Level :=
  { level with mode := mode, parts := ⟨0, false⟩ :: level.parts }

/-- How deeply the branch nests that is being read. -/
def branchHeight (level : Level) : Nat :=
  sideBySide (level.parts.map (·.height))

/-- How deeply all that has been read of a level nests. -/
def height (level : Level) : Nat :=
  sideBySide (level.branchHeight :: level.branches)

/-- The level after a bar. -/
def branch (level : Level) : Level :=
  { level with branches := level.branchHeight :: level.branches, parts := [] }

/-- The level with its last part repeated, if it can be. -/
def repeated? (level : Level) : Option Level :=
  match level.parts with
  | [] => none
  | last :: parts =>
      if last.repeatable then some { level with parts := ⟨last.height + 1, true⟩ :: parts }
      else none

end Level

/-- What is left after the part of the input that is neither a group nor a
repetition, and how deeply that part nests. -/
def readPart (mode : Mode) (first : Char) (rest : List Char) : Option (Nat × List Char) :=
  if first = '[' then Class.read mode rest
  else if first = '\\' then
    match Escape.read mode rest with
    | none => none
    | some (.char c asByte, left) => if mode.admitsLiteral c asByte then some (0, left) else none
    | some (_, left) => some (0, left)
  else if first = '.' then if mode.unicode then some (0, rest) else none
  else if first = '^' ∨ first = '$' then some (0, rest)
  else if first = '{' then none
  else if mode.admitsLiteral first false then some (0, rest)
  else none

/-- Whether the input goes on with what has been read of a pattern and ends it:
the innermost level, the levels around it, and the names taken. -/
def closes (fuel : Nat) (names : List (List Char)) (level : Level) (outer : List Level)
    (input : List Char) : Bool :=
  match fuel, level.mode.skipSpace input with
  | _, [] => outer.isEmpty && level.height ≤ nestLimit
  | 0, _ => false
  | fuel + 1, first :: rest =>
      if first = '(' then
        match openGroup names level.mode rest with
        | none => false
        | some (.flags mode, left) => closes fuel names (level.set mode) outer left
        | some (.group names mode, left) =>
            closes fuel names (Level.start mode) (level :: outer) left
      else if first = ')' then
        match outer with
        | [] => false
        | enclosing :: outer => closes fuel names (enclosing.add (level.height + 1)) outer rest
      else if first = '|' then closes fuel names level.branch outer rest
      else if first = '*' ∨ first = '+' ∨ first = '?' then
        match level.repeated? with
        | none => false
        | some level =>
            -- A question mark right behind a repetition belongs to it.
            closes fuel names level outer (if rest.head? = some '?' then rest.drop 1 else rest)
      else
        match readPart level.mode first rest with
        | none => false
        | some (height, left) => closes fuel names (level.add height) outer left

/-- Whether a text is a pattern. -/
def isPattern (text : List Char) : Bool :=
  closes text.length [] (Level.start .initial) [] text

end EditorFlags.Pattern
