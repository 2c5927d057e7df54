import EditorFlags.Pattern.Escape

/-!
# Classes in patterns

A class is a set of characters between brackets: members and ranges, named
classes, classes in it, and operations on what stands to their two sides. An
operation takes all that is before it in its class as its left side.

Reading a class answers how deeply it nests and what is left of the input.
-/

namespace EditorFlags.Pattern.Class

/-! ## Members -/

/-- The names of classes between brackets and colons. -/
def names : List String :=
  ["alnum", "alpha", "ascii", "blank", "cntrl", "digit", "graph", "lower", "print", "punct",
   "space", "upper", "word", "xdigit"]

/-- A named class, from after its opening bracket: whether it is negated, and
what is left. -/
def readNamed : List Char → Option (Bool × List Char)
  | ':' :: rest =>
      let negated := rest.head? == some '^'
      let rest := if negated then rest.drop 1 else rest
      match rest.dropWhile (· != ':') with
      | ':' :: ']' :: left =>
          if names.contains (String.ofList (rest.takeWhile (· != ':'))) then some (negated, left)
          else none
      | _ => none
  | _ => none

/-- Whether a named class may stand in a class. -/
def admitsNamed (mode : Mode) (negated : Bool) : Bool :=
  if mode.unicode then !mode.anyCase else !negated

/-- One member, without regard to what follows it. -/
def readMember (mode : Mode) : List Char → Option (Escape × List Char)
  | [] => none
  | '\\' :: rest => Escape.read mode rest
  | c :: rest => some (.char c false, rest)

/-- Whether what an escape stands for may stand in a class. -/
def admits (mode : Mode) : Escape → Bool
  | .char c _ => mode.admitsMember c
  | .set => true
  | .place => false

/-- What is left after one member, or after a range from one to another. A dash
before the end of the class or before another dash makes no range. -/
def skipRange (mode : Mode) (input : List Char) : Option (List Char) :=
  match readMember mode input with
  | none => none
  | some (first, rest) =>
      if !admits mode first then none
      else
        match mode.skipSpace rest with
        | '-' :: after =>
            if mode.peek? after = some ']' ∨ mode.peek? after = some '-' then
              some ('-' :: after)
            else
              match first, readMember mode (mode.skipSpace after) with
              | .char low _, some (.char high _, left) =>
                  if low ≤ high && mode.admitsMember high then some left else none
              | _, _ => none
        | left => some left

/-! ## Classes -/

/-- A class that is being read: how deeply the left side of its last operation
nests, if it has one, and how deeply each of the items after it does. -/
structure Open where
  left : Option Nat
  items : List Nat
deriving DecidableEq, Repr

/-- The class with one more item. -/
def Open.add (set : Open) (height : Nat) : Open :=
  { set with items := height :: set.items }

/-- How deeply all that has been read of a class nests. -/
def Open.height (set : Open) : Nat :=
  match set.left with
  | none => sideBySide set.items
  | some left => max left (sideBySide set.items) + 1

/-- The class with all that has been read as the left side of an operation. -/
def Open.operate (set : Open) : Open :=
  ⟨some set.height, []⟩

/-- The dashes that come first in a class are members, and so is a bracket in
their place. Answers these and what is left. -/
def readFirst (mode : Mode) (set : Open) : List Char → Option (Open × List Char)
  | [] => none
  | ']' :: rest =>
      if set.items.isEmpty then
        if mode.admitsMember ']' then some (set.add 0, rest) else none
      else some (set, ']' :: rest)
  | c :: rest => some (set, c :: rest)

/-- Passes over the dashes at the front of a class. -/
def readDashes (fuel : Nat) (mode : Mode) (set : Open) (input : List Char) :
    Option (Open × List Char) :=
  match fuel, mode.skipSpace input with
  | fuel + 1, '-' :: rest =>
      if mode.admitsMember '-' then readDashes fuel mode (set.add 0) rest else none
  | _, left => readFirst mode set left

/-- The first items of a class, from after its opening bracket. It may be negated
unless that would take in bytes beyond ASCII. -/
def readOpening (mode : Mode) (input : List Char) : Option (Open × List Char) :=
  let rest := mode.skipSpace input
  let negated := rest.head? == some '^'
  let rest := if negated then rest.drop 1 else rest
  if negated && !mode.unicode then none else readDashes rest.length mode ⟨none, []⟩ rest

/-- Reads on in a class that is open inside of others, innermost first, to the
closing bracket of the outermost. -/
def readOpen (fuel : Nat) (mode : Mode) (set : Open) (outer : List Open) (input : List Char) :
    Option (Nat × List Char) :=
  match fuel, mode.skipSpace input with
  | 0, _ => none
  | _, [] => none
  | fuel + 1, ']' :: rest =>
      match outer with
      | [] => some (set.height + 1, rest)
      | enclosing :: outer => readOpen fuel mode (enclosing.add (set.height + 1)) outer rest
  | fuel + 1, '[' :: rest =>
      match readNamed rest with
      | some (negated, left) =>
          if admitsNamed mode negated then readOpen fuel mode (set.add 0) outer left else none
      | none =>
          match readOpening mode rest with
          | none => none
          | some (inner, left) => readOpen fuel mode inner (set :: outer) left
  | fuel + 1, '&' :: '&' :: rest => readOpen fuel mode set.operate outer rest
  | fuel + 1, '-' :: '-' :: rest => readOpen fuel mode set.operate outer rest
  | fuel + 1, '~' :: '~' :: rest => readOpen fuel mode set.operate outer rest
  | fuel + 1, other =>
      match skipRange mode other with
      | none => none
      | some left => readOpen fuel mode (set.add 0) outer left

/-- A class, from after its opening bracket. -/
def read (mode : Mode) (input : List Char) : Option (Nat × List Char) :=
  match readOpening mode input with
  | none => none
  | some (set, left) => readOpen left.length mode set [] left

end EditorFlags.Pattern.Class
