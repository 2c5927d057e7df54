import EditorFlags.Pattern.Mode
import EditorFlags.Text.Digits

/-!
# Escapes in patterns

What a backslash makes of the characters that follow it. Sets of characters and
word boundaries are known for ASCII only, where they do not take in bytes beyond
it.
-/

namespace EditorFlags.Pattern

/-- What an escape stands for: one character, perhaps given as a byte, a set of
them, or a place in the text. -/
inductive Escape where
  | char (value : Char) (asByte : Bool)
  | set
  | place
deriving DecidableEq, Repr

namespace Escape

/-- Goes on with a number through `count` more hexadecimal digits. -/
def readDigits (mode : Mode) (value : Nat) : Nat → List Char → Option (Nat × List Char)
  | 0, input => some (value, input)
  | count + 1, input =>
      match mode.skipSpace input with
      | [] => none
      | digit :: rest =>
          match Digits.hexValue? digit with
          | none => none
          | some more => readDigits mode (value * 16 + more) count rest

/-- The character with a number of hexadecimal digits. -/
def readHex (mode : Mode) (count : Nat) (input : List Char) : Option (Escape × List Char) :=
  match readDigits mode 0 count input with
  | none => none
  | some (value, left) =>
      if value.isValidChar then some (.char (Char.ofNat value) (count == 2), left) else none

/-- The character that a letter stands for after a backslash. -/
def control? (letter : Char) : Option Char :=
  if letter = 'a' then some '\x07'
  else if letter = 'f' then some '\x0c'
  else if letter = 'n' then some '\n'
  else if letter = 'r' then some '\r'
  else if letter = 't' then some '\t'
  else if letter = 'v' then some '\x0b'
  else none

/-- Whether a character stands for itself after a backslash. -/
def isSelf (c : Char) : Bool :=
  c.toNat < 0x80 && !c.isAlphanum && c != '<' && c != '>'

/-- An escape, from after its backslash, and what is left. -/
def read (mode : Mode) : List Char → Option (Escape × List Char)
  | [] => none
  | letter :: rest =>
      if letter = 'x' then readHex mode 2 rest
      else if letter = 'u' then readHex mode 4 rest
      else if letter = 'U' then readHex mode 8 rest
      else if "dsw".toList.contains letter then if mode.unicode then none else some (.set, rest)
      else if "bB<>".toList.contains letter then
        if mode.unicode then none else some (.place, rest)
      else if letter = 'A' ∨ letter = 'z' then some (.place, rest)
      else if isSelf letter then some (.char letter false, rest)
      else (control? letter).map fun c => (.char c false, rest)

end Escape

end EditorFlags.Pattern
