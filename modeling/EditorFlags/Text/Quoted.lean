import EditorFlags.Text.Utf8
import EditorFlags.Text.Printable

/-!
# Quoted text in messages

Messages show texts and paths between double quotes. The two delimiters of the
form, the quote and the backslash, are escaped by a backslash, as are the
characters with a short name of their own; other invisible characters are
written by their code point in hexadecimal. Bytes that are not text are written
one by one as two hexadecimal digits.
-/

namespace EditorFlags.Quoted

/-- What stands for one character between the quotes. -/
def escapeChar (c : Char) : List Char :=
  if c = '\x00' then ['\\', '0']
  else if c = '\t' then ['\\', 't']
  else if c = '\r' then ['\\', 'r']
  else if c = '\n' then ['\\', 'n']
  else if c = '\\' then ['\\', '\\']
  else if c = '"' then ['\\', '"']
  else if Printable.isVisible c then [c]
  else ['\\', 'u', '\x7b'] ++ Nat.toDigits 16 c.toNat ++ ['\x7d']

/-- What stands for one byte that is not part of a character. -/
def escapeByte (byte : UInt8) : List Char :=
  ['\\', 'x', (Nat.digitChar (byte.toNat / 16)).toUpper, (Nat.digitChar (byte.toNat % 16)).toUpper]

/-- What stands for one piece of some bytes. -/
def escapePiece : Utf8.Piece → List Char
  | .char value => escapeChar value
  | .broken bytes => bytes.flatMap escapeByte

/-- A text in quotes. -/
def ofText (text : String) : String :=
  String.ofList ('"' :: text.toList.flatMap escapeChar ++ ['"'])

/-- Bytes in quotes, as text where they are text. -/
def ofBytes (bytes : Bytes) : String :=
  String.ofList ('"' :: (Utf8.pieces bytes).flatMap escapePiece ++ ['"'])

end EditorFlags.Quoted
