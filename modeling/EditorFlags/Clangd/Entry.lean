import EditorFlags.FlagFile

/-!
# Entries of a clangd document

Each source line becomes one entry. Its tokens are put together without anything
between them, and as they stand, but for one kind: a token that begins with `.`
and comes when the entry is exactly `-I` is resolved against the base directory,
so that the include path no longer depends on where it is read from. Putting
several tokens together is worth a warning unless they are the two of a resolved
include.
-/

namespace EditorFlags.Clangd

/-- A source line on its way to becoming an entry. -/
structure Entry where
  text : String
  tokens : Nat
  resolved : Bool
deriving DecidableEq, Repr

namespace Entry

/-- The entry of a line that has just begun. -/
def empty : Entry :=
  ⟨"", 0, false⟩

/-- The flag whose operand is resolved. -/
def includeFlag : String := "-I"

/-- Whether a token is the relative path of an include. -/
def resolves (entry : Entry) (token : String) : Bool :=
  entry.text == includeFlag && token.toList.head? == some '.'

/-- The entry with one more token, and what that is worth saying: that a path is
not text. -/
def add (base : Path) (entry : Entry) (token : String) : Entry × List Event :=
  if entry.resolves token then
    let path := base.resolve (.ofText token)
    let text := path.lossyText
    (⟨entry.text ++ text, entry.tokens + 1, true⟩,
      if path.text?.isNone then [.includeNotText path text] else [])
  else (⟨entry.text ++ token, entry.tokens + 1, entry.resolved⟩, [])

/-- How many tokens make one flag. -/
def expected (entry : Entry) : Nat :=
  if entry.resolved then 2 else 1

/-- What ending the line is worth saying: that flags have been glued. -/
def endEvents (entry : Entry) : List Event :=
  if entry.expected < entry.tokens then [.gluedTokens entry.tokens entry.text] else []

/-- The entry as a line of the document. -/
def line (entry : Entry) : String :=
  "    - " ++ entry.text ++ "\n"

end Entry

end EditorFlags.Clangd
