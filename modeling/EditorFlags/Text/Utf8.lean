/-!
# Text as bytes

`encode` writes a text as UTF-8. Bytes are read back by `pieces`, which cuts
them into characters and broken runs. A broken run is as long as it can be
while still being the beginning of some character, so every byte belongs to
exactly one piece. The two ways of reading bytes as text are both readings of
the pieces: `decode?` takes characters only, `lossy` puts one U+FFFD in the
place of each broken run.
-/

namespace EditorFlags

/-- What files and paths are made of. -/
abbrev Bytes := List UInt8

namespace Utf8

/-- The UTF-8 bytes of a text. -/
def encode (text : String) : Bytes :=
  text.toList.flatMap String.utf8EncodeChar

/-- How many bytes some characters take. -/
def size (text : List Char) : Nat :=
  text.foldl (fun size c => size + c.utf8Size) 0

/-! ## The shape of one character -/

/-- How many bytes follow the first byte of a character beyond ASCII; `none` for a
byte that begins no such character. -/
def tailLength? (lead : UInt8) : Option Nat :=
  if 0xC2 ≤ lead ∧ lead ≤ 0xDF then some 1
  else if 0xE0 ≤ lead ∧ lead ≤ 0xEF then some 2
  else if 0xF0 ≤ lead ∧ lead ≤ 0xF4 then some 3
  else none

/-- The second bytes allowed after `lead`. The narrow ranges keep out overlong
forms, surrogates and everything past U+10FFFF. -/
def secondRange (lead : UInt8) : UInt8 × UInt8 :=
  if lead = 0xE0 then (0xA0, 0xBF)
  else if lead = 0xED then (0x80, 0x9F)
  else if lead = 0xF0 then (0x90, 0xBF)
  else if lead = 0xF4 then (0x80, 0x8F)
  else (0x80, 0xBF)

/-- Takes at most `count` continuation bytes, the first of them from `range`,
and answers what was taken and what is left. -/
def takeTail (count : Nat) (range : UInt8 × UInt8) : Bytes → Bytes × Bytes
  | [] => ([], [])
  | byte :: rest =>
      match count with
      | 0 => ([], byte :: rest)
      | more + 1 =>
          if range.1 ≤ byte ∧ byte ≤ range.2 then
            let (taken, left) := takeTail more (0x80, 0xBF) rest
            (byte :: taken, left)
          else ([], byte :: rest)

/-- The number of values that the first byte of a character takes by itself, by
the number of bytes after it, of which there are some. -/
def leadValues : Nat → Nat
  | 1 => 32
  | 2 => 16
  | _ => 8

/-- The code point that a first byte and its continuation bytes spell. -/
def scalar (lead : UInt8) (tail : Bytes) : Nat :=
  tail.foldl (fun value byte => value * 64 + byte.toNat % 64)
    (lead.toNat % leadValues tail.length)

/-! ## Cutting bytes into pieces -/

/-- A character, or the longest run of bytes that begins one without finishing
it. -/
inductive Piece where
  | char (value : Char)
  | broken (bytes : Bytes)
deriving DecidableEq, Repr

/-- The piece that begins with `lead`, and the bytes after it. -/
def nextPiece (lead : UInt8) (rest : Bytes) : Piece × Bytes :=
  if lead < 0x80 then (.char (Char.ofUInt8 lead), rest)
  else
    match tailLength? lead with
    | none => (.broken [lead], rest)
    | some count =>
        let (tail, left) := takeTail count (secondRange lead) rest
        if tail.length = count then (.char (Char.ofNat (scalar lead tail)), left)
        else (.broken (lead :: tail), left)

theorem takeTail_append (count : Nat) (range : UInt8 × UInt8) (bytes : Bytes) :
    (takeTail count range bytes).1 ++ (takeTail count range bytes).2 = bytes := by
  induction bytes generalizing count range with
  | nil => simp [takeTail]
  | cons byte rest ih =>
      cases count with
      | zero => simp [takeTail]
      | succ more =>
          simp only [takeTail]
          split
          · simpa using ih more (0x80, 0xBF)
          · simp

theorem length_nextPiece_le (lead : UInt8) (rest : Bytes) :
    (nextPiece lead rest).2.length ≤ rest.length := by
  unfold nextPiece
  split
  · simp
  · split
    · simp
    · next count _ =>
        have total := congrArg List.length (takeTail_append count (secondRange lead) rest)
        simp only [List.length_append] at total
        dsimp only
        split <;> simp only <;> omega

/-- All pieces of some bytes, in order. -/
def pieces : Bytes → List Piece
  | [] => []
  | lead :: rest => (nextPiece lead rest).1 :: pieces (nextPiece lead rest).2
termination_by bytes => bytes.length
decreasing_by
  have := length_nextPiece_le lead rest
  simp only [List.length_cons]
  omega

/-! ## Reading bytes as text -/

/-- The character of a piece that is one. -/
def Piece.char? : Piece → Option Char
  | .char value => some value
  | .broken _ => none

/-- The character shown for a piece: itself, or U+FFFD for a broken run. -/
def Piece.shown : Piece → Char
  | .char value => value
  | .broken _ => '\uFFFD'

/-- The text that the bytes encode, if every piece of them is a character. -/
def decode? (bytes : Bytes) : Option String :=
  ((pieces bytes).mapM Piece.char?).map String.ofList

/-- The text between two distances from the beginning of the bytes of a text, the
second not below the first; `none` if one of them is inside of a character. -/
def slice? (bytes : Bytes) (start stop : Nat) : Option String :=
  if (decode? (bytes.take start)).isSome then decode? ((bytes.take stop).drop start) else none

/-- Text in place of the bytes, one U+FFFD for each broken run. -/
def lossy (bytes : Bytes) : String :=
  String.ofList ((pieces bytes).map Piece.shown)

end Utf8

end EditorFlags
