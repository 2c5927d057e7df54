import Mathlib.Tactic.SplitIfs
import EditorFlags.Text.Utf8

/-!
# Text written as bytes and read back

A character is read back from its bytes, whatever follows them
(`nextPiece_encodeChar`), so the pieces of an encoded text are its characters
(`pieces_encodeChars`) and `decode?` undoes `encode`. Shown as text, only no bytes
at all are the empty text.
-/

namespace EditorFlags.Utf8

/-! ## Continuation bytes -/

@[simp] theorem takeTail_zero (range : UInt8 × UInt8) (bytes : Bytes) :
    takeTail 0 range bytes = ([], bytes) := by
  cases bytes <;> rfl

theorem takeTail_succ {range : UInt8 × UInt8} {byte : UInt8} (count : Nat) (rest : Bytes)
    (low : range.1.toNat ≤ byte.toNat) (high : byte.toNat ≤ range.2.toNat) :
    takeTail (count + 1) range (byte :: rest) =
      (byte :: (takeTail count (0x80, 0xBF) rest).1, (takeTail count (0x80, 0xBF) rest).2) := by
  have inRange : range.1 ≤ byte ∧ byte ≤ range.2 := ⟨low, high⟩
  simp only [takeTail, if_pos inRange]

theorem takeTail_continuation {byte : UInt8} (count : Nat) (rest : Bytes)
    (low : 0x80 ≤ byte.toNat) (high : byte.toNat ≤ 0xBF) :
    takeTail (count + 1) (0x80, 0xBF) (byte :: rest) =
      (byte :: (takeTail count (0x80, 0xBF) rest).1, (takeTail count (0x80, 0xBF) rest).2) :=
  takeTail_succ count rest low high

theorem tailLength?_of_toNat {lead : UInt8} {count : Nat}
    (shape : 0xC2 ≤ lead.toNat ∧ lead.toNat ≤ 0xDF ∧ count = 1 ∨
      0xE0 ≤ lead.toNat ∧ lead.toNat ≤ 0xEF ∧ count = 2 ∨
      0xF0 ≤ lead.toNat ∧ lead.toNat ≤ 0xF4 ∧ count = 3) :
    tailLength? lead = some count := by
  simp only [tailLength?, UInt8.le_iff_toNat_le, UInt8.reduceToNat]
  split_ifs <;> (congr 1; omega)

/-- A second byte is in the range that its first byte asks for if it continues a
character and the two begin no overlong form, no surrogate and nothing past
U+10FFFF. -/
theorem secondRange_contains (lead second : UInt8)
    (continues : 0x80 ≤ second.toNat ∧ second.toNat ≤ 0xBF)
    (longEnough : lead.toNat = 0xE0 → 0xA0 ≤ second.toNat)
    (notSurrogate : lead.toNat = 0xED → second.toNat ≤ 0x9F)
    (longEnough' : lead.toNat = 0xF0 → 0x90 ≤ second.toNat)
    (notPast : lead.toNat = 0xF4 → second.toNat ≤ 0x8F) :
    (secondRange lead).1.toNat ≤ second.toNat ∧ second.toNat ≤ (secondRange lead).2.toNat := by
  simp only [secondRange, ← UInt8.toNat_inj, UInt8.reduceToNat]
  split_ifs <;> simp <;> omega

theorem nextPiece_of_takeTail {lead : UInt8} {count : Nat} {rest tail left : Bytes}
    (beyondAscii : 0x80 ≤ lead.toNat) (counted : tailLength? lead = some count)
    (taken : takeTail count (secondRange lead) rest = (tail, left)) (whole : tail.length = count) :
    nextPiece lead rest = (.char (Char.ofNat (scalar lead tail)), left) := by
  have notAscii : ¬ lead < 0x80 := by
    rw [UInt8.lt_iff_toNat_lt]
    show ¬ lead.toNat < 128
    omega
  simp [nextPiece, notAscii, counted, taken, whole]

/-! ## Characters by the number of their bytes -/

section
variable {v : Nat} {lead second third fourth : UInt8}

theorem nextPiece_one (small : v ≤ 0x7F) (leadIs : lead.toNat = v) (rest : Bytes) :
    nextPiece lead rest = (.char (Char.ofNat v), rest) := by
  have ascii : lead < 0x80 := by
    rw [UInt8.lt_iff_toNat_lt, leadIs]
    show v < 128
    omega
  have spelled : Char.ofUInt8 lead = Char.ofNat v := by
    rw [← Char.ofNat_toNat (Char.ofUInt8 lead), ← leadIs]
    rfl
  simp only [nextPiece, if_pos ascii, spelled]

theorem nextPiece_two (low : 0x7F < v) (high : v ≤ 0x7FF)
    (leadIs : lead.toNat = v / 64 % 0x20 + 0xC0) (secondIs : second.toNat = v % 0x40 + 0x80)
    (rest : Bytes) :
    nextPiece lead (second :: rest) = (.char (Char.ofNat v), rest) := by
  have inRange := secondRange_contains lead second (by omega) (by omega) (by omega) (by omega)
    (by omega)
  have taken := takeTail_succ 0 rest inRange.1 inRange.2
  rw [nextPiece_of_takeTail (by omega) (tailLength?_of_toNat (by omega)) taken (by simp)]
  simp only [takeTail_zero, scalar, leadValues, List.foldl_cons, List.foldl_nil, List.length_cons,
    List.length_nil, leadIs, secondIs]
  congr 3
  omega

theorem nextPiece_three (low : 0x7FF < v) (high : v ≤ 0xFFFF) (valid : v < 0xD800 ∨ 0xDFFF < v)
    (leadIs : lead.toNat = v / 4096 % 0x10 + 0xE0)
    (secondIs : second.toNat = v / 64 % 0x40 + 0x80) (thirdIs : third.toNat = v % 0x40 + 0x80)
    (rest : Bytes) :
    nextPiece lead (second :: third :: rest) = (.char (Char.ofNat v), rest) := by
  have inRange := secondRange_contains lead second (by omega) (by omega) (by omega) (by omega)
    (by omega)
  have taken := takeTail_succ 1 (third :: rest) inRange.1 inRange.2
  rw [takeTail_continuation 0 rest (by omega) (by omega)] at taken
  rw [nextPiece_of_takeTail (by omega) (tailLength?_of_toNat (by omega)) taken (by simp)]
  simp only [takeTail_zero, scalar, leadValues, List.foldl_cons, List.foldl_nil, List.length_cons,
    List.length_nil, leadIs, secondIs, thirdIs]
  congr 3
  omega

theorem nextPiece_four (low : 0xFFFF < v) (high : v < 0x110000)
    (leadIs : lead.toNat = v / 262144 % 0x08 + 0xF0)
    (secondIs : second.toNat = v / 4096 % 0x40 + 0x80)
    (thirdIs : third.toNat = v / 64 % 0x40 + 0x80) (fourthIs : fourth.toNat = v % 0x40 + 0x80)
    (rest : Bytes) :
    nextPiece lead (second :: third :: fourth :: rest) = (.char (Char.ofNat v), rest) := by
  have inRange := secondRange_contains lead second (by omega) (by omega) (by omega) (by omega)
    (by omega)
  have taken := takeTail_succ 2 (third :: fourth :: rest) inRange.1 inRange.2
  rw [takeTail_continuation 1 (fourth :: rest) (by omega) (by omega),
    takeTail_continuation 0 rest (by omega) (by omega)] at taken
  rw [nextPiece_of_takeTail (by omega) (tailLength?_of_toNat (by omega)) taken (by simp)]
  simp only [takeTail_zero, scalar, leadValues, List.foldl_cons, List.foldl_nil, List.length_cons,
    List.length_nil, leadIs, secondIs, thirdIs, fourthIs]
  congr 3
  omega

end

theorem toNat_ofNat_add {n room base : Nat} (small : n < room) (fits : room + base ≤ 256) :
    (UInt8.ofNat (n + base)).toNat = n + base := by
  simp only [UInt8.toNat_ofNat']
  omega

theorem toNat_continuation (n : Nat) : (UInt8.ofNat (n % 0x40 + 0x80)).toNat = n % 0x40 + 0x80 :=
  toNat_ofNat_add (Nat.mod_lt n (by decide)) (by decide)

/-- A character is read back from its bytes, whatever follows them. -/
theorem nextPiece_encodeChar (c : Char) (rest : Bytes) :
    ∃ lead tail, String.utf8EncodeChar c = lead :: tail ∧
      nextPiece lead (tail ++ rest) = (.char c, rest) := by
  have valid : c.val.toNat < 0xD800 ∨ (0xDFFF < c.val.toNat ∧ c.val.toNat < 0x110000) := c.valid
  have spelled : Char.ofNat c.val.toNat = c := Char.ofNat_toNat c
  simp only [String.utf8EncodeChar]
  generalize c.val.toNat = v at valid spelled ⊢
  subst spelled
  have below (n : Nat) {room : Nat} (positive : 0 < room) : n % room < room :=
    Nat.mod_lt n positive
  -- The size of the character says how many bytes there are, each a digit in base 64.
  split_ifs with one two three
  · have leadIs : (UInt8.ofNat v).toNat = v := by
      simp only [UInt8.toNat_ofNat']
      omega
    exact ⟨_, _, rfl, nextPiece_one one leadIs rest⟩
  · exact ⟨_, _, rfl, nextPiece_two (by omega) two
      (toNat_ofNat_add (below _ (by decide)) (by decide)) (toNat_continuation _) rest⟩
  · exact ⟨_, _, rfl, nextPiece_three (by omega) three (by omega)
      (toNat_ofNat_add (below _ (by decide)) (by decide)) (toNat_continuation _)
      (toNat_continuation _) rest⟩
  · exact ⟨_, _, rfl, nextPiece_four (by omega) (by omega)
      (toNat_ofNat_add (below _ (by decide)) (by decide)) (toNat_continuation _)
      (toNat_continuation _) (toNat_continuation _) rest⟩

/-! ## Whole texts -/

theorem pieces_encodeChars (text : List Char) (rest : Bytes) :
    pieces (text.flatMap String.utf8EncodeChar ++ rest) = text.map Piece.char ++ pieces rest := by
  induction text with
  | nil => rfl
  | cons c text ih =>
      obtain ⟨lead, tail, encoded, next⟩ :=
        nextPiece_encodeChar c (text.flatMap String.utf8EncodeChar ++ rest)
      rw [List.flatMap_cons, encoded, List.append_assoc, List.cons_append, pieces, next]
      simp only [ih, List.map_cons, List.cons_append]

theorem mapM_char?_map (text : List Char) :
    (text.map Piece.char).mapM Piece.char? = some text := by
  induction text with
  | nil => rfl
  | cons c text ih => simp [List.mapM_cons, Piece.char?, ih]

theorem pieces_encode (text : String) : pieces (encode text) = text.toList.map Piece.char := by
  have read := pieces_encodeChars text.toList []
  rwa [List.append_nil, pieces, List.append_nil] at read

/-- What has been written as UTF-8 is read as what it was. -/
@[simp] theorem decode?_encode (text : String) : decode? (encode text) = some text := by
  rw [decode?, pieces_encode, mapM_char?_map, Option.map_some, String.ofList_toList]

/-- It is shown as what it was, too. -/
@[simp] theorem lossy_encode (text : String) : lossy (encode text) = text := by
  rw [lossy, pieces_encode, List.map_map]
  exact (congrArg String.ofList (List.map_id text.toList)).trans String.ofList_toList

@[simp] theorem encode_append (first second : String) :
    encode (first ++ second) = encode first ++ encode second := by
  simp [encode, String.toList_append]

theorem lossy_eq_empty_iff (bytes : Bytes) : lossy bytes = "" ↔ bytes = [] := by
  cases bytes with
  | nil => simp [lossy, pieces]
  | cons lead rest => simp [lossy, pieces]

end EditorFlags.Utf8
