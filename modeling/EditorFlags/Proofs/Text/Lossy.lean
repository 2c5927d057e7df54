import EditorFlags.Proofs.Text.Utf8
import Mathlib.Data.List.Basic

/-!
# Bytes that need not be text

Cutting bytes into pieces loses none of them (`flatMap_bytes_pieces`), so bytes that are
read as a text are the bytes of that text. A byte below 0x80 is a piece of its own
wherever it stands (`pieces_append_ascii`). Hence what is done to bytes that are no text
when they are shown, `mend`, is done between the separators and leaves these as they are.
-/

namespace EditorFlags.Utf8

/-! ## What the pieces are made of -/

/-- The bytes of a piece. -/
def Piece.bytes : Piece → Bytes
  | .char value => String.utf8EncodeChar value
  | .broken bytes => bytes

theorem toNat_ofNat_of_valid {n : Nat} (valid : n < 0xD800 ∨ (0xDFFF < n ∧ n < 0x110000)) :
    (Char.ofNat n).val.toNat = n := by
  rw [Char.ofNat, dif_pos valid]
  rfl

section
variable {v : Nat} {lead second third fourth : UInt8}

theorem encodeChar_two (valueIs : v = lead.toNat % 32 * 64 + second.toNat % 64)
    (leadLow : 0xC2 ≤ lead.toNat) (leadHigh : lead.toNat ≤ 0xDF)
    (secondLow : 0x80 ≤ second.toNat) (secondHigh : second.toNat ≤ 0xBF) :
    String.utf8EncodeChar (Char.ofNat v) = [lead, second] := by
  have read := toNat_ofNat_of_valid (n := v) (by omega)
  simp only [String.utf8EncodeChar, read]
  rw [if_neg (by omega), if_pos (by omega)]
  simp only [List.cons.injEq, and_true, ← UInt8.toNat_inj, UInt8.toNat_ofNat']
  omega

theorem encodeChar_three
    (valueIs : v = (lead.toNat % 16 * 64 + second.toNat % 64) * 64 + third.toNat % 64)
    (leadLow : 0xE0 ≤ lead.toNat) (leadHigh : lead.toNat ≤ 0xEF)
    (secondLow : 0x80 ≤ second.toNat) (secondHigh : second.toNat ≤ 0xBF)
    (longEnough : lead.toNat = 0xE0 → 0xA0 ≤ second.toNat)
    (notSurrogate : lead.toNat = 0xED → second.toNat ≤ 0x9F)
    (thirdLow : 0x80 ≤ third.toNat) (thirdHigh : third.toNat ≤ 0xBF) :
    String.utf8EncodeChar (Char.ofNat v) = [lead, second, third] := by
  have read := toNat_ofNat_of_valid (n := v) (by omega)
  simp only [String.utf8EncodeChar, read]
  rw [if_neg (by omega), if_neg (by omega), if_pos (by omega)]
  simp only [List.cons.injEq, and_true, ← UInt8.toNat_inj, UInt8.toNat_ofNat']
  omega

theorem encodeChar_four
    (valueIs : v = ((lead.toNat % 8 * 64 + second.toNat % 64) * 64 + third.toNat % 64) * 64 +
      fourth.toNat % 64)
    (leadLow : 0xF0 ≤ lead.toNat) (leadHigh : lead.toNat ≤ 0xF4)
    (secondLow : 0x80 ≤ second.toNat) (secondHigh : second.toNat ≤ 0xBF)
    (longEnough : lead.toNat = 0xF0 → 0x90 ≤ second.toNat)
    (notPast : lead.toNat = 0xF4 → second.toNat ≤ 0x8F)
    (thirdLow : 0x80 ≤ third.toNat) (thirdHigh : third.toNat ≤ 0xBF)
    (fourthLow : 0x80 ≤ fourth.toNat) (fourthHigh : fourth.toNat ≤ 0xBF) :
    String.utf8EncodeChar (Char.ofNat v) = [lead, second, third, fourth] := by
  have read := toNat_ofNat_of_valid (n := v) (by omega)
  simp only [String.utf8EncodeChar, read]
  rw [if_neg (by omega), if_neg (by omega), if_neg (by omega)]
  simp only [List.cons.injEq, and_true, ← UInt8.toNat_inj, UInt8.toNat_ofNat']
  omega

end

/-- What is taken has a first byte in the range, and continuation bytes after it. -/
theorem takeTail_eq_cons {count : Nat} {range : UInt8 × UInt8} {bytes tail left : Bytes}
    {byte : UInt8} (taken : takeTail count range bytes = (byte :: tail, left)) :
    range.1.toNat ≤ byte.toNat ∧ byte.toNat ≤ range.2.toNat ∧
      ∃ rest, takeTail (count - 1) (0x80, 0xBF) rest = (tail, left) := by
  cases bytes with
  | nil => simp [takeTail] at taken
  | cons first rest =>
      cases count with
      | zero => simp [takeTail] at taken
      | succ more =>
          simp only [takeTail] at taken
          split at taken
          · next inRange =>
              simp only [Prod.mk.injEq, List.cons.injEq] at taken
              obtain ⟨⟨rfl, rfl⟩, rfl⟩ := taken
              exact ⟨inRange.1, inRange.2, rest, rfl⟩
          · simp at taken

theorem continues_of_secondRange {lead second : UInt8}
    (low : (secondRange lead).1.toNat ≤ second.toNat)
    (high : second.toNat ≤ (secondRange lead).2.toNat) :
    0x80 ≤ second.toNat ∧ second.toNat ≤ 0xBF ∧
      (lead.toNat = 0xE0 → 0xA0 ≤ second.toNat) ∧ (lead.toNat = 0xED → second.toNat ≤ 0x9F) ∧
      (lead.toNat = 0xF0 → 0x90 ≤ second.toNat) ∧ (lead.toNat = 0xF4 → second.toNat ≤ 0x8F) := by
  simp only [secondRange, ← UInt8.toNat_inj, UInt8.reduceToNat] at low high
  split_ifs at low high <;> simp at low high <;> omega

theorem toNat_of_tailLength? {lead : UInt8} {count : Nat}
    (counted : tailLength? lead = some count) :
    0xC2 ≤ lead.toNat ∧ lead.toNat ≤ 0xDF ∧ count = 1 ∨
      0xE0 ≤ lead.toNat ∧ lead.toNat ≤ 0xEF ∧ count = 2 ∨
      0xF0 ≤ lead.toNat ∧ lead.toNat ≤ 0xF4 ∧ count = 3 := by
  simp only [tailLength?, UInt8.le_iff_toNat_le, UInt8.reduceToNat] at counted
  split_ifs at counted <;> simp at counted <;> omega

/-- The bytes that are read as one character are the bytes of that character. -/
theorem encodeChar_scalar {lead : UInt8} {count : Nat} {rest tail left : Bytes}
    (counted : tailLength? lead = some count)
    (taken : takeTail count (secondRange lead) rest = (tail, left)) (whole : tail.length = count) :
    String.utf8EncodeChar (Char.ofNat (scalar lead tail)) = lead :: tail := by
  have shape := toNat_of_tailLength? counted
  cases tail with
  | nil => simp at whole; omega
  | cons second tail =>
      obtain ⟨secondLow, secondHigh, others, taken⟩ := takeTail_eq_cons taken
      obtain ⟨low, high, noE0, noED, noF0, noF4⟩ := continues_of_secondRange secondLow secondHigh
      cases tail with
      | nil => 
          simp at whole
          exact encodeChar_two rfl (by omega) (by omega) low high
      | cons third tail =>
          obtain ⟨thirdLow, thirdHigh, others, taken⟩ := takeTail_eq_cons taken
          cases tail with
          | nil => 
              simp at whole
              exact encodeChar_three rfl (by omega) (by omega) low high noE0 noED thirdLow thirdHigh
          | cons fourth tail =>
              obtain ⟨fourthLow, fourthHigh, -⟩ := takeTail_eq_cons taken
              obtain rfl : tail = [] := by
                simp at whole
                exact List.length_eq_zero_iff.mp (by omega)
              simp at whole
              exact encodeChar_four rfl (by omega) (by omega) low high noF0 noF4 thirdLow thirdHigh
                fourthLow fourthHigh

theorem encodeChar_ofUInt8 {byte : UInt8} (ascii : byte.toNat < 0x80) :
    String.utf8EncodeChar (Char.ofUInt8 byte) = [byte] := by
  have read : (Char.ofUInt8 byte).val.toNat = byte.toNat := rfl
  simp only [String.utf8EncodeChar, read]
  rw [if_pos (by omega), UInt8.ofNat_toNat]

theorem bytes_nextPiece (lead : UInt8) (rest : Bytes) :
    (nextPiece lead rest).1.bytes ++ (nextPiece lead rest).2 = lead :: rest := by
  unfold nextPiece
  split
  · next ascii =>
      simp only [Piece.bytes, encodeChar_ofUInt8 ascii, List.singleton_append]
  · split
    · rfl
    · next count counted =>
        have kept := takeTail_append count (secondRange lead) rest
        dsimp only
        split
        · next whole =>
            simp only [Piece.bytes, encodeChar_scalar counted rfl whole, List.cons_append, kept]
        · simp only [Piece.bytes, List.cons_append, kept]

/-- Nothing is lost when bytes are cut into pieces. -/
theorem flatMap_bytes_pieces (bytes : Bytes) : (pieces bytes).flatMap Piece.bytes = bytes := by
  fun_induction pieces bytes with
  | case1 => rfl
  | case2 lead rest ih => rw [List.flatMap_cons, ih, bytes_nextPiece]

theorem eq_map_char_of_mapM {cut : List Piece} {chars : List Char}
    (read : cut.mapM Piece.char? = some chars) : cut = chars.map .char := by
  induction cut generalizing chars with
  | nil =>
      obtain rfl : chars = [] := by simpa using read.symm
      rfl
  | cons piece others ih =>
      cases piece with
      | broken bytes => simp [List.mapM_cons, Piece.char?] at read
      | char value =>
          obtain ⟨later, readLater, rfl⟩ : ∃ later, others.mapM Piece.char? = some later ∧
              value :: later = chars := by
            simpa [List.mapM_cons, Piece.char?, Option.bind_eq_some_iff] using read
          rw [ih readLater, List.map_cons]

/-- Bytes that are read as a text are the bytes of that text. -/
theorem encode_of_decode? {bytes : Bytes} {text : String} (decoded : decode? bytes = some text) :
    encode text = bytes := by
  obtain ⟨chars, read, rfl⟩ := Option.map_eq_some_iff.mp decoded
  calc encode (String.ofList chars)
      = chars.flatMap String.utf8EncodeChar := by rw [encode, String.toList_ofList]
    _ = (chars.map Piece.char).flatMap Piece.bytes := by
        simp [List.flatMap_map, Piece.bytes]
    _ = (pieces bytes).flatMap Piece.bytes := by rw [← eq_map_char_of_mapM read]
    _ = bytes := flatMap_bytes_pieces bytes

/-! ## Separators -/

theorem takeTail_append_ascii {count : Nat} {range : UInt8 × UInt8} {c : UInt8}
    (beyondAscii : 0x80 ≤ range.1.toNat) (ascii : c.toNat < 0x80) (bytes rest : Bytes) :
    takeTail count range (bytes ++ c :: rest) =
      ((takeTail count range bytes).1, (takeTail count range bytes).2 ++ c :: rest) := by
  induction bytes generalizing count range with
  | nil =>
      have outside : ¬ (range.1 ≤ c ∧ c ≤ range.2) := by
        rintro ⟨low, -⟩
        have := UInt8.le_iff_toNat_le.mp low
        omega
      cases count <;> simp [takeTail, outside]
  | cons byte bytes ih =>
      cases count with
      | zero => simp [takeTail]
      | succ more =>
          have next := @ih more (0x80, 0xBF) (by decide)
          simp only [List.cons_append, takeTail]
          split
          · rw [next]
          · rfl

theorem nextPiece_append_ascii {c : UInt8} (ascii : c.toNat < 0x80) (lead : UInt8)
    (bytes rest : Bytes) :
    nextPiece lead (bytes ++ c :: rest) =
      ((nextPiece lead bytes).1, (nextPiece lead bytes).2 ++ c :: rest) := by
  unfold nextPiece
  split
  · rfl
  · split
    · rfl
    · next count counted =>
        have beyondAscii : 0x80 ≤ (secondRange lead).1.toNat := by
          unfold secondRange
          split_ifs <;> decide
        simp only [takeTail_append_ascii beyondAscii ascii]
        split <;> rfl

/-- A byte below 0x80 is a piece of its own wherever it stands. -/
theorem pieces_append_ascii {c : UInt8} (ascii : c.toNat < 0x80) (bytes rest : Bytes) :
    pieces (bytes ++ c :: rest) = pieces bytes ++ .char (Char.ofUInt8 c) :: pieces rest := by
  fun_induction pieces bytes with
  | case1 =>
      have alone : nextPiece c rest = (.char (Char.ofUInt8 c), rest) := if_pos ascii
      rw [List.nil_append, pieces, alone, List.nil_append]
  | case2 lead bytes ih =>
      rw [List.cons_append, pieces, nextPiece_append_ascii ascii, ih, List.cons_append]

/-! ## Bytes made text -/

/-- Some bytes with what is no text in them replaced: the bytes of the text that they are
shown as. -/
def mend (bytes : Bytes) : Bytes :=
  encode (lossy bytes)

theorem mend_eq_flatMap (bytes : Bytes) :
    mend bytes = (pieces bytes).flatMap fun piece => String.utf8EncodeChar piece.shown := by
  simp [mend, encode, lossy, List.flatMap_map]

theorem mend_append_ascii {c : UInt8} (ascii : c.toNat < 0x80) (bytes rest : Bytes) :
    mend (bytes ++ c :: rest) = mend bytes ++ c :: mend rest := by
  simp [mend_eq_flatMap, pieces_append_ascii ascii, Piece.shown, encodeChar_ofUInt8 ascii]

theorem mend_eq_nil_iff {bytes : Bytes} : mend bytes = [] ↔ bytes = [] := by
  rw [← lossy_eq_empty_iff bytes, mend, encode, ← String.toList_inj, String.toList_empty]
  cases (lossy bytes).toList with
  | nil => simp
  | cons c rest => simp

@[simp] theorem mend_nil : mend [] = [] :=
  mend_eq_nil_iff.mpr rfl

/-- Only a character that stands for itself has a byte below 0x80. -/
theorem Piece.bytes_of_mem_ascii {piece : Piece} {byte : UInt8} (ascii : byte.toNat < 0x80)
    (member : byte ∈ String.utf8EncodeChar piece.shown) :
    piece.bytes = String.utf8EncodeChar piece.shown := by
  cases piece with
  | char value => rfl
  | broken bytes =>
      have replacement : String.utf8EncodeChar '\uFFFD' = [0xEF, 0xBF, 0xBD] := by decide
      rw [Piece.shown, replacement] at member
      simp at member
      rcases member with rfl | rfl | rfl <;> exact absurd ascii (by decide)

/-- A byte below 0x80 does not come from mending. -/
theorem mem_of_mem_mend {bytes : Bytes} {byte : UInt8} (ascii : byte.toNat < 0x80)
    (member : byte ∈ mend bytes) : byte ∈ bytes := by
  rw [mend_eq_flatMap] at member
  obtain ⟨piece, found, member⟩ := List.mem_flatMap.mp member
  rw [← flatMap_bytes_pieces bytes]
  refine List.mem_flatMap.mpr ⟨piece, found, ?_⟩
  rwa [Piece.bytes_of_mem_ascii ascii member]

/-- A character below 0x80 is shown where its byte is, and nowhere else. -/
theorem mem_lossy_iff {c : UInt8} (ascii : c.toNat < 0x80) {bytes : Bytes} :
    Char.ofUInt8 c ∈ (lossy bytes).toList ↔ c ∈ bytes := by
  constructor
  · intro shown
    apply mem_of_mem_mend ascii
    rw [mend, encode, List.mem_flatMap]
    exact ⟨Char.ofUInt8 c, shown, by simp [encodeChar_ofUInt8 ascii]⟩
  · intro member
    obtain ⟨before, after, rfl⟩ := List.append_of_mem member
    rw [lossy, String.toList_ofList, pieces_append_ascii ascii]
    simp [Piece.shown]

/-- Bytes that come to be all below 0x80 have been so before. -/
theorem mend_eq_self_of_ascii {bytes : Bytes} (ascii : ∀ byte ∈ mend bytes, byte.toNat < 0x80) :
    mend bytes = bytes := by
  have own : ∀ piece ∈ pieces bytes, String.utf8EncodeChar piece.shown = piece.bytes := by
    intro piece found
    obtain ⟨byte, rest, spelled⟩ :=
      List.exists_cons_of_ne_nil (@String.utf8EncodeChar_ne_nil piece.shown)
    have member : byte ∈ String.utf8EncodeChar piece.shown := by simp [spelled]
    have shown : byte ∈ mend bytes := by
      rw [mend_eq_flatMap]
      exact List.mem_flatMap.mpr ⟨piece, found, member⟩
    exact (Piece.bytes_of_mem_ascii (ascii byte shown) member).symm
  calc mend bytes
      = (pieces bytes).flatMap fun piece => String.utf8EncodeChar piece.shown :=
        mend_eq_flatMap bytes
    _ = (pieces bytes).flatMap Piece.bytes := List.flatMap_congr own
    _ = bytes := flatMap_bytes_pieces bytes

theorem mend_of_ascii {bytes : Bytes} (ascii : ∀ byte ∈ bytes, byte.toNat < 0x80) :
    mend bytes = bytes := by
  induction bytes with
  | nil => exact mend_nil
  | cons byte rest ih =>
      obtain ⟨first, others⟩ := List.forall_mem_cons.mp ascii
      have split := mend_append_ascii first [] rest
      rwa [List.nil_append, mend_nil, List.nil_append, ih others] at split

/-- Nothing but itself is mended to what is all below 0x80. -/
theorem mend_eq_iff_of_ascii {bytes other : Bytes} (ascii : ∀ byte ∈ other, byte.toNat < 0x80) :
    mend bytes = other ↔ bytes = other := by
  constructor
  · intro mended
    exact (mend_eq_self_of_ascii (mended ▸ ascii)).symm.trans mended
  · rintro rfl
    exact mend_of_ascii ascii

/-- Bytes are no text if there is something in them to replace, and only then. -/
theorem decode?_eq_none_iff {bytes : Bytes} : decode? bytes = none ↔ mend bytes ≠ bytes := by
  cases decoded : decode? bytes with
  | none =>
      refine iff_of_true rfl fun same => ?_
      rw [← same, mend, decode?_encode] at decoded
      cases decoded
  | some text =>
      have same : mend bytes = bytes := by rw [← encode_of_decode? decoded, mend, lossy_encode]
      simp [same]

end EditorFlags.Utf8
