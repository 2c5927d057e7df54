import EditorFlags.Failure
import EditorFlags.Text.Digits

/-!
# Numbers

A number is a whole part, perhaps a fraction and perhaps an exponent. Reading
stops at the first character that cannot go on with it; if no number has come
about by then, the input was too short when it has ended, and not a number when
it has not.

Where a number's size matters it must not be too large for a double. Only the
leading digits that fit into 64 bits count, and they and the power of ten they
are scaled by are each rounded to a double before they are multiplied.
-/

namespace EditorFlags.Json

open RequestFault

/-- The parts of a number. -/
structure Numeral where
  whole : List Char
  fraction : List Char
  exponent : Int
deriving DecidableEq, Repr

namespace Numeral

/-! ## Reading -/

/-- One or more digits at the front of the input, and what is left. -/
def readDigits (input : List Char) : Except RequestFault (List Char × List Char) :=
  match input.takeWhile Char.isDigit with
  | [] => .error (if input.isEmpty then truncated else malformed)
  | digits => .ok (digits, input.dropWhile Char.isDigit)

/-- The digits before the point. A zero stands alone. -/
def readWhole (input : List Char) : Except RequestFault (List Char × List Char) :=
  match input with
  | '0' :: rest => if rest.head?.any Char.isDigit then .error malformed else .ok (['0'], rest)
  | _ => readDigits input

/-- The digits after the point, if there is one. -/
def readFraction (input : List Char) : Except RequestFault (List Char × List Char) :=
  match input with
  | '.' :: rest => readDigits rest
  | _ => .ok ([], input)

/-- The power of ten, if there is one. -/
def readExponent (input : List Char) : Except RequestFault (Int × List Char) :=
  match input with
  | [] => .ok (0, [])
  | letter :: rest =>
      if letter = 'e' ∨ letter = 'E' then
        let (negative, rest) :=
          match rest with
          | '+' :: rest => (false, rest)
          | '-' :: rest => (true, rest)
          | _ => (false, rest)
        match readDigits rest with
        | .error fault => .error fault
        | .ok (digits, left) =>
            .ok (if negative then -(Digits.value digits : Int) else Digits.value digits, left)
      else .ok (0, input)

/-- A number after its sign, and what is left. -/
def readUnsigned (input : List Char) : Except RequestFault (Numeral × List Char) :=
  match readWhole input with
  | .error fault => .error fault
  | .ok (whole, rest) =>
      match readFraction rest with
      | .error fault => .error fault
      | .ok (fraction, rest) =>
          match readExponent rest with
          | .error fault => .error fault
          | .ok (exponent, rest) => .ok (⟨whole, fraction, exponent⟩, rest)

/-- A number with or without a minus sign, and what is left. The sign is not
kept. -/
def read (input : List Char) : Except RequestFault (Numeral × List Char) :=
  match input with
  | '-' :: rest => readUnsigned rest
  | _ => readUnsigned input

/-! ## Size -/

/-- The largest number of 64 bits. -/
def wordLimit : Nat := 0xFFFFFFFFFFFFFFFF

/-- Puts digits behind a number as long as it fits into 64 bits, and answers how
many digits were left out. -/
def fill (value : Nat) : List Char → Nat × Nat
  | [] => (value, 0)
  | digit :: rest =>
      let longer := value * 10 + (digit.toNat - '0'.toNat)
      if longer ≤ wordLimit then fill longer rest else (value, rest.length + 1)

/-- The double nearest to a number, of two the one with an even significand. -/
def nearestDouble (value : Nat) : Nat :=
  let unit := Nat.pow 2 (value.log2 + 1 - 53)
  let quotient := value / unit
  let twice := 2 * (value % unit)
  let up := decide (unit < twice) || (decide (unit = twice) && quotient % 2 == 1)
  (if up then quotient + 1 else quotient) * unit

/-- The largest power of ten that is a double. -/
def powerLimit : Nat := 308

/-- The least number that is nearer to what would follow the largest double than
to the largest double. -/
def infinite : Nat := Nat.pow 2 1024 - Nat.pow 2 970

/-- Whether a number is not too large for a double. -/
def isFinite (numeral : Numeral) : Bool :=
  let (head, beyond) := fill 0 numeral.whole
  let (significand, unread) := fill head numeral.fraction
  let power := numeral.exponent + beyond - (numeral.fraction.length - unread : Nat)
  -- A significand of 64 bits over any power of ten is far below the limit.
  significand == 0 || decide (power < 0) ||
    (decide (power ≤ powerLimit) &&
      decide (nearestDouble significand * nearestDouble (Nat.pow 10 power.toNat) < infinite))

/-! ## What is left is less -/

theorem length_readDigits {input digits left : List Char}
    (h : readDigits input = .ok (digits, left)) : left.length < input.length := by
  unfold readDigits at h
  split at h
  · simp at h
  · next taken nonempty =>
      have total := congrArg List.length (List.takeWhile_append_dropWhile
        (p := Char.isDigit) (l := input))
      have some_taken := List.length_pos_iff.mpr nonempty
      simp only [Except.ok.injEq, Prod.mk.injEq] at h
      simp only [List.length_append] at total
      rw [← h.2]
      omega

theorem length_readWhole {input digits left : List Char}
    (h : readWhole input = .ok (digits, left)) : left.length < input.length := by
  unfold readWhole at h
  split at h
  · split at h
    · simp at h
    · simp_all
  · exact length_readDigits h

theorem length_readFraction {input digits left : List Char}
    (h : readFraction input = .ok (digits, left)) : left.length ≤ input.length := by
  unfold readFraction at h
  split at h
  · have := length_readDigits h
    simp only [List.length_cons]
    omega
  · simp_all

theorem length_readExponent {input left : List Char} {exponent : Int}
    (h : readExponent input = .ok (exponent, left)) : left.length ≤ input.length := by
  unfold readExponent at h
  split at h
  · simp_all
  · next letter rest =>
      split at h
      · dsimp only at h
        split at h
        · simp at h
        · next digits middle digitsRead =>
            have shorter := length_readDigits digitsRead
            have signed : (match rest with
                | '+' :: rest => (false, rest)
                | '-' :: rest => (true, rest)
                | _ => (false, rest)).2.length ≤ rest.length := by
              split <;> simp
            simp only [Except.ok.injEq, Prod.mk.injEq] at h
            simp only [← h.2, List.length_cons]
            omega
      · simp_all

theorem length_read {input left : List Char} {numeral : Numeral}
    (h : read input = .ok (numeral, left)) : left.length < input.length := by
  have unsigned : ∀ {input : List Char}, readUnsigned input = .ok (numeral, left) →
      left.length < input.length := by
    intro input h
    unfold readUnsigned at h
    split at h
    · simp at h
    · next wholeRead =>
        have shorter := length_readWhole wholeRead
        split at h
        · simp at h
        · next fractionRead =>
            have shorter' := length_readFraction fractionRead
            split at h
            · simp at h
            · next exponentRead =>
                have shorter'' := length_readExponent exponentRead
                simp only [Except.ok.injEq, Prod.mk.injEq] at h
                rw [← h.2]
                omega
  unfold read at h
  split at h
  · have := unsigned h
    simp only [List.length_cons]
    omega
  · exact unsigned h

end Numeral

end EditorFlags.Json
