import EditorFlags.Proofs.Json.Grammar
import Mathlib.Data.List.TakeWhile
import Mathlib.Tactic.SplitIfs

/-!
# Reading numbers

A number is read as far as it goes. So what has been read is a number of the grammar
(`isNumber_of_read`), and a number of the grammar is read whole if nothing follows that
would go on with it (`read_of_isNumber`).
-/

namespace EditorFlags.Json

/-- That an input does not go on with digits. -/
def NoDigit (rest : List Char) : Prop :=
  ∀ c ∈ rest.head?, c.isDigit = false

/-- That an input does not go on with a number. -/
def NoNumber (rest : List Char) : Prop :=
  ∀ c ∈ rest.head?, c.isDigit = false ∧ c ≠ '.' ∧ c ≠ 'e' ∧ c ≠ 'E'

/-- The whole part of a number begins with a digit. -/
theorem IsWhole.exists_first {whole : List Char} (isWhole : IsWhole whole) (rest : List Char) :
    ∃ first more, whole ++ rest = first :: more ∧ first ≠ '-' ∧ first.isDigit = true := by
  rcases isWhole with rfl | ⟨isDigits, -⟩
  · exact ⟨'0', rest, rfl, by decide, by decide⟩
  · obtain ⟨first, more, rfl⟩ := List.exists_cons_of_ne_nil isDigits.nonempty
    have decimal := isDigits.decimal first List.mem_cons_self
    refine ⟨first, more ++ rest, rfl, ?_, decimal⟩
    rintro rfl
    cases decimal

namespace Numeral

variable {input rest left digits : List Char}

/-! ## Parts of numbers -/

theorem readDigits_append (isDigits : IsDigits digits) (noDigit : NoDigit rest) :
    readDigits (digits ++ rest) = .ok (digits, rest) := by
  have nothing : rest.takeWhile Char.isDigit = [] ∧ rest.dropWhile Char.isDigit = rest := by
    cases rest with
    | nil => exact ⟨rfl, rfl⟩
    | cons c rest =>
        have other : c.isDigit = false := noDigit c rfl
        simp [other]
  unfold readDigits
  rw [List.takeWhile_append_of_pos isDigits.decimal, List.dropWhile_append_of_pos isDigits.decimal,
    nothing.1, nothing.2, List.append_nil]
  split
  · exact absurd rfl isDigits.nonempty
  · rfl

theorem of_readDigits (done : readDigits input = .ok (digits, left)) :
    input = digits ++ left ∧ IsDigits digits := by
  unfold readDigits at done
  split at done
  · simp at done
  · next taken nonempty =>
      simp only [Except.ok.injEq, Prod.mk.injEq] at done
      obtain ⟨rfl, rfl⟩ := done
      refine ⟨List.takeWhile_append_dropWhile.symm, nonempty, ?_⟩
      exact fun c member => List.mem_takeWhile_imp member

theorem readWhole_append {whole : List Char} (isWhole : IsWhole whole) (noDigit : NoDigit rest) :
    readWhole (whole ++ rest) = .ok (whole, rest) := by
  rcases isWhole with rfl | ⟨isDigits, notZero⟩
  · have alone : ¬ rest.head?.any Char.isDigit = true := by
      cases rest with
      | nil => simp
      | cons c rest => simpa using noDigit c rfl
    rw [List.singleton_append, readWhole, if_neg alone]
  · rw [← readDigits_append isDigits noDigit]
    unfold readWhole
    split
    · next others same =>
        obtain ⟨first, more, rfl⟩ := List.exists_cons_of_ne_nil isDigits.nonempty
        simp only [List.cons_append, List.cons.injEq] at same
        exact absurd (congrArg some same.1) notZero
    · rfl

theorem of_readWhole {whole : List Char} (done : readWhole input = .ok (whole, left)) :
    input = whole ++ left ∧ IsWhole whole := by
  unfold readWhole at done
  split at done
  · split_ifs at done
    simp only [Except.ok.injEq, Prod.mk.injEq] at done
    obtain ⟨rfl, rfl⟩ := done
    exact ⟨rfl, .inl rfl⟩
  · next noZero =>
      obtain ⟨rfl, isDigits⟩ := of_readDigits done
      refine ⟨rfl, .inr ⟨isDigits, ?_⟩⟩
      obtain ⟨first, more, rfl⟩ := List.exists_cons_of_ne_nil isDigits.nonempty
      intro zero
      obtain rfl := Option.some.inj zero
      exact noZero (more ++ left) rfl

theorem readFraction_append {fraction : List Char} (isFraction : IsFraction fraction)
    (noDigit : NoDigit rest) (noPoint : rest.head? ≠ some '.') :
    ∃ digits, readFraction (fraction ++ rest) = .ok (digits, rest) := by
  rcases isFraction with rfl | ⟨digits, rfl, isDigits⟩
  · refine ⟨[], ?_⟩
    unfold readFraction
    split
    · next same => exact absurd (congrArg List.head? same) noPoint
    · rfl
  · exact ⟨digits, readDigits_append isDigits noDigit⟩

theorem of_readFraction (done : readFraction input = .ok (digits, left)) :
    ∃ fraction, input = fraction ++ left ∧ IsFraction fraction := by
  unfold readFraction at done
  split at done
  · obtain ⟨rfl, isDigits⟩ := of_readDigits done
    exact ⟨'.' :: digits, rfl, .inr ⟨digits, rfl, isDigits⟩⟩
  · simp only [Except.ok.injEq, Prod.mk.injEq] at done
    obtain ⟨-, rfl⟩ := done
    exact ⟨[], rfl, .inl rfl⟩

/-- What is left of an input after a sign, if there is one. -/
def cutSign (input : List Char) : Bool × List Char :=
  match input with
  | '+' :: rest => (false, rest)
  | '-' :: rest => (true, rest)
  | _ => (false, input)

theorem readExponent_cons {letter : Char} (isLetter : letter = 'e' ∨ letter = 'E') :
    readExponent (letter :: rest) =
      match readDigits (cutSign rest).2 with
      | .error fault => .error fault
      | .ok (digits, left) =>
          .ok (if (cutSign rest).1 then -(Digits.value digits : Int) else Digits.value digits,
            left) := by
  simp only [readExponent, if_pos isLetter]
  rfl

theorem exists_sign (input : List Char) :
    ∃ sign, input = sign ++ (cutSign input).2 ∧ (sign = [] ∨ sign = ['+'] ∨ sign = ['-']) := by
  unfold cutSign
  split
  · exact ⟨['+'], rfl, .inr (.inl rfl)⟩
  · exact ⟨['-'], rfl, .inr (.inr rfl)⟩
  · exact ⟨[], rfl, .inl rfl⟩

theorem cutSign_append {sign : List Char} (signed : sign = [] ∨ sign = ['+'] ∨ sign = ['-'])
    (isDigits : IsDigits digits) : (cutSign (sign ++ (digits ++ rest))).2 = digits ++ rest := by
  rcases signed with rfl | rfl | rfl
  · -- The first digit is no sign.
    obtain ⟨first, more, rfl⟩ := List.exists_cons_of_ne_nil isDigits.nonempty
    have decimal := isDigits.decimal first List.mem_cons_self
    rw [List.nil_append, List.cons_append]
    unfold cutSign
    split
    · next same =>
        obtain ⟨rfl, -⟩ := List.cons.inj same
        cases decimal
    · next same =>
        obtain ⟨rfl, -⟩ := List.cons.inj same
        cases decimal
    · rfl
  · rfl
  · rfl

theorem readExponent_append {exponent : List Char} (isExponent : IsExponent exponent)
    (noNumber : NoNumber rest) :
    ∃ power, readExponent (exponent ++ rest) = .ok (power, rest) := by
  have noDigit : NoDigit rest := fun c first => (noNumber c first).1
  rcases isExponent with rfl | ⟨letter, sign, digits, rfl, isLetter, signed, isDigits⟩
  · cases rest with
    | nil => exact ⟨0, rfl⟩
    | cons c rest =>
        obtain ⟨-, -, notLower, notUpper⟩ := noNumber c rfl
        exact ⟨0, by simp [readExponent, notLower, notUpper]⟩
  · rw [List.cons_append, List.append_assoc, readExponent_cons isLetter,
      cutSign_append signed isDigits, readDigits_append isDigits noDigit]
    exact ⟨_, rfl⟩

theorem of_readExponent {power : Int} (done : readExponent input = .ok (power, left)) :
    ∃ exponent, input = exponent ++ left ∧ IsExponent exponent := by
  cases input with
  | nil =>
      simp only [readExponent, Except.ok.injEq, Prod.mk.injEq] at done
      exact ⟨[], done.2, .inl rfl⟩
  | cons letter rest =>
      by_cases isLetter : letter = 'e' ∨ letter = 'E'
      · rw [readExponent_cons isLetter] at done
        obtain ⟨sign, cut, signed⟩ := exists_sign rest
        split at done
        · simp at done
        · next digits after digitsRead =>
            simp only [Except.ok.injEq, Prod.mk.injEq] at done
            obtain ⟨-, rfl⟩ := done
            obtain ⟨found, isDigits⟩ := of_readDigits digitsRead
            rw [found] at cut
            refine ⟨letter :: (sign ++ digits), by simp [cut], .inr ?_⟩
            exact ⟨letter, sign, digits, rfl, isLetter, signed, isDigits⟩
      · simp only [readExponent, if_neg isLetter, Except.ok.injEq, Prod.mk.injEq] at done
        exact ⟨[], done.2, .inl rfl⟩

/-! ## Whole numbers -/

theorem readUnsigned_append {whole fraction exponent : List Char} (isWhole : IsWhole whole)
    (isFraction : IsFraction fraction) (isExponent : IsExponent exponent)
    (noNumber : NoNumber rest) :
    ∃ numeral, readUnsigned (whole ++ (fraction ++ (exponent ++ rest))) = .ok (numeral, rest) := by
  have afterFraction : NoDigit (exponent ++ rest) ∧ (exponent ++ rest).head? ≠ some '.' := by
    rcases isExponent with rfl | ⟨letter, sign, digits, rfl, isLetter, -, -⟩
    · exact ⟨fun c first => (noNumber c first).1, fun point => (noNumber '.' point).2.1 rfl⟩
    · rcases isLetter with rfl | rfl <;> simp [NoDigit]
  have afterWhole : NoDigit (fraction ++ (exponent ++ rest)) := by
    rcases isFraction with rfl | ⟨digits, rfl, -⟩
    · exact afterFraction.1
    · simp [NoDigit]
  obtain ⟨digits, fractionRead⟩ := readFraction_append isFraction afterFraction.1 afterFraction.2
  obtain ⟨power, exponentRead⟩ := readExponent_append isExponent noNumber
  simp only [readUnsigned, readWhole_append isWhole afterWhole, fractionRead, exponentRead]
  exact ⟨_, rfl⟩

theorem of_readUnsigned {numeral : Numeral} (done : readUnsigned input = .ok (numeral, left)) :
    ∃ whole fraction exponent, input = whole ++ (fraction ++ (exponent ++ left)) ∧
      IsWhole whole ∧ IsFraction fraction ∧ IsExponent exponent := by
  unfold readUnsigned at done
  split at done
  · simp at done
  · next whole afterWhole wholeRead =>
      split at done
      · simp at done
      · next digits afterFraction fractionRead =>
          split at done
          · simp at done
          · next power afterExponent exponentRead =>
              simp only [Except.ok.injEq, Prod.mk.injEq] at done
              obtain ⟨-, rfl⟩ := done
              obtain ⟨rfl, isWhole⟩ := of_readWhole wholeRead
              obtain ⟨fraction, rfl, isFraction⟩ := of_readFraction fractionRead
              obtain ⟨exponent, rfl, isExponent⟩ := of_readExponent exponentRead
              exact ⟨_, _, _, rfl, isWhole, isFraction, isExponent⟩

/-- A sign is passed over. -/
theorem read_signed {sign whole : List Char} (signed : sign = [] ∨ sign = ['-'])
    (isWhole : IsWhole whole) (rest : List Char) :
    read (sign ++ (whole ++ rest)) = readUnsigned (whole ++ rest) := by
  rcases signed with rfl | rfl
  · obtain ⟨first, more, same, notDash, -⟩ := isWhole.exists_first rest
    rw [List.nil_append, same]
    unfold read
    split
    · next found => exact absurd (List.cons.inj found).1 notDash
    · rfl
  · rfl

/-- A number of the grammar is read whole. -/
theorem read_of_isNumber {spelling : List Char} (isNumber : IsNumber spelling)
    (noNumber : NoNumber rest) : ∃ numeral, read (spelling ++ rest) = .ok (numeral, rest) := by
  cases isNumber with
  | @parts sign whole fraction exponent signed isWhole isFraction isExponent =>
      obtain ⟨numeral, done⟩ := readUnsigned_append isWhole isFraction isExponent noNumber
      refine ⟨numeral, ?_⟩
      rw [← done, ← read_signed signed isWhole]
      simp only [List.append_assoc]

/-- What is read is a number of the grammar. -/
theorem isNumber_of_read {numeral : Numeral} (done : read input = .ok (numeral, left)) :
    ∃ spelling, input = spelling ++ left ∧ IsNumber spelling := by
  unfold read at done
  split at done
  · obtain ⟨whole, fraction, exponent, rfl, isWhole, isFraction, isExponent⟩ :=
      of_readUnsigned done
    exact ⟨_, by simp, .parts (.inr rfl) isWhole isFraction isExponent⟩
  · obtain ⟨whole, fraction, exponent, rfl, isWhole, isFraction, isExponent⟩ :=
      of_readUnsigned done
    exact ⟨_, by simp, .parts (.inl rfl) isWhole isFraction isExponent⟩

end Numeral

/-- A number begins with a digit or a minus sign. -/
theorem IsNumber.exists_first {spelling : List Char} (isNumber : IsNumber spelling) :
    ∃ first more, spelling = first :: more ∧ (first = '-' ∨ first.isDigit = true) := by
  cases isNumber with
  | @parts sign whole fraction exponent signed isWhole =>
      rcases signed with rfl | rfl
      · obtain ⟨first, more, same, -, decimal⟩ :=
          isWhole.exists_first (fraction ++ exponent)
        exact ⟨first, more, same, .inr decimal⟩
      · exact ⟨'-', _, rfl, .inl rfl⟩

end EditorFlags.Json
