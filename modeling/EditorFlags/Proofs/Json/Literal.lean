import EditorFlags.Proofs.Json.Grammar
import EditorFlags.Proofs.Text.Lossy
import Mathlib.Tactic.SplitIfs

/-!
# Literals and what they spell

A literal is passed over exactly if it spells some code units (`skip_eq_ok_iff`), and read as a
text exactly if it spells the units of that text (`read_eq_ok_iff`). The second is where pairs
come in: the two halves of a pair may each be spelled by an escape, and only together make a
character. What is written for a text spells it (`spells_flatMap_escapeChar`).
-/

namespace EditorFlags.Json

/-! ## Code units -/

theorem unitsOf_of_lt {c : Char} (basic : c.toNat < 0x10000) : unitsOf c = [c.toNat] :=
  if_pos basic

theorem unitsOf_of_le {c : Char} (beyond : 0x10000 ≤ c.toNat) :
    unitsOf c = [0xD800 + (c.toNat - 0x10000) / 0x400, 0xDC00 + (c.toNat - 0x10000) % 0x400] :=
  if_neg (Nat.not_lt.mpr beyond)

/-- No character of the basic plane is half a surrogate pair. -/
theorem toNat_lt_or_lt (c : Char) : c.toNat < 0xD800 ∨ 0xDFFF < c.toNat ∧ c.toNat < 0x110000 := by
  have valid := c.valid
  exact valid

theorem unitsOf_append_inj {c d : Char} {us vs : List Nat}
    (same : unitsOf c ++ us = unitsOf d ++ vs) : c = d ∧ us = vs := by
  have rangeC := toNat_lt_or_lt c
  have rangeD := toNat_lt_or_lt d
  have numbers : c.toNat = d.toNat ∧ us = vs := by
    unfold unitsOf at same
    split_ifs at same
    · simpa using same
    · simp only [List.cons_append, List.nil_append, List.cons.injEq] at same
      omega
    · simp only [List.cons_append, List.nil_append, List.cons.injEq] at same
      omega
    · simp only [List.cons_append, List.nil_append, List.cons.injEq] at same
      exact ⟨by omega, same.2.2⟩
  exact ⟨Char.toNat_inj.mp numbers.1, numbers.2⟩

theorem units_cons (c : Char) (text : List Char) : units (c :: text) = unitsOf c ++ units text :=
  List.flatMap_cons

theorem unitsOf_ne_nil (c : Char) : unitsOf c ≠ [] := by
  unfold unitsOf
  split <;> simp

/-- A text whose units begin with those of a character begins with the character. -/
theorem eq_cons_of_units {text : List Char} {c : Char} {us : List Nat}
    (same : units text = unitsOf c ++ us) : ∃ rest, text = c :: rest ∧ us = units rest := by
  cases text with
  | nil => exact absurd (List.append_eq_nil_iff.mp same.symm).1 (unitsOf_ne_nil c)
  | cons first rest =>
      obtain ⟨rfl, rfl⟩ := unitsOf_append_inj ((units_cons first rest).symm.trans same)
      exact ⟨rest, rfl, rfl⟩

/-- The units of a text are those of no other. -/
theorem units_injective : Function.Injective units := by
  intro first second same
  induction first generalizing second with
  | nil =>
      cases second with
      | nil => rfl
      | cons c rest => exact absurd (List.append_eq_nil_iff.mp same.symm).1 (unitsOf_ne_nil c)
  | cons c rest ih =>
      obtain ⟨others, rfl, sameRest⟩ := eq_cons_of_units (same.symm.trans (units_cons c rest))
      rw [ih sameRest]

/-- A character has itself for its unit, or two that are the halves of a pair. -/
theorem unitsOf_cases (c : Char) : unitsOf c = [c.toNat] ∨
    ∃ high low, unitsOf c = [high, low] ∧ 0xDC00 ≤ low ∧ low ≤ 0xDFFF := by
  by_cases basic : c.toNat < 0x10000
  · exact .inl (unitsOf_of_lt basic)
  · exact .inr ⟨_, _, unitsOf_of_le (Nat.le_of_not_lt basic), by omega, by omega⟩

/-! ## Escapes -/

theorem shortEscape?_eq_some_iff {letter c : Char} :
    shortEscape? letter = some c ↔ (letter, c) ∈ shortEscapes := by
  constructor
  · intro known
    unfold shortEscape? at known
    split_ifs at known with own
    · obtain rfl := Option.some.inj known
      rcases own with rfl | rfl | rfl <;> decide
    all_goals
      obtain rfl := Option.some.inj known
      subst letter
      decide
  · intro known
    simp only [shortEscapes, List.mem_cons, Prod.mk.injEq, List.not_mem_nil, or_false] at known
    rcases known with ⟨rfl, rfl⟩ | ⟨rfl, rfl⟩ | ⟨rfl, rfl⟩ | ⟨rfl, rfl⟩ | ⟨rfl, rfl⟩ |
      ⟨rfl, rfl⟩ | ⟨rfl, rfl⟩ | ⟨rfl, rfl⟩ <;> rfl

theorem hexValue?_lt {c : Char} {value : Nat} (digit : Digits.hexValue? c = some value) :
    value < 16 := by
  unfold Digits.hexValue? at digit
  simp only [Char.le_def, UInt32.le_iff_toNat_le] at digit
  split_ifs at digit with decimal lower upper
  · have bounds : 48 ≤ c.toNat ∧ c.toNat ≤ 57 := decimal
    have zero : '0'.toNat = 48 := rfl
    have := Option.some.inj digit
    omega
  · have bounds : 97 ≤ c.toNat ∧ c.toNat ≤ 102 := lower
    have zero : 'a'.toNat = 97 := rfl
    have := Option.some.inj digit
    omega
  · have bounds : 65 ≤ c.toNat ∧ c.toNat ≤ 70 := upper
    have zero : 'A'.toNat = 65 := rfl
    have := Option.some.inj digit
    omega

theorem IsUnit.lt {digits : List Char} {unit : Nat} (spelled : IsUnit digits unit) :
    unit < 0x10000 := by
  cases spelled with
  | digits first second third fourth =>
      have := hexValue?_lt first
      have := hexValue?_lt second
      have := hexValue?_lt third
      have := hexValue?_lt fourth
      omega

theorem IsUnit.hexFour {digits : List Char} {unit : Nat} (spelled : IsUnit digits unit)
    (rest : List Char) : hexFour (digits ++ rest) = .ok (unit, rest) := by
  cases spelled with
  | digits first second third fourth => simp [Json.hexFour, first, second, third, fourth]

theorem hexFour_eq_ok_iff {input rest : List Char} {unit : Nat} :
    hexFour input = .ok (unit, rest) ↔ ∃ digits, input = digits ++ rest ∧ IsUnit digits unit := by
  constructor
  · intro read
    unfold hexFour at read
    split at read
    · split at read
      · next first second third fourth =>
          simp only [Except.ok.injEq, Prod.mk.injEq] at read
          obtain ⟨rfl, rfl⟩ := read
          exact ⟨_, rfl, .digits first second third fourth⟩
      · simp at read
    · simp at read
  · rintro ⟨digits, rfl, spelled⟩
    exact spelled.hexFour rest

theorem skipEscape_eq_ok_iff {input rest : List Char} :
    skipEscape input = .ok rest ↔
      ∃ escaped spelled, input = escaped ++ rest ∧ IsEscape escaped spelled := by
  constructor
  · intro passed
    unfold skipEscape at passed
    split at passed
    · simp at passed
    · next letter left =>
        split at passed
        · next c known =>
            obtain rfl := Except.ok.inj passed
            exact ⟨[letter], _, rfl, .short (shortEscape?_eq_some_iff.mp known)⟩
        · split_ifs at passed with isU
          subst isU
          split at passed
          · simp at passed
          · next unit left digitsRead =>
              obtain rfl := Except.ok.inj passed
              obtain ⟨digits, rfl, spelled⟩ := hexFour_eq_ok_iff.mp digitsRead
              exact ⟨'u' :: digits, _, rfl, .unit spelled⟩
  · rintro ⟨escaped, spelled, rfl, escapes⟩
    cases escapes with
    | short known => simp [skipEscape, shortEscape?_eq_some_iff.mpr known]
    | unit isUnit =>
        simp [skipEscape, shortEscape?, isUnit.hexFour rest]

/-! ## Passing over -/

theorem skip_quote (rest : List Char) : skip ('"' :: rest) = .ok rest := by
  simp [skip]

theorem skip_plain {c : Char} (noQuote : c ≠ '"') (noEscape : c ≠ '\\') (visible : 0x20 ≤ c.toNat)
    (rest : List Char) : skip (c :: rest) = skip rest := by
  rw [skip, if_neg noQuote, if_neg noEscape, if_neg (Nat.not_lt.mpr visible)]

theorem skip_escape {rest left : List Char} (passed : skipEscape rest = .ok left) :
    skip ('\\' :: rest) = skip left := by
  rw [skip, if_neg (by decide), if_pos rfl]
  split
  · simp_all
  · simp_all

theorem skip_eq_ok_iff {input left : List Char} :
    skip input = .ok left ↔ ∃ body spelled, input = body ++ '"' :: left ∧ Spells body spelled := by
  constructor
  · intro passed
    fun_induction skip input with
    | case1 => simp at passed
    | case2 rest =>
        obtain rfl := Except.ok.inj passed
        exact ⟨[], [], rfl, .nil⟩
    | case3 => simp at passed
    | case4 rest middle escapePassed _ ih =>
        obtain ⟨body, spelled, rfl, spells⟩ := ih passed
        obtain ⟨escaped, units, rfl, escapes⟩ := skipEscape_eq_ok_iff.mp escapePassed
        exact ⟨'\\' :: (escaped ++ body), _, by simp, .escape escapes spells⟩
    | case5 => simp at passed
    | case6 c rest noQuote noEscape visible ih =>
        obtain ⟨body, spelled, rfl, spells⟩ := ih passed
        exact ⟨c :: body, _, rfl, .plain noQuote noEscape (Nat.le_of_not_lt visible) spells⟩
  · rintro ⟨body, spelled, rfl, spells⟩
    induction spells with
    | nil => exact skip_quote left
    | plain noQuote noEscape visible rest ih =>
        rw [List.cons_append, skip_plain noQuote noEscape visible, ih]
    | escape escapes rest ih =>
        rw [List.cons_append, List.append_assoc,
          skip_escape (skipEscape_eq_ok_iff.mpr ⟨_, _, rfl, escapes⟩), ih]

/-! ## Reading -/

theorem Spells.append {first second : List Char} {us vs : List Nat} (spells : Spells first us)
    (spellsToo : Spells second vs) : Spells (first ++ second) (us ++ vs) := by
  induction spells with
  | nil => exact spellsToo
  | plain noQuote noEscape visible rest ih =>
      rw [List.append_assoc]
      exact .plain noQuote noEscape visible ih
  | escape escapes rest ih =>
      rw [List.cons_append, List.append_assoc, List.append_assoc]
      exact .escape escapes ih

theorem Spells.unit {digits : List Char} {unit : Nat} (spelled : IsUnit digits unit) :
    Spells ('\\' :: 'u' :: digits) [unit] := by
  simpa using Spells.escape (.unit spelled) .nil

/-- What is left of a pair after its first unit. -/
theorem lowSurrogate_eq_ok_iff {input rest : List Char} {low : Nat} :
    lowSurrogate input = .ok (low, rest) ↔ ∃ digits, input = '\\' :: 'u' :: (digits ++ rest) ∧
      IsUnit digits (0xDC00 + low) ∧ low < 0x400 := by
  constructor
  · intro read
    unfold lowSurrogate at read
    split at read
    · simp at read
    · simp at read
    · next left =>
        split at read
        · simp at read
        · next unit left digitsRead =>
            split_ifs at read with half
            simp only [Except.ok.injEq, Prod.mk.injEq] at read
            obtain ⟨rfl, rfl⟩ := read
            obtain ⟨digits, rfl, spelled⟩ := hexFour_eq_ok_iff.mp digitsRead
            have whole : 0xDC00 + (unit - 0xDC00) = unit := by omega
            exact ⟨digits, rfl, whole.symm ▸ spelled, by omega⟩
    · simp at read
  · rintro ⟨digits, rfl, spelled, short⟩
    have half : 0xDC00 ≤ 0xDC00 + low ∧ 0xDC00 + low ≤ 0xDFFF := by omega
    simp only [lowSurrogate, spelled.hexFour rest, if_pos half, Nat.add_sub_cancel_left]

/-- Two units that are the halves of a pair, and their character. -/
theorem unitsOf_ofNat {high low : Nat} (isHigh : 0xD800 ≤ high ∧ high ≤ 0xDBFF)
    (short : low < 0x400) :
    unitsOf (Char.ofNat (0x10000 + (high - 0xD800) * 0x400 + low)) = [high, 0xDC00 + low] := by
  have value : (Char.ofNat (0x10000 + (high - 0xD800) * 0x400 + low)).toNat =
      0x10000 + (high - 0xD800) * 0x400 + low := Utf8.toNat_ofNat_of_valid (by omega)
  have first : 0xD800 + (0x10000 + (high - 0xD800) * 0x400 + low - 0x10000) / 0x400 = high := by
    omega
  have second : (0x10000 + (high - 0xD800) * 0x400 + low - 0x10000) % 0x400 = low := by omega
  rw [unitsOf_of_le (by omega), value, first, second]

/-- What spells a character after a backslash. -/
theorem spells_of_escape {input rest : List Char} {c : Char} (read : escape input = .ok (c, rest)) :
    ∃ escaped, input = escaped ++ rest ∧ Spells ('\\' :: escaped) (unitsOf c) := by
  unfold escape at read
  split at read
  · simp at read
  · next letter left =>
      split at read
      · next known =>
          simp only [Except.ok.injEq, Prod.mk.injEq] at read
          obtain ⟨rfl, rfl⟩ := read
          have short : IsEscape [letter] _ := .short (shortEscape?_eq_some_iff.mp known)
          exact ⟨[letter], rfl, by simpa using Spells.escape short .nil⟩
      · split_ifs at read with isU
        subst isU
        unfold unicodeEscape at read
        split at read
        · simp at read
        · next unit left digitsRead =>
            obtain ⟨digits, rfl, spelled⟩ := hexFour_eq_ok_iff.mp digitsRead
            have small := spelled.lt
            split_ifs at read with low high
            · split at read
              · simp at read
              · next lower left lowRead =>
                  obtain ⟨others, rfl, spelledToo, short⟩ := lowSurrogate_eq_ok_iff.mp lowRead
                  simp only [Except.ok.injEq, Prod.mk.injEq] at read
                  obtain ⟨rfl, rfl⟩ := read
                  refine ⟨'u' :: digits ++ '\\' :: 'u' :: others, by simp, ?_⟩
                  rw [unitsOf_ofNat high short]
                  exact (Spells.unit spelled).append (Spells.unit spelledToo)
            · simp only [Except.ok.injEq, Prod.mk.injEq] at read
              obtain ⟨rfl, rfl⟩ := read
              have value : (Char.ofNat unit).toNat = unit :=
                Utf8.toNat_ofNat_of_valid (by omega)
              refine ⟨'u' :: digits, rfl, ?_⟩
              rw [unitsOf_of_lt (by omega), value]
              exact .unit spelled

/-- A character of the basic plane is read from its unit. -/
theorem escape_unit {digits : List Char} {c : Char} (spelled : IsUnit digits c.toNat)
    (rest : List Char) : escape ('u' :: (digits ++ rest)) = .ok (c, rest) := by
  have range := toNat_lt_or_lt c
  have notShort : shortEscape? 'u' = none := rfl
  have noLow : ¬ (0xDC00 ≤ c.toNat ∧ c.toNat ≤ 0xDFFF) := by omega
  have noHigh : ¬ (0xD800 ≤ c.toNat ∧ c.toNat ≤ 0xDBFF) := by omega
  simp [escape, notShort, unicodeEscape, spelled.hexFour rest, noLow, noHigh]

/-- A character outside of it is read from the two units of its pair. -/
theorem escape_pair {digits others : List Char} {c : Char} {high low : Nat}
    (pair : unitsOf c = [high, low]) (spelled : IsUnit digits high) (spelledToo : IsUnit others low)
    (rest : List Char) :
    escape ('u' :: (digits ++ '\\' :: 'u' :: (others ++ rest))) = .ok (c, rest) := by
  have range := toNat_lt_or_lt c
  have beyond : 0x10000 ≤ c.toNat := by
    by_contra basic
    rw [unitsOf_of_lt (Nat.lt_of_not_le basic)] at pair
    simp at pair
  rw [unitsOf_of_le beyond] at pair
  simp only [List.cons.injEq, and_true] at pair
  obtain ⟨rfl, rfl⟩ := pair
  have lowRead : lowSurrogate ('\\' :: 'u' :: (others ++ rest)) =
      .ok ((c.toNat - 0x10000) % 0x400, rest) :=
    lowSurrogate_eq_ok_iff.mpr ⟨others, rfl, spelledToo, by omega⟩
  have notShort : shortEscape? 'u' = none := rfl
  have noLow : ¬ (0xDC00 ≤ 0xD800 + (c.toNat - 0x10000) / 0x400 ∧
      0xD800 + (c.toNat - 0x10000) / 0x400 ≤ 0xDFFF) := by omega
  have isHigh : 0xD800 ≤ 0xD800 + (c.toNat - 0x10000) / 0x400 ∧
      0xD800 + (c.toNat - 0x10000) / 0x400 ≤ 0xDBFF := by omega
  have whole : 0x10000 + (0xD800 + (c.toNat - 0x10000) / 0x400 - 0xD800) * 0x400 +
      (c.toNat - 0x10000) % 0x400 = c.toNat := by omega
  simp only [escape, notShort, if_pos, unicodeEscape, spelled.hexFour, if_neg noLow, if_pos isHigh,
    lowRead, whole, Char.ofNat_toNat]

theorem read_quote (rest : List Char) : read ('"' :: rest) = .ok ([], rest) := by
  simp [read]

theorem read_plain_eq {c : Char} (noQuote : c ≠ '"') (noEscape : c ≠ '\\')
    (visible : 0x20 ≤ c.toNat) (rest : List Char) :
    read (c :: rest) = (read rest).map fun (text, left) => (c :: text, left) := by
  rw [read, if_neg noQuote, if_neg noEscape, if_neg (Nat.not_lt.mpr visible)]
  cases read rest <;> rfl

theorem read_escape_eq {c : Char} {rest middle : List Char}
    (spelled : escape rest = .ok (c, middle)) :
    read ('\\' :: rest) = (read middle).map fun (text, left) => (c :: text, left) := by
  rw [read, if_neg (by decide), if_pos rfl]
  split
  · simp_all
  · next value left found =>
      obtain ⟨rfl, rfl⟩ := Prod.mk.inj (Except.ok.inj (found.symm.trans spelled))
      cases read left <;> rfl

theorem read_plain {c : Char} (noQuote : c ≠ '"') (noEscape : c ≠ '\\') (visible : 0x20 ≤ c.toNat)
    {rest text left : List Char} (others : read rest = .ok (text, left)) :
    read (c :: rest) = .ok (c :: text, left) := by
  rw [read_plain_eq noQuote noEscape visible, others]
  rfl

theorem read_escape {c : Char} {rest middle text left : List Char}
    (spelled : escape rest = .ok (c, middle)) (others : read middle = .ok (text, left)) :
    read ('\\' :: rest) = .ok (c :: text, left) := by
  rw [read_escape_eq spelled, others]
  rfl

/-- The second unit of a pair can only have been spelled by an escape. -/
theorem exists_of_spells_low {body : List Char} {low : Nat} {later : List Nat}
    (spells : Spells body (low :: later)) (half : 0xDC00 ≤ low ∧ low ≤ 0xDFFF) :
    ∃ digits rest, body = '\\' :: 'u' :: (digits ++ rest) ∧ IsUnit digits low ∧
      Spells rest later := by
  have noChar {c : Char} {us : List Nat} (same : unitsOf c ++ us = low :: later) : False := by
    have range := toNat_lt_or_lt c
    unfold unitsOf at same
    split_ifs at same
    · simp only [List.cons_append, List.cons.injEq] at same
      omega
    · simp only [List.cons_append, List.cons.injEq] at same
      omega
  generalize whole : low :: later = us at spells
  cases spells with
  | nil => simp at whole
  | plain noQuote noEscape visible rest => exact (noChar whole.symm).elim
  | escape escapes rest =>
      cases escapes with
      | short known => exact (noChar whole.symm).elim
      | unit spelled =>
          simp only [List.cons_append, List.nil_append, List.cons.injEq] at whole
          obtain ⟨rfl, rfl⟩ := whole
          exact ⟨_, _, rfl, spelled, rest⟩

/-- A literal that spells a text is read as the text. -/
theorem read_of_spells {body text : List Char} (spells : Spells body (units text))
    (left : List Char) : read (body ++ '"' :: left) = .ok (text, left) := by
  generalize whole : units text = us at spells
  cases spells with
  | nil =>
      cases text with
      | nil => exact read_quote left
      | cons c text => exact absurd (List.append_eq_nil_iff.mp whole).1 (unitsOf_ne_nil c)
  | plain noQuote noEscape visible rest =>
      obtain ⟨later, rfl, rfl⟩ := eq_cons_of_units whole
      exact read_plain noQuote noEscape visible (read_of_spells rest left)
  | @escape escaped body us later escapes rest =>
      rw [List.cons_append, List.append_assoc]
      cases escapes with
      | short known =>
          obtain ⟨later, rfl, rfl⟩ := eq_cons_of_units whole
          refine read_escape ?_ (read_of_spells rest left)
          simp [escape, shortEscape?_eq_some_iff.mpr known]
      | @unit digits unit spelled =>
          cases text with
          | nil => simp [units] at whole
          | cons c text =>
              rw [units_cons] at whole
              rcases unitsOf_cases c with basic | ⟨high, low, pair, half⟩
              · rw [basic] at whole
                simp only [List.cons_append, List.nil_append, List.cons.injEq] at whole
                obtain ⟨rfl, rfl⟩ := whole
                exact read_escape (escape_unit spelled _) (read_of_spells rest left)
              · -- The other half of the pair is spelled by what comes next.
                rw [pair] at whole
                simp only [List.cons_append, List.nil_append, List.cons.injEq] at whole
                obtain ⟨rfl, rfl⟩ := whole
                obtain ⟨others, body, rfl, spelledToo, rest⟩ := exists_of_spells_low rest half
                simp only [List.cons_append, List.append_assoc]
                exact read_escape (escape_pair pair spelled spelledToo _)
                  (read_of_spells rest left)
termination_by body.length

theorem read_eq_ok_iff {input text left : List Char} :
    read input = .ok (text, left) ↔
      ∃ body, input = body ++ '"' :: left ∧ Spells body (units text) := by
  constructor
  · intro done
    fun_induction read input generalizing text with
    | case1 => simp at done
    | case2 rest =>
        simp only [Except.ok.injEq, Prod.mk.injEq] at done
        obtain ⟨rfl, rfl⟩ := done
        exact ⟨[], rfl, .nil⟩
    | case3 => simp at done
    | case4 => simp at done
    | case5 rest value middle spelled later last tailRead _ ih =>
        simp only [Except.ok.injEq, Prod.mk.injEq] at done
        obtain ⟨rfl, rfl⟩ := done
        obtain ⟨body, rfl, spells⟩ := ih tailRead
        obtain ⟨escaped, rfl, spellsFirst⟩ := spells_of_escape spelled
        refine ⟨'\\' :: (escaped ++ body), by simp, ?_⟩
        rw [units_cons]
        exact spellsFirst.append spells
    | case6 => simp at done
    | case7 => simp at done
    | case8 c rest noQuote noEscape visible later last tailRead ih =>
        simp only [Except.ok.injEq, Prod.mk.injEq] at done
        obtain ⟨rfl, rfl⟩ := done
        obtain ⟨body, rfl, spells⟩ := ih tailRead
        refine ⟨c :: body, rfl, ?_⟩
        rw [units_cons]
        exact .plain noQuote noEscape (Nat.le_of_not_lt visible) spells
  · rintro ⟨body, rfl, spells⟩
    exact read_of_spells spells left

/-! ## Writing -/

theorem hexValue?_digitChar {value : Nat} (small : value < 16) :
    Digits.hexValue? (Nat.digitChar value) = some value := by
  revert value
  decide

/-- What is written for a character spells it. -/
theorem spells_escapeChar (c : Char) : Spells (escapeChar c) (unitsOf c) := by
  have short {letter c : Char} (known : (letter, c) ∈ shortEscapes) :
      Spells ['\\', letter] (unitsOf c) := by
    simpa using Spells.escape (.short known) .nil
  unfold escapeChar
  split_ifs with quote backslash backspace feed newline turn tab control
  · subst c; exact short (by decide)
  · subst c; exact short (by decide)
  · subst c; exact short (by decide)
  · subst c; exact short (by decide)
  · subst c; exact short (by decide)
  · subst c; exact short (by decide)
  · subst c; exact short (by decide)
  · have zero : Digits.hexValue? '0' = some 0 := rfl
    have high : c.toNat / 16 < 16 := by omega
    have low : c.toNat % 16 < 16 := by omega
    have spelled := IsUnit.digits zero zero (hexValue?_digitChar high) (hexValue?_digitChar low)
    have whole : ((0 * 16 + 0) * 16 + c.toNat / 16) * 16 + c.toNat % 16 = c.toNat := by omega
    rw [whole] at spelled
    rw [unitsOf_of_lt (by omega)]
    exact .unit spelled
  · simpa using Spells.plain quote backslash (Nat.le_of_not_lt control) .nil

/-- **A text is spelled by the literal that is written for it.** -/
theorem spells_flatMap_escapeChar (text : List Char) :
    Spells (text.flatMap escapeChar) (units text) := by
  induction text with
  | nil => exact .nil
  | cons c text ih =>
      rw [List.flatMap_cons, units_cons]
      exact (spells_escapeChar c).append ih

end EditorFlags.Json
