import EditorFlags.Proofs.Json.Value

/-!
# Beginnings of literals and numbers

A text put together from others is cut in one of them (`prefix_append_iff`), so what a beginning
looks like follows the grammar. A literal that breaks off is always found out, since it lacks its
closing quote. Of a number, a beginning may be a number too, or nothing; if it is neither then it
is `Unfinished`, and that is where no digit follows though one has to (`IsNumber.of_cut`).
-/

namespace EditorFlags.Json

open RequestFault

/-! ## Beginnings -/

/-- That a text goes on after a beginning of it. -/
def IsBeginning (beginning text : List Char) : Prop :=
  ∃ next missing, text = beginning ++ next :: missing

variable {beginning text : List Char}

theorem IsBeginning.isPrefix (begins : IsBeginning beginning text) : beginning <+: text := by
  obtain ⟨next, missing, rfl⟩ := begins
  exact List.prefix_append _ _

theorem isBeginning_iff : IsBeginning beginning text ↔ beginning <+: text ∧ beginning ≠ text := by
  constructor
  · rintro ⟨next, missing, rfl⟩
    exact ⟨List.prefix_append _ _, by simp⟩
  · rintro ⟨⟨missing, rfl⟩, shorter⟩
    cases missing with
    | nil => exact absurd (List.append_nil _).symm shorter
    | cons next missing => exact ⟨next, missing, rfl⟩

theorem not_isBeginning_nil : ¬ IsBeginning beginning [] := by
  rintro ⟨next, missing, same⟩
  simp at same

theorem isBeginning_cons {c : Char} : IsBeginning beginning (c :: text) ↔
    beginning = [] ∨ ∃ rest, beginning = c :: rest ∧ IsBeginning rest text := by
  simp only [isBeginning_iff, List.prefix_cons_iff]
  constructor
  · rintro ⟨rfl | ⟨rest, rfl, cut⟩, shorter⟩
    · exact .inl rfl
    · exact .inr ⟨rest, rfl, cut, by simpa using shorter⟩
  · rintro (rfl | ⟨rest, rfl, cut, shorter⟩)
    · exact ⟨.inl rfl, by simp⟩
    · exact ⟨.inr ⟨rest, rfl, cut⟩, by simpa using shorter⟩

/-- A text put together from two is cut in one of them. -/
theorem prefix_append_iff {front back : List Char} : beginning <+: front ++ back ↔
    IsBeginning beginning front ∨ ∃ rest, beginning = front ++ rest ∧ rest <+: back := by
  constructor
  · rintro ⟨missing, same⟩
    rcases List.append_eq_append_iff.mp same with ⟨others, whole, -⟩ | ⟨rest, whole, split⟩
    · cases others with
      | nil => exact .inr ⟨[], by simpa using whole.symm, List.nil_prefix⟩
      | cons next others => exact .inl ⟨next, others, whole⟩
    · exact .inr ⟨rest, whole, missing, split.symm⟩
  · rintro (begins | ⟨rest, rfl, cut⟩)
    · exact begins.isPrefix.trans (List.prefix_append _ _)
    · exact (List.prefix_append_right_inj front).mpr cut

/-- A text with a comma in it is cut before the comma or behind it. -/
theorem cut_at_comma {before inner after rest : List Char}
    (cut : beginning <+: before ++ (inner ++ (after ++ ',' :: rest))) :
    beginning <+: before ++ (inner ++ after) ∨
      ∃ later, beginning = before ++ (inner ++ (after ++ ',' :: later)) ∧ later <+: rest := by
  have together (rest : List Char) : before ++ (inner ++ (after ++ ',' :: rest)) =
      (before ++ (inner ++ after)) ++ ',' :: rest := by simp
  rw [together] at cut
  rcases prefix_append_iff.mp cut with begins | ⟨left, rfl, cutLeft⟩
  · exact .inl begins.isPrefix
  rcases List.prefix_cons_iff.mp cutLeft with rfl | ⟨later, rfl, cutLater⟩
  · rw [List.append_nil]
    exact .inl (List.prefix_refl _)
  · exact .inr ⟨later, (together later).symm, cutLater⟩

theorem isBeginning_concat {c : Char} :
    IsBeginning beginning (text ++ [c]) ↔ beginning <+: text := by
  rw [isBeginning_iff, List.prefix_concat_iff]
  constructor
  · rintro ⟨rfl | cut, shorter⟩
    · exact absurd rfl shorter
    · exact cut
  · intro cut
    refine ⟨.inr cut, ?_⟩
    rintro rfl
    exact absurd cut.length_le (by simp)

/-- A text between an opening and a closing character. -/
theorem isBeginning_enclosed {opening closing : Char} :
    IsBeginning beginning (opening :: (text ++ [closing])) ↔
      beginning = [] ∨ ∃ rest, beginning = opening :: rest ∧ rest <+: text := by
  simp only [isBeginning_cons, isBeginning_concat]

theorem isBeginning_append {front back : List Char} : IsBeginning beginning (front ++ back) ↔
    IsBeginning beginning front ∨ ∃ rest, beginning = front ++ rest ∧ IsBeginning rest back := by
  constructor
  · intro begins
    obtain ⟨cut, shorter⟩ := isBeginning_iff.mp begins
    rcases prefix_append_iff.mp cut with begins | ⟨rest, rfl, cutRest⟩
    · exact .inl begins
    · exact .inr ⟨rest, rfl, isBeginning_iff.mpr ⟨cutRest, by simpa using shorter⟩⟩
  · rintro (⟨next, missing, rfl⟩ | ⟨rest, rfl, next, missing, rfl⟩)
    · exact ⟨next, missing ++ back, by simp⟩
    · exact ⟨next, missing, by simp⟩

theorem blank_of_cut {blanks : List Char} (blank : Blank blanks) (cut : beginning <+: blanks) :
    Blank beginning :=
  fun c member => blank c (cut.subset member)

/-! ## Keys -/

/-- A key breaks off in the blanks before it, in its literal or in the blanks behind that. -/
theorem IsKey.cases_beginning {key : List Char} {name : List Nat} (isKey : IsKey key name)
    (begins : IsBeginning beginning key) : Blank beginning ∨
      ∃ before body rest, beginning = before ++ '"' :: rest ∧ Blank before ∧ Spells body name ∧
        (rest <+: body ∨ ∃ after, rest = body ++ '"' :: after ∧ Blank after) := by
  cases isKey with
  | @key before body after name blank spells blankToo =>
      rcases isBeginning_append.mp begins with inside | ⟨rest, rfl, inside⟩
      · exact .inl (blank_of_cut blank inside.isPrefix)
      rcases isBeginning_cons.mp inside with rfl | ⟨rest, rfl, behind⟩
      · rw [List.append_nil]
        exact .inl blank
      refine .inr ⟨before, body, rest, rfl, blank, spells, ?_⟩
      rcases isBeginning_append.mp behind with inBody | ⟨rest, rfl, behindBody⟩
      · exact .inl inBody.isPrefix
      rcases isBeginning_cons.mp behindBody with rfl | ⟨rest, rfl, inBlanks⟩
      · rw [List.append_nil]
        exact .inl (List.prefix_refl body)
      · exact .inr ⟨rest, rfl, blank_of_cut blankToo (isBeginning_concat.mp inBlanks)⟩

/-! ## Literals -/

theorem utf8Size_of_hexValue? {c : Char} {value : Nat} (digit : Digits.hexValue? c = some value) :
    c.utf8Size = 1 := by
  rw [Char.utf8Size_eq_one_iff]
  unfold Digits.hexValue? at digit
  split_ifs at digit with decimal lower upper
  · exact UInt32.le_trans decimal.2 (by decide)
  · exact UInt32.le_trans lower.2 (by decide)
  · exact UInt32.le_trans upper.2 (by decide)

theorem IsUnit.hexFour_beginning {digits : List Char} {unit : Nat} (spelled : IsUnit digits unit)
    (begins : IsBeginning beginning digits) : Json.hexFour beginning = .error truncated := by
  cases spelled with
  | digits first second third fourth =>
      have one := utf8Size_of_hexValue? first
      have two := utf8Size_of_hexValue? second
      have three := utf8Size_of_hexValue? third
      simp only [isBeginning_cons, not_isBeginning_nil, and_false, exists_false, or_false] at begins
      rcases begins with rfl | ⟨_, rfl, rfl | ⟨_, rfl, rfl | ⟨_, rfl, rfl⟩⟩⟩
      all_goals simp [Json.hexFour, Utf8.size, *]

theorem IsEscape.skipEscape_beginning {escaped : List Char} {spelled : List Nat}
    (escapes : IsEscape escaped spelled) (begins : IsBeginning beginning escaped) :
    skipEscape beginning = .error truncated := by
  cases escapes with
  | short known =>
      rcases isBeginning_cons.mp begins with rfl | ⟨rest, -, impossible⟩
      · rfl
      · exact absurd impossible not_isBeginning_nil
  | unit spelled =>
      rcases isBeginning_cons.mp begins with rfl | ⟨rest, rfl, inside⟩
      · rfl
      · simp [skipEscape, shortEscape?, spelled.hexFour_beginning inside]

theorem skip_escape_error {rest : List Char} {fault : RequestFault}
    (refused : skipEscape rest = .error fault) : skip ('\\' :: rest) = .error fault := by
  rw [skip, if_neg (by decide), if_pos rfl]
  split <;> simp_all

theorem Spells.skip_beginning {body : List Char} {us : List Nat} (spells : Spells body us)
    (cut : beginning <+: body) : skip beginning = .error truncated := by
  induction spells generalizing beginning with
  | nil =>
      rw [List.prefix_nil.mp cut]
      simp [skip]
  | plain noQuote noEscape visible rest ih =>
      rcases List.prefix_cons_iff.mp cut with rfl | ⟨later, rfl, cutLater⟩
      · simp [skip]
      · rw [skip_plain noQuote noEscape visible, ih cutLater]
  | escape escapes rest ih =>
      rcases List.prefix_cons_iff.mp cut with rfl | ⟨later, rfl, cutLater⟩
      · simp [skip]
      · rcases prefix_append_iff.mp cutLater with begins | ⟨others, rfl, cutOthers⟩
        · exact skip_escape_error (escapes.skipEscape_beginning begins)
        · rw [skip_escape (skipEscape_eq_ok_iff.mpr ⟨_, _, rfl, escapes⟩), ih cutOthers]

theorem escape_unit_beginning {digits : List Char} {unit : Nat} (spelled : IsUnit digits unit)
    (begins : IsBeginning beginning ('u' :: digits)) : escape beginning = .error truncated := by
  rcases isBeginning_cons.mp begins with rfl | ⟨rest, rfl, inside⟩
  · rfl
  · simp [escape, shortEscape?, unicodeEscape, spelled.hexFour_beginning inside]

theorem lowSurrogate_beginning {digits : List Char} {low : Nat} (spelled : IsUnit digits low)
    (begins : IsBeginning beginning ('\\' :: 'u' :: digits)) :
    lowSurrogate beginning = .error truncated := by
  rcases isBeginning_cons.mp begins with rfl | ⟨rest, rfl, behind⟩
  · rfl
  rcases isBeginning_cons.mp behind with rfl | ⟨rest, rfl, inside⟩
  · rfl
  · simp [lowSurrogate, spelled.hexFour_beginning inside]

/-- A pair may be torn between its halves as well as inside of one. -/
theorem escape_pair_beginning {digits others : List Char} {c : Char} {high low : Nat}
    (pair : unitsOf c = [high, low]) (spelled : IsUnit digits high) (spelledToo : IsUnit others low)
    (begins : IsBeginning beginning ('u' :: digits ++ '\\' :: 'u' :: others)) :
    escape beginning = .error truncated := by
  rcases isBeginning_append.mp begins with inside | ⟨rest, rfl, inside⟩
  · exact escape_unit_beginning spelled inside
  · -- The first half alone spells no character, so the other one is looked for.
    have isHigh : 0xD800 ≤ high ∧ high ≤ 0xDBFF := by
      have range := toNat_lt_or_lt c
      unfold unitsOf at pair
      split_ifs at pair
      · simp at pair
      · simp only [List.cons.injEq] at pair
        omega
    have noLow : ¬ (0xDC00 ≤ high ∧ high ≤ 0xDFFF) := by omega
    simp [escape, shortEscape?, unicodeEscape, spelled.hexFour, noLow, isHigh,
      lowSurrogate_beginning spelledToo inside]

theorem read_escape_error {rest : List Char} {fault : RequestFault}
    (refused : escape rest = .error fault) : read ('\\' :: rest) = .error fault := by
  rw [read, if_neg (by decide), if_pos rfl]
  split <;> simp_all

/-- A literal that spells a text is found out where it breaks off. -/
theorem read_beginning {beginning body text : List Char} (spells : Spells body (units text))
    (cut : beginning <+: body) : read beginning = .error truncated := by
  generalize whole : units text = us at spells
  cases spells with
  | nil =>
      rw [List.prefix_nil.mp cut]
      simp [read]
  | plain noQuote noEscape visible rest =>
      obtain ⟨later, rfl, rfl⟩ := eq_cons_of_units whole
      rcases List.prefix_cons_iff.mp cut with rfl | ⟨others, rfl, cutOthers⟩
      · simp [read]
      · rw [read_plain_eq noQuote noEscape visible, read_beginning rest cutOthers]
        rfl
  | @escape escaped body us later escapes rest =>
      rcases List.prefix_cons_iff.mp cut with rfl | ⟨others, rfl, cutOthers⟩
      · simp [read]
      cases escapes with
      | @short letter c known =>
          obtain ⟨later, rfl, rfl⟩ := eq_cons_of_units whole
          rcases List.prefix_cons_iff.mp cutOthers with rfl | ⟨left, rfl, cutLeft⟩
          · exact read_escape_error rfl
          · have done : escape (letter :: left) = .ok (c, left) := by
              simp [escape, shortEscape?_eq_some_iff.mpr known]
            rw [read_escape_eq done, read_beginning rest cutLeft]
            rfl
      | @unit digits unit spelled =>
          cases text with
          | nil => simp [units] at whole
          | cons c text =>
              rw [units_cons] at whole
              rcases unitsOf_cases c with basic | ⟨high, low, pair, half⟩
              · rw [basic] at whole
                simp only [List.cons_append, List.nil_append, List.cons.injEq] at whole
                obtain ⟨rfl, rfl⟩ := whole
                rcases prefix_append_iff.mp cutOthers with begins | ⟨left, rfl, cutLeft⟩
                · exact read_escape_error (escape_unit_beginning spelled begins)
                · rw [List.cons_append, read_escape_eq (escape_unit spelled left),
                    read_beginning rest cutLeft]
                  rfl
              · -- The literal may break off before the other half of the pair, too.
                rw [pair] at whole
                simp only [List.cons_append, List.nil_append, List.cons.injEq] at whole
                obtain ⟨rfl, rfl⟩ := whole
                obtain ⟨lower, body, rfl, spelledToo, rest⟩ := exists_of_spells_low rest half
                have together : 'u' :: digits ++ '\\' :: 'u' :: (lower ++ body) =
                    ('u' :: digits ++ '\\' :: 'u' :: lower) ++ body := by simp
                rw [together] at cutOthers
                rcases prefix_append_iff.mp cutOthers with begins | ⟨left, rfl, cutLeft⟩
                · exact read_escape_error (escape_pair_beginning pair spelled spelledToo begins)
                · have done := escape_pair pair spelled spelledToo left
                  simp only [List.cons_append, List.append_assoc] at done ⊢
                  rw [read_escape_eq done, read_beginning rest cutLeft]
                  rfl
termination_by body.length

/-! ## Numbers -/

/-- What a number breaks off with when digits have to follow: its sign, its point, or the letter
of its exponent or the sign of that. -/
inductive Unfinished : List Char → Prop where
  | sign : Unfinished ['-']
  | point {sign whole : List Char} (signed : sign = [] ∨ sign = ['-']) (isWhole : IsWhole whole) :
      Unfinished (sign ++ (whole ++ ['.']))
  | exponent {sign whole fraction power : List Char} {letter : Char}
      (signed : sign = [] ∨ sign = ['-']) (isWhole : IsWhole whole)
      (isFraction : IsFraction fraction) (isLetter : letter = 'e' ∨ letter = 'E')
      (signedToo : power = [] ∨ power = ['+'] ∨ power = ['-']) :
      Unfinished (sign ++ (whole ++ (fraction ++ letter :: power)))

theorem IsDigits.of_cut {digits : List Char} (isDigits : IsDigits digits)
    (cut : beginning <+: digits) (some : beginning ≠ []) : IsDigits beginning :=
  ⟨some, fun c member => isDigits.decimal c (cut.subset member)⟩

theorem IsWhole.of_cut {whole : List Char} (isWhole : IsWhole whole)
    (cut : beginning <+: whole) (some : beginning ≠ []) : IsWhole beginning := by
  obtain ⟨first, more, rfl⟩ := List.exists_cons_of_ne_nil some
  rcases isWhole with rfl | ⟨isDigits, noZero⟩
  · obtain ⟨rfl, cutMore⟩ := List.cons_prefix_cons.mp cut
    obtain rfl := List.prefix_nil.mp cutMore
    exact .inl rfl
  · refine .inr ⟨isDigits.of_cut cut some, ?_⟩
    obtain ⟨missing, rfl⟩ := cut
    exact noZero

theorem IsFraction.of_cut {fraction : List Char} (isFraction : IsFraction fraction)
    (cut : beginning <+: fraction) : beginning = ['.'] ∨ IsFraction beginning := by
  rcases isFraction with rfl | ⟨digits, rfl, isDigits⟩
  · exact .inr (.inl (List.prefix_nil.mp cut))
  rcases List.prefix_cons_iff.mp cut with rfl | ⟨left, rfl, cutLeft⟩
  · exact .inr (.inl rfl)
  by_cases none : left = []
  · exact .inl (by rw [none])
  · exact .inr (.inr ⟨left, rfl, isDigits.of_cut cutLeft none⟩)

theorem IsExponent.of_cut {exponent : List Char} (isExponent : IsExponent exponent)
    (cut : beginning <+: exponent) : IsExponent beginning ∨
      ∃ letter power, beginning = letter :: power ∧ (letter = 'e' ∨ letter = 'E') ∧
        (power = [] ∨ power = ['+'] ∨ power = ['-']) := by
  rcases isExponent with rfl | ⟨letter, sign, digits, rfl, isLetter, signed, isDigits⟩
  · exact .inl (.inl (List.prefix_nil.mp cut))
  rcases List.prefix_cons_iff.mp cut with rfl | ⟨left, rfl, cutLeft⟩
  · exact .inl (.inl rfl)
  rcases prefix_append_iff.mp cutLeft with begins | ⟨power, rfl, cutPower⟩
  · -- Of a sign there is nothing but the sign or nothing.
    rcases signed with rfl | rfl | rfl
    · exact absurd begins not_isBeginning_nil
    all_goals
      rcases isBeginning_cons.mp begins with rfl | ⟨rest, -, impossible⟩
      · exact .inr ⟨letter, [], rfl, isLetter, .inl rfl⟩
      · exact absurd impossible not_isBeginning_nil
  · by_cases none : power = []
    · exact .inr ⟨letter, sign, by rw [none, List.append_nil], isLetter, signed⟩
    · exact .inl (.inr ⟨letter, sign, power, rfl, isLetter, signed,
        isDigits.of_cut cutPower none⟩)

/-- **A number breaks off in one of three ways.** There is nothing of it, or more has to follow,
or what there is of it is a number. -/
theorem IsNumber.of_cut {spelling : List Char} (isNumber : IsNumber spelling)
    (cut : beginning <+: spelling) :
    beginning = [] ∨ Unfinished beginning ∨ IsNumber beginning := by
  cases isNumber with
  | @parts sign whole fraction exponent signed isWhole isFraction isExponent =>
      rcases prefix_append_iff.mp cut with begins | ⟨afterSign, rfl, cutWhole⟩
      · rcases signed with rfl | rfl
        · exact absurd begins not_isBeginning_nil
        · rcases isBeginning_cons.mp begins with rfl | ⟨rest, -, impossible⟩
          · exact .inl rfl
          · exact absurd impossible not_isBeginning_nil
      rcases prefix_append_iff.mp cutWhole with begins | ⟨afterWhole, rfl, cutFraction⟩
      · by_cases none : afterSign = []
        · subst none
          rcases signed with rfl | rfl
          · exact .inl rfl
          · exact .inr (.inl .sign)
        · have isWhole := isWhole.of_cut begins.isPrefix none
          exact .inr (.inr (by simpa using IsNumber.parts signed isWhole (.inl rfl) (.inl rfl)))
      rcases prefix_append_iff.mp cutFraction with begins | ⟨afterFraction, rfl, cutExponent⟩
      · rcases isFraction.of_cut begins.isPrefix with rfl | isFraction
        · exact .inr (.inl (.point signed isWhole))
        · exact .inr (.inr (by simpa using IsNumber.parts signed isWhole isFraction (.inl rfl)))
      rcases isExponent.of_cut cutExponent with
        isExponent | ⟨letter, power, rfl, isLetter, signedToo⟩
      · exact .inr (.inr (.parts signed isWhole isFraction isExponent))
      · exact .inr (.inl (.exponent signed isWhole isFraction isLetter signedToo))

theorem Unfinished.exists_first (unfinished : Unfinished beginning) :
    ∃ first more, beginning = first :: more ∧ (first = '-' ∨ first.isDigit = true) := by
  have signedFirst {sign whole rest : List Char} (signed : sign = [] ∨ sign = ['-'])
      (isWhole : IsWhole whole) : ∃ first more, sign ++ (whole ++ rest) = first :: more ∧
        (first = '-' ∨ first.isDigit = true) := by
    rcases signed with rfl | rfl
    · obtain ⟨first, more, same, -, decimal⟩ := isWhole.exists_first rest
      exact ⟨first, more, same, .inr decimal⟩
    · exact ⟨'-', _, rfl, .inl rfl⟩
  cases unfinished with
  | sign => exact ⟨'-', [], rfl, .inl rfl⟩
  | point signed isWhole => exact signedFirst signed isWhole
  | exponent signed isWhole isFraction isLetter signedToo => exact signedFirst signed isWhole

theorem Numeral.readDigits_nil : readDigits [] = .error truncated := rfl

theorem Unfinished.read (unfinished : Unfinished beginning) :
    Numeral.read beginning = .error truncated := by
  cases unfinished with
  | sign => rfl
  | point signed isWhole =>
      have noDigit : NoDigit ['.'] := by simp [NoDigit]
      rw [Numeral.read_signed signed isWhole]
      simp [Numeral.readUnsigned, Numeral.readWhole_append isWhole noDigit, Numeral.readFraction,
        Numeral.readDigits_nil]
  | @exponent sign whole fraction power letter signed isWhole isFraction isLetter signedToo =>
      have noDigit : NoDigit (letter :: power) ∧ (letter :: power).head? ≠ some '.' := by
        rcases isLetter with rfl | rfl <;> simp [NoDigit]
      have noDigitToo : NoDigit (fraction ++ letter :: power) := by
        rcases isFraction with rfl | ⟨digits, rfl, -⟩
        · exact noDigit.1
        · simp [NoDigit]
      obtain ⟨digits, fractionRead⟩ :=
        Numeral.readFraction_append isFraction noDigit.1 noDigit.2
      have exponentRead : Numeral.readExponent (letter :: power) = .error truncated := by
        rw [Numeral.readExponent_cons isLetter]
        rcases signedToo with rfl | rfl | rfl <;> rfl
      rw [Numeral.read_signed signed isWhole]
      simp only [Numeral.readUnsigned, Numeral.readWhole_append isWhole noDigitToo, fractionRead,
        exponentRead]

/-- A number that is passed over is as wrong at the end of the text as anywhere else. -/
theorem Unfinished.skipScalar (unfinished : Unfinished beginning) :
    Json.skipScalar beginning = .error malformed := by
  have refused : skipNumber beginning = .error malformed := by
    rw [skipNumber, unfinished.read]
  obtain ⟨first, more, rfl, starts⟩ := unfinished.exists_first
  obtain ⟨-, other⟩ := visible_of_starts starts
  simp only [List.mem_cons, List.not_mem_nil, or_false, not_or] at other
  simp [Json.skipScalar, other, starts, refused]

end EditorFlags.Json
