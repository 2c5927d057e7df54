import EditorFlags.Proofs.Json.Truncated
import EditorFlags.Proofs.Settings.Request
import Mathlib.Data.List.DropRight

/-!
# Requests that break off

A request ends with a bracket, so a beginning of one is never taken for a request. Reading it
fails where it breaks off: before that it is read like the whole text, whose members are found so
far in the same way (`readFrom_member`). The members that count and all keys are decoded, and
there the end is seen (`readFilename_beginning`, `readFrom_key_beginning`). The other values are
passed over, and only there may it be that the text stops inside a number which is taken for a
wrong one (`MembersStop`).
-/

namespace EditorFlags.Request

open Json RequestFault

variable {beginning input : List Char} {found next last : Members}

/-- Members that stop inside a number that is none yet. The value that the number belongs to is
that of a member which does not count. -/
inductive MembersStop : List Char → Prop where
  | here {key before text : List Char} {name : List Nat} (isKey : IsKey key name)
      (other : name ≠ units filenameKey) (blank : Blank before)
      (stops : StopsInNumber .value text) : MembersStop (key ++ (before ++ text))
  | later {key before text after rest : List Char} {name : List Nat} {tree : Tree}
      (isKey : IsKey key name) (blank : Blank before) (item : Denotes text (.value tree))
      (blankToo : Blank after) (stops : MembersStop rest) :
      MembersStop (key ++ (before ++ (text ++ (after ++ ',' :: rest))))

/-- That a request stops inside a number of a value that is passed over. -/
def BreaksOffInNumber (beginning : List Char) : Prop :=
  ∃ before inner, beginning = before ++ '{' :: inner ∧ Blank before ∧ MembersStop inner

/-! ## Members from the first one on -/

/-- The members from a key on, and what is left after the closing brace. -/
def readFrom (found : Members) (input : List Char) : Except RequestFault (Members × List Char) :=
  match dropBlanks input with
  | [] => .error truncated
  | '"' :: rest => (readMember found rest).bind fun (next, left) => readMembers next left
  | _ => .error malformed

theorem readFrom_quote {before : List Char} (blank : Blank before) (rest : List Char) :
    readFrom found (before ++ '"' :: rest) =
      (readMember found rest).bind fun (next, left) => readMembers next left := by
  simp [readFrom, dropBlanks_append blank, dropBlanks_cons, isBlank]

theorem readFrom_blank (blank : Blank input) : readFrom found input = .error truncated := by
  simp [readFrom, dropBlanks_of_blank blank]

theorem readMembers_error {fault : RequestFault} (refused : following input = .error fault) :
    readMembers found input = .error fault := by
  rw [readMembers]
  split <;> simp_all

theorem readMembers_blank (blank : Blank input) : readMembers found input = .error truncated :=
  readMembers_error (by simp [following, dropBlanks_of_blank blank])

theorem readMembers_member {rest : List Char} (goesOn : following input = .ok (true, rest)) :
    readMembers found input =
      (readMember found rest).bind fun (next, left) => readMembers next left := by
  cases read : readMember found rest with
  | error fault =>
      rw [readMembers]
      split
      · simp_all
      · simp_all
      · next same =>
          rw [goesOn] at same
          obtain ⟨-, rfl⟩ := Prod.mk.inj (Except.ok.inj same)
          rw [read]
          rfl
  | ok result => exact readMembers_more goesOn read

/-- Behind a comma the members go on as they began. -/
theorem readMembers_comma {after rest : List Char} (blank : Blank after) :
    readMembers found (after ++ ',' :: rest) = readFrom found rest := by
  have comma : dropBlanks (after ++ ',' :: rest) = ',' :: rest := by
    rw [dropBlanks_append blank, dropBlanks_cons rfl]
  cases begins : dropBlanks rest with
  | nil =>
      have refused : following (after ++ ',' :: rest) = .error truncated := by
        simp [following, comma, begins]
      rw [readMembers_error refused, readFrom_blank (blank_of_dropBlanks begins)]
  | cons c left =>
      by_cases quote : c = '"'
      · subst quote
        have goesOn : following (after ++ ',' :: rest) = .ok (true, left) := by
          simp [following, comma, begins]
        rw [readMembers_member goesOn]
        simp [readFrom, begins]
      · have refused : following (after ++ ',' :: rest) = .error malformed := by
          simp [following, comma, begins, quote]
        rw [readMembers_error refused]
        simp [readFrom, begins, quote]

theorem readObject_eq (noEnd : ∀ rest, dropBlanks input ≠ '}' :: rest) :
    readObject input = readFrom none input := by
  cases begins : dropBlanks input with
  | nil => simp [readObject, readFrom, begins]
  | cons c left =>
      have noEndHere : c ≠ '}' := by
        rintro rfl
        exact noEnd left begins
      by_cases quote : c = '"'
      · subst quote
        cases read : readMember none left <;> simp [readObject, readFrom, begins, read, Except.bind]
      · simp [readObject, readFrom, begins, quote, noEndHere]

/-! ## One member -/

section
variable {key before text after rest : List Char} {name : List Nat} {tree : Tree}

/-- A key that spells a text is read with its colon. -/
theorem exists_of_key {name : List Char} (isKey : IsKey key (units name)) (rest : List Char) :
    ∃ inside colon, dropBlanks (key ++ rest) = '"' :: inside ∧
      Json.read inside = .ok (name, colon) ∧ skipColon colon = .ok rest := by
  generalize spelled : units name = us at isKey
  cases isKey with
  | @key before body after us blank spells blankToo =>
      subst spelled
      refine ⟨body ++ '"' :: (after ++ ':' :: rest), after ++ ':' :: rest, ?_,
        read_of_spells spells _, skipColon_eq_ok_iff.mpr ⟨after, rfl, blankToo⟩⟩
      simp [dropBlanks_append blank, dropBlanks_cons, isBlank]

theorem readFrom_filename (isKey : IsKey key (units filenameKey)) (rest : List Char) :
    readFrom none (key ++ rest) =
      (readFilename rest).bind fun (filename, left) => readMembers (some filename) left := by
  obtain ⟨inside, colon, begins, keyRead, colonRead⟩ := exists_of_key isKey rest
  cases read : readFilename rest <;>
    simp [readFrom, begins, readMember, keyRead, colonRead, read, Except.bind]

theorem readFrom_other {name : List Char} (isKey : IsKey key (units name))
    (other : name ≠ filenameKey) (rest : List Char) :
    readFrom found (key ++ rest) = (skipValue rest).bind (readMembers found) := by
  obtain ⟨inside, colon, begins, keyRead, colonRead⟩ := exists_of_key isKey rest
  cases passed : skipValue rest <;>
    simp [readFrom, begins, readMember, keyRead, other, colonRead, passed, Except.bind]

/-- A whole member and a comma have been read. -/
theorem readFrom_member (isKey : IsKey key name) (blank : Blank before)
    (item : Denotes text (.value tree)) (blankToo : Blank after)
    (takes : Takes found (name, tree) next) :
    readFrom found (key ++ (before ++ (text ++ (after ++ ',' :: rest)))) = readFrom next rest := by
  obtain ⟨inside, begins, read⟩ :=
    readMember_append isKey blank item takes (closed_comma blankToo rest)
  have passed : readMembers next (after ++ ',' :: rest) = readFrom next rest :=
    readMembers_comma blankToo
  rw [readFrom, begins, ← passed]
  simp only [read]
  rfl

/-- A key that breaks off is found out wherever it does. -/
theorem readFrom_key_beginning {name : List Char} (isKey : IsKey key (units name))
    (first : name = filenameKey → found = none) (begins : IsBeginning beginning key) :
    readFrom found beginning = .error truncated := by
  rcases isKey.cases_beginning begins with
    blank | ⟨before, body, rest, rfl, blank, spells, inBody | ⟨after, rfl, blankAfter⟩⟩
  · exact readFrom_blank blank
  · rw [readFrom_quote blank, readMember, read_beginning spells inBody]
    rfl
  · -- The key is whole, and only its colon is missing.
    rw [readFrom_quote blank]
    by_cases counts : name = filenameKey
    · simp [readMember, read_of_spells spells, counts, first counts, skipColon_blank blankAfter,
        Except.bind]
    · simp [readMember, read_of_spells spells, counts, skipColon_blank blankAfter, Except.bind]

/-! ## Values of members -/

theorem readFilename_blank (blank : Blank input) : readFilename input = .error truncated := by
  simp [readFilename, dropBlanks_of_blank blank, mismatch]

theorem readFilename_beginning {filename : Option Path} (blank : Blank before)
    (item : Denotes text (.value tree)) (names : NamesFile tree filename)
    (begins : IsBeginning beginning text) :
    readFilename (before ++ beginning) = .error truncated := by
  cases names with
  | null =>
      cases item with
      | nullWord =>
          rcases isBeginning_cons.mp begins with rfl | ⟨rest, rfl, inside⟩
          · rw [List.append_nil]
            exact readFilename_blank blank
          · have refused := skipLetters_beginning inside
            simp [readFilename, dropBlanks_append blank, dropBlanks_cons, isBlank, refused]
  | text name =>
      cases item with
      | string spells =>
          rcases isBeginning_enclosed.mp begins with rfl | ⟨rest, rfl, inBody⟩
          · rw [List.append_nil]
            exact readFilename_blank blank
          · have refused := read_beginning spells inBody
            simp [readFilename, dropBlanks_append blank, dropBlanks_cons, isBlank, refused]

/-- A value that is passed over ends too early, or inside a number, or it seems to be whole. -/
theorem skipValue_beginning (blank : Blank before) (item : Denotes text (.value tree))
    (begins : IsBeginning beginning text) :
    skipValue (before ++ beginning) = .error truncated ∨
      (skipValue (before ++ beginning) = .error malformed ∧ StopsInNumber .value beginning) ∨
        skipValue (before ++ beginning) = .ok [] := by
  rcases item.beginnings beginning begins with fails | stops | ⟨other, denotes⟩
  · exact .inl (fails [] before blank)
  · exact .inr (.inl ⟨stops.fails [] before blank, stops⟩)
  · have passed := skipValue_append blank denotes (closed_of_blank blank_nil)
    rw [List.append_nil] at passed
    exact .inr (.inr passed)

/-- How reading members ends that break off. -/
def Detected (found : Members) (beginning : List Char) : Prop :=
  readFrom found beginning = .error truncated ∨
    readFrom found beginning = .error malformed ∧ MembersStop beginning

theorem detected_value (isKey : IsKey key name) (blank : Blank before)
    (item : Denotes text (.value tree)) (blankToo : Blank after)
    (takes : Takes found (name, tree) next) (cut : rest <+: before ++ (text ++ after)) :
    Detected found (key ++ rest) := by
  unfold Detected
  cases takes with
  | filename names =>
      refine .inl ?_
      rw [readFrom_filename isKey]
      rcases prefix_append_iff.mp cut with begins | ⟨left, rfl, cutLeft⟩
      · rw [readFilename_blank (blank_of_cut blank begins.isPrefix)]
        rfl
      rcases prefix_append_iff.mp cutLeft with begins | ⟨left, rfl, cutAfter⟩
      · rw [readFilename_beginning blank item names begins]
        rfl
      · rw [readFilename_append blank item names]
        exact readMembers_blank (blank_of_cut blankToo cutAfter)
  | @other found other tree isOther =>
      rw [readFrom_other isKey isOther]
      rcases prefix_append_iff.mp cut with begins | ⟨left, rfl, cutLeft⟩
      · have refused : skipValue rest = .error truncated :=
          skipFrom_before_blank (blank_of_cut blank begins.isPrefix)
        rw [refused]
        exact .inl rfl
      rcases prefix_append_iff.mp cutLeft with begins | ⟨left, rfl, cutAfter⟩
      · rcases skipValue_beginning blank item begins with refused | ⟨refused, stops⟩ | passed
        · rw [refused]
          exact .inl rfl
        · rw [refused]
          have isOther := units_injective.ne isOther
          exact .inr ⟨rfl, .here isKey isOther blank stops⟩
        · rw [passed]
          exact .inl (readMembers_blank blank_nil)
      · have blankLeft := blank_of_cut blankToo cutAfter
        rw [skipValue_append blank item (closed_of_blank blankLeft)]
        exact .inl (readMembers_blank blankLeft)

end

/-! ## All members -/

theorem Takes.exists_key {name : List Nat} {tree : Tree} (takes : Takes found (name, tree) next) :
    ∃ key, name = units key ∧ (key = filenameKey → found = none) := by
  cases takes with
  | filename => exact ⟨filenameKey, rfl, fun _ => rfl⟩
  | other other => exact ⟨_, rfl, fun counts => absurd counts other⟩

/-- **Members that break off are found out.** -/
theorem detected_of_members {inner : List Char} {members : List (List Nat × Tree)}
    (denotes : Denotes inner (.members members)) (takes : TakesAll found members last)
    (cut : beginning <+: inner) : Detected found beginning := by
  generalize ofMembers : Part.members members = part at denotes
  induction denotes generalizing found members beginning with
  | @lastMember key before text after name tree isKey blank item blankToo ih =>
      obtain rfl := Part.members.inj ofMembers
      cases takes with
      | cons firstTakes others =>
          rcases prefix_append_iff.mp cut with begins | ⟨rest, rfl, cutRest⟩
          · obtain ⟨key, rfl, first⟩ := firstTakes.exists_key
            exact .inl (readFrom_key_beginning isKey first begins)
          · exact detected_value isKey blank item blankToo firstTakes cutRest
  | @member key before text after more name tree members isKey blank item blankToo others ih
      ihMore =>
      obtain rfl := Part.members.inj ofMembers
      cases takes with
      | @cons _ next _ _ _ firstTakes othersTaken =>
          rcases prefix_append_iff.mp cut with begins | ⟨rest, rfl, cutRest⟩
          · obtain ⟨key, rfl, first⟩ := firstTakes.exists_key
            exact .inl (readFrom_key_beginning isKey first begins)
          rcases cut_at_comma cutRest with inside | ⟨later, rfl, cutLater⟩
          · exact detected_value isKey blank item blankToo firstTakes inside
          · unfold Detected
            rw [readFrom_member isKey blank item blankToo firstTakes]
            exact (ihMore othersTaken cutLater rfl).imp id fun ⟨refused, stops⟩ =>
              ⟨refused, .later isKey blank item blankToo stops⟩
  | _ => cases ofMembers

/-- What comes first in members that are taken, and what follows it. -/
theorem exists_first_member {inner : List Char} {members : List (List Nat × Tree)}
    (denotes : Denotes inner (.members members)) (takes : TakesAll found members last) :
    ∃ key before text rest name tree next, inner = key ++ (before ++ (text ++ rest)) ∧
      IsKey key name ∧ Blank before ∧ Denotes text (.value tree) ∧
      Takes found (name, tree) next ∧ (Blank rest ∨ ∃ after later others,
        rest = after ++ ',' :: later ∧ Blank after ∧ Denotes later (.members others) ∧
          TakesAll next others last) := by
  cases denotes with
  | lastMember isKey blank item blankToo =>
      cases takes with
      | cons first others =>
          exact ⟨_, _, _, _, _, _, _, rfl, isKey, blank, item, first, .inl blankToo⟩
  | member isKey blank item blankToo more =>
      cases takes with
      | cons first others =>
          exact ⟨_, _, _, _, _, _, _, rfl, isKey, blank, item, first,
            .inr ⟨_, _, _, rfl, blankToo, more, others⟩⟩

/-- **Members that stop inside a number are wrong.** Those before it are members of the whole
text, because a text can be taken apart in one way only, and so they are read. -/
theorem readFrom_of_stops (stops : MembersStop beginning) {inner : List Char}
    {members : List (List Nat × Tree)} (denotes : Denotes inner (.members members))
    (takes : TakesAll found members last) (cut : beginning <+: inner) :
    readFrom found beginning = .error malformed := by
  induction stops generalizing found inner members with
  | @here key before text name isKey other blank stops =>
      obtain ⟨missing, rfl⟩ := cut
      obtain ⟨keyToo, _, _, _, nameToo, _, _, same, isKeyToo, _, _, first, _⟩ :=
        exists_first_member denotes takes
      rw [List.append_assoc] at same
      obtain ⟨rfl, -⟩ := append_inj_of_key isKey isKeyToo same
      cases first with
      | filename names => exact absurd rfl other
      | other isOther =>
          have refused : skipValue (before ++ text) = .error malformed :=
            stops.fails [] before blank
          rw [readFrom_other isKey isOther, refused]
          rfl
  | @later key before text after rest name tree isKey blank item blankToo stops ih =>
      obtain ⟨missing, rfl⟩ := cut
      obtain ⟨keyToo, beforeToo, textToo, restToo, nameToo, treeToo, next, same, isKeyToo,
        blankBefore, itemToo, first, follows⟩ := exists_first_member denotes takes
      simp only [List.append_assoc, List.cons_append] at same
      obtain ⟨rfl, sameValue⟩ := append_inj_of_key isKey isKeyToo same
      -- Where the first value ends is the same in both, since both times something closes it.
      have closed : Closed restToo := by
        rcases follows with blankRest | ⟨after, later, -, rfl, blankAfter, -⟩
        · exact closed_of_blank blankRest
        · exact closed_comma blankAfter later
      obtain ⟨rfl, sameRest⟩ := append_inj_of_value blank blankBefore item itemToo
        (closed_comma blankToo (rest ++ missing)) closed sameValue
      rcases follows with blankRest | ⟨afterToo, later, others, rfl, blankAfter, more, othersTaken⟩
      · exact absurd (sameRest ▸ blankRest) not_blank_comma
      obtain rfl := append_inj_of_comma blankToo blankAfter sameRest
      obtain rfl := item.unique _ itemToo
      rw [readFrom_member isKey blank item blankToo first]
      exact ih more othersTaken (List.prefix_append rest missing)

/-! ## Arrays -/

theorem readArray_blank (blank : Blank input) : readArray input = .error truncated := by
  simp [readArray, dropBlanks_of_blank blank]

/-- The file name that an array begins with is read behind the blanks before it. -/
theorem readArray_eq {before : List Char} (blank : Blank before) {first : Char} {rest : List Char}
    (visible : isBlank first = false) (noEnd : first ≠ ']') :
    readArray (before ++ first :: rest) =
      (readFilename (first :: rest)).bind fun (filename, left) =>
        match dropBlanks left with
        | [] => .error truncated
        | ']' :: left => .ok (filename, left)
        | _ => .error malformed := by
  unfold readArray
  rw [dropBlanks_append blank, dropBlanks_cons visible]
  split
  · next same => cases same
  · next same => exact absurd (List.cons.inj same).1 noEnd
  · cases readFilename (first :: rest) <;> rfl

theorem readArray_beginning {inner : List Char} {trees : List Tree} {filename : Option Path}
    (inside : Blank inner ∨ Denotes inner (.items trees)) (asks : Asks (.array trees) filename)
    (cut : beginning <+: inner) : readArray beginning = .error truncated := by
  rcases inside with blank | items
  · exact readArray_blank (blank_of_cut blank cut)
  cases asks with
  | nothing => cases items
  | alone names =>
      cases items with
      | item blank item blankToo more => cases more
      | @lastItem before text after tree blank item blankToo =>
          rcases prefix_append_iff.mp cut with begins | ⟨rest, rfl, cutRest⟩
          · exact readArray_blank (blank_of_cut blank begins.isPrefix)
          obtain ⟨first, more, rfl, visible, noEnd⟩ := item.exists_first
          rcases prefix_append_iff.mp cutRest with begins | ⟨left, rfl, cutAfter⟩
          · have nameRead := readFilename_beginning blank_nil item names begins
            rcases isBeginning_cons.mp begins with rfl | ⟨others, rfl, -⟩
            · rw [List.append_nil]
              exact readArray_blank blank
            · rw [readArray_eq blank visible noEnd]
              rw [List.nil_append] at nameRead
              rw [nameRead]
              rfl
          · have nameRead := readFilename_append blank_nil item names left
            rw [List.nil_append, List.cons_append] at nameRead
            have blankLeft := dropBlanks_of_blank (blank_of_cut blankToo cutAfter)
            rw [List.cons_append, readArray_eq blank visible noEnd, nameRead]
            simp [Except.bind, blankLeft]

/-! ## Requests -/

section
variable {before text : List Char} {tree : Tree} {filename : Option Path}

theorem read_blank (blank : Blank input) : Request.read input = .error truncated := by
  simp [Request.read, dropBlanks_of_blank blank, mismatch]

theorem read_array {inner : List Char} (blank : Blank before) :
    Request.read (before ++ '[' :: inner) =
      (readArray inner).map fun (filename, left) => (⟨filename⟩, left) := by
  cases read : readArray inner <;>
    simp [Request.read, dropBlanks_append blank, dropBlanks_cons, isBlank, read, Except.map]

theorem read_object {inner : List Char} (blank : Blank before) :
    Request.read (before ++ '{' :: inner) =
      (readObject inner).map fun (members, left) => (⟨members.join⟩, left) := by
  cases read : readObject inner <;>
    simp [Request.read, dropBlanks_append blank, dropBlanks_cons, isBlank, read, Except.map]

/-- What a value that asks for settings is written as. -/
theorem Asks.cases_text (asks : Asks tree filename) (denotes : Denotes text (.value tree)) :
    (∃ inner trees, text = '[' :: (inner ++ [']']) ∧
      (Blank inner ∨ Denotes inner (.items trees)) ∧ Asks (.array trees) filename) ∨
    ∃ inner members last, text = '{' :: (inner ++ ['}']) ∧
      (Blank inner ∨ Denotes inner (.members members)) ∧ TakesAll none members last := by
  cases tree with
  | array trees =>
      obtain ⟨inner, rfl, inside⟩ := denotes_array_iff.mp denotes
      exact .inl ⟨inner, trees, rfl, inside.imp And.left id, asks⟩
  | object members =>
      obtain ⟨inner, rfl, inside⟩ := denotes_object_iff.mp denotes
      obtain ⟨last, takes, -⟩ := asks_object_iff.mp asks
      exact .inr ⟨inner, members, last, rfl, inside.imp And.left id, takes⟩
  | _ => cases asks

theorem readObject_blank (blank : Blank input) : readObject input = .error truncated := by
  simp [readObject, dropBlanks_of_blank blank]

/-- A request that breaks off is found out, if not as one then by a number. -/
theorem read_of_beginning (blank : Blank before) (denotes : Denotes text (.value tree))
    (asks : Asks tree filename) (begins : IsBeginning beginning (before ++ text)) :
    Request.read beginning = .error truncated ∨
      Request.read beginning = .error malformed ∧ BreaksOffInNumber beginning := by
  rcases isBeginning_append.mp begins with inside | ⟨rest, rfl, inside⟩
  · exact .inl (read_blank (blank_of_cut blank inside.isPrefix))
  obtain ⟨inner, trees, rfl, array, asks⟩ | ⟨inner, members, last, rfl, object, takes⟩ :=
    asks.cases_text denotes
  · rcases isBeginning_enclosed.mp inside with rfl | ⟨rest, rfl, cut⟩
    · rw [List.append_nil]
      exact .inl (read_blank blank)
    · rw [read_array blank, readArray_beginning array asks cut]
      exact .inl rfl
  · rcases isBeginning_enclosed.mp inside with rfl | ⟨rest, rfl, cut⟩
    · rw [List.append_nil]
      exact .inl (read_blank blank)
    rw [read_object blank]
    rcases object with blankInner | members
    · rw [readObject_blank (blank_of_cut blankInner cut)]
      exact .inl rfl
    · rw [readObject_eq (noEnd_of_members members cut)]
      rcases detected_of_members members takes cut with refused | ⟨refused, stops⟩
      · rw [refused]
        exact .inl rfl
      · rw [refused]
        exact .inr ⟨rfl, before, rest, rfl, blank, stops⟩

theorem MembersStop.exists_quote (stops : MembersStop beginning) :
    ∃ more, dropBlanks beginning = '"' :: more := by
  cases stops with
  | here isKey => exact isKey.exists_quote _
  | later isKey => exact isKey.exists_quote _

theorem read_of_breaksOff (breaks : BreaksOffInNumber beginning) (blank : Blank before)
    (denotes : Denotes text (.value tree)) (asks : Asks tree filename)
    (begins : IsBeginning beginning (before ++ text)) :
    Request.read beginning = .error malformed := by
  obtain ⟨blanks, rest, rfl, blankToo, stops⟩ := breaks
  obtain ⟨quoted, quote⟩ := stops.exists_quote
  have noEnd : ∀ others, dropBlanks rest ≠ '}' :: others := by
    intro others found
    cases quote.symm.trans found
  obtain ⟨first, missing, same⟩ := begins
  -- What it stops in is an object, so the whole request is no array.
  have inside := congrArg dropBlanks same
  rw [List.append_assoc, dropBlanks_append blank, dropBlanks_append blankToo, List.cons_append,
    dropBlanks_cons rfl] at inside
  obtain ⟨inner, trees, rfl, -, -⟩ | ⟨inner, members, last, rfl, object, takes⟩ :=
    asks.cases_text denotes
  · cases (dropBlanks_cons rfl _).symm.trans inside
  have sameInner := (List.cons.inj ((dropBlanks_cons rfl _).symm.trans inside)).2
  have cut : rest <+: inner := isBeginning_concat.mp ⟨first, missing, sameInner⟩
  rcases object with blankInner | members
  · rw [dropBlanks_of_blank (blank_of_cut blankInner cut)] at quote
    cases quote
  · rw [read_object blankToo, readObject_eq noEnd, readFrom_of_stops stops members takes cut]
    rfl

end

/-! ## Truncated requests -/

/-- A text without the blanks behind it. -/
theorem rdropWhile_blank (front : List Char) {after : List Char} {closing : Char}
    (visible : isBlank closing = false) (blank : Blank after) :
    (front ++ [closing] ++ after).rdropWhile isBlank = front ++ [closing] := by
  have dropped : ∀ c ∈ after.reverse, isBlank c = true := by
    intro c member
    exact isBlank_iff.mpr (blank c (List.mem_reverse.mp member))
  rw [List.rdropWhile, List.reverse_append, List.dropWhile_append_of_pos dropped,
    ← List.rdropWhile, List.rdropWhile_concat_neg _ _ _ (by simp [visible])]

/-- A request ends with a bracket. -/
theorem exists_trimmed {text : String} {request : Request} (accepted : ofJson text = .ok request) :
    ∃ before inner tree filename, text.toList.rdropWhile isBlank = before ++ inner ∧
      Blank before ∧ Denotes inner (.value tree) ∧ Asks tree filename := by
  obtain ⟨filename⟩ := request
  obtain ⟨tree, ⟨before, inner, after, same, blank, denotes, blankAfter⟩, asks⟩ :=
    ofJson_eq_ok_iff.mp accepted
  refine ⟨before, inner, tree, filename, ?_, blank, denotes, asks⟩
  rw [same]
  obtain ⟨inner, trees, rfl, -⟩ | ⟨inner, members, last, rfl, -⟩ := asks.cases_text denotes
  · have visible : isBlank ']' = false := rfl
    simpa using rdropWhile_blank (before ++ '[' :: inner) visible blankAfter
  · have visible : isBlank '}' = false := rfl
    simpa using rdropWhile_blank (before ++ '{' :: inner) visible blankAfter

theorem ofJson_error {text : String} {fault : RequestFault}
    (refused : Request.read text.toList = .error fault) : ofJson text = .error fault := by
  rw [ofJson, refused]

/-- **A truncated request is always detected.** No beginning of a request is one, and none is
taken for JSON of another shape. It is found out to be too short, unless it stops inside a number
of a value that is passed over; then the number is what is wrong. -/
theorem ofJson_truncated {text beginning : String} {request : Request}
    (accepted : ofJson text = .ok request)
    (cut : beginning.toList <+: text.toList.rdropWhile isBlank)
    (shorter : beginning.toList ≠ text.toList.rdropWhile isBlank) :
    (BreaksOffInNumber beginning.toList → ofJson beginning = .error malformed) ∧
      (¬ BreaksOffInNumber beginning.toList → ofJson beginning = .error truncated) := by
  obtain ⟨before, inner, tree, filename, trimmed, blank, denotes, asks⟩ := exists_trimmed accepted
  have begins := isBeginning_iff.mpr ⟨cut, shorter⟩
  rw [trimmed] at begins
  constructor
  · intro breaks
    exact ofJson_error (read_of_breaksOff breaks blank denotes asks begins)
  · intro noNumber
    rcases read_of_beginning blank denotes asks begins with refused | ⟨-, breaks⟩
    · exact ofJson_error refused
    · exact absurd breaks noNumber

/-- A request that breaks off behind the point of a number, inside an array. -/
theorem ofJson_truncated_point :
    ofJson "\x7b\"a\": [2.5, null]\x7d\n" = .ok anyFile ∧
      ofJson "\x7b\"a\": [2." = .error malformed := by
  have key : IsKey "\"a\":".toList (units "a".toList) :=
    .key blank_nil (spells_flatMap_escapeChar "a".toList) blank_nil
  have space : Blank [' '] := blank_of_all rfl
  have digit {c : Char} (decimal : c.isDigit = true) : IsDigits [c] :=
    ⟨List.cons_ne_nil c [], fun _ member => List.mem_singleton.mp member ▸ decimal⟩
  have two : IsWhole ['2'] := .inr ⟨digit rfl, by decide⟩
  have number : IsNumber ['2', '.', '5'] :=
    .parts (.inl rfl) two (.inr ⟨['5'], rfl, digit rfl⟩) (.inl rfl)
  have items := Denotes.item blank_nil (.number number) blank_nil
    (.lastItem space .nullWord blank_nil)
  have isText : IsText "\x7b\"a\": [2.5, null]\x7d\n".toList
      (.object [(units "a".toList, .array [.number ['2', '.', '5'], .null])]) :=
    ⟨[], _, ['\n'], rfl, blank_nil, .object (.lastMember key space (.array items) blank_nil),
      blank_of_all rfl⟩
  have accepted : ofJson "\x7b\"a\": [2.5, null]\x7d\n" = .ok anyFile :=
    (ofJson_eq_ok_iff_of_isText isText).mpr (.unnamed (by simpa [TextKeys] using ⟨"a", rfl⟩) rfl)
  refine ⟨accepted, (ofJson_truncated accepted (by decide) (by decide)).1 ?_⟩
  exact ⟨[], _, rfl, blank_nil, .here key (by decide) space
    (.array (.item blank_nil (.number (.point (.inl rfl) two))))⟩

end EditorFlags.Request
