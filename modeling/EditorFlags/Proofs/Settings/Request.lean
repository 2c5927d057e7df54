import EditorFlags.Proofs.Json.Unambiguous
import EditorFlags.Settings.Request

/-!
# Which texts are requests

A request is a JSON text for a value that asks for settings (`Asks`), and what such a value
asks for is settled. The members of an object are read one by one, so the heart of the matter
is what one member does to the file name found so far (`Takes`), and a list of them
(`TakesAll`). Read off the list as a whole this says that all keys are texts and that at most
one of them is `filename`.
-/

namespace EditorFlags.Request

open Json

variable {input left : List Char} {filename : Option Path}

/-! ## What is asked for -/

/-- Values that stand for a file name. -/
inductive NamesFile : Tree → Option Path → Prop where
  | null : NamesFile .null none
  | text (name : String) : NamesFile (.string (units name.toList)) (some (.ofText name))

/-- The values of the members that count. -/
def filenames (members : List (List Nat × Tree)) : List Tree :=
  (members.filter fun member => member.1 = units filenameKey).map Prod.snd

/-- That all keys are texts. One that spells half a surrogate pair is not. -/
def TextKeys (members : List (List Nat × Tree)) : Prop :=
  ∀ member ∈ members, ∃ key : String, member.1 = units key.toList

/-- Values that are requests, and the file that they are for. -/
inductive Asks : Tree → Option Path → Prop where
  | unnamed {members : List (List Nat × Tree)} (keys : TextKeys members)
      (noFile : filenames members = []) : Asks (.object members) none
  | named {members : List (List Nat × Tree)} {tree : Tree} {filename : Option Path}
      (keys : TextKeys members) (single : filenames members = [tree])
      (names : NamesFile tree filename) : Asks (.object members) filename
  | nothing : Asks (.array []) none
  | alone {tree : Tree} {filename : Option Path} (names : NamesFile tree filename) :
      Asks (.array [tree]) filename

/-! ## File names -/

theorem exists_of_readFilename (read : readFilename input = .ok (filename, left)) :
    ∃ before text tree, input = before ++ (text ++ left) ∧ Blank before ∧
      Denotes text (.value tree) ∧ NamesFile tree filename := by
  unfold readFilename at read
  split at read
  · next found =>
      obtain ⟨before, rfl, blank⟩ := exists_of_dropBlanks found
      split at read
      · simp at read
      · next lettersRead =>
          simp only [Except.ok.injEq, Prod.mk.injEq] at read
          obtain ⟨rfl, rfl⟩ := read
          obtain rfl := skipLetters_eq_ok_iff.mp lettersRead
          exact ⟨before, _, _, rfl, blank, .nullWord, .null⟩
  · next found =>
      obtain ⟨before, rfl, blank⟩ := exists_of_dropBlanks found
      split at read
      · simp at read
      · next text left literalRead =>
          simp only [Except.ok.injEq, Prod.mk.injEq] at read
          obtain ⟨rfl, rfl⟩ := read
          obtain ⟨body, rfl, spells⟩ := read_eq_ok_iff.mp literalRead
          have name := NamesFile.text (String.ofList text)
          rw [String.toList_ofList] at name
          exact ⟨before, _, _, by simp, blank, .string spells, name⟩
  · simp at read

theorem readFilename_append {before text : List Char} {tree : Tree} (blank : Blank before)
    (denotes : Denotes text (.value tree)) (names : NamesFile tree filename) (rest : List Char) :
    readFilename (before ++ (text ++ rest)) = .ok (filename, rest) := by
  unfold readFilename
  rw [dropBlanks_append blank]
  cases names with
  | null =>
      cases denotes with
      | nullWord =>
          have passed : skipLetters ['u', 'l', 'l'] ('u' :: 'l' :: 'l' :: rest) = .ok rest :=
            skipLetters_eq_ok_iff.mpr rfl
          simp [dropBlanks_cons, isBlank, passed]
  | text name =>
      cases denotes with
      | @string body units spells =>
          have literal := read_of_spells spells rest
          simp [dropBlanks_cons, isBlank, literal]

/-! ## Members -/

/-- What one member does to the file name that has been found so far. -/
inductive Takes : Members → List Nat × Tree → Members → Prop where
  | filename {tree : Tree} {filename : Option Path} (names : NamesFile tree filename) :
      Takes none (units filenameKey, tree) (some filename)
  | other {found : Members} {key : List Char} {tree : Tree} (other : key ≠ filenameKey) :
      Takes found (units key, tree) found

/-- What some members do to it, one after the other. -/
inductive TakesAll : Members → List (List Nat × Tree) → Members → Prop where
  | nil {found : Members} : TakesAll found [] found
  | cons {found next last : Members} {member : List Nat × Tree}
      {members : List (List Nat × Tree)} (takes : Takes found member next)
      (others : TakesAll next members last) : TakesAll found (member :: members) last

variable {found next last : Members}

theorem exists_of_readMember (read : readMember found input = .ok (next, left)) :
    ∃ key before text name tree, '"' :: input = key ++ (before ++ (text ++ left)) ∧
      IsKey key name ∧ Blank before ∧ Denotes text (.value tree) ∧
      Takes found (name, tree) next := by
  unfold readMember at read
  split at read
  · simp at read
  · next key rest keyRead =>
      obtain ⟨body, rfl, spells⟩ := read_eq_ok_iff.mp keyRead
      split at read
      · next isFilename =>
          subst isFilename
          split at read
          · simp at read
          · next first =>
              obtain rfl : found = none := by simpa using first
              split at read
              · simp at read
              · next colonRead =>
                  obtain ⟨after, rfl, blank⟩ := skipColon_eq_ok_iff.mp colonRead
                  split at read
                  · simp at read
                  · next nameRead =>
                      simp only [Except.ok.injEq, Prod.mk.injEq] at read
                      obtain ⟨rfl, rfl⟩ := read
                      obtain ⟨before, text, tree, rfl, blankToo, denotes, names⟩ :=
                        exists_of_readFilename nameRead
                      exact ⟨_, before, text, _, tree, by simp, .key blank_nil spells blank,
                        blankToo, denotes, .filename names⟩
      · next other =>
          split at read
          · simp at read
          · next colonRead =>
              obtain ⟨after, rfl, blank⟩ := skipColon_eq_ok_iff.mp colonRead
              split at read
              · simp at read
              · next valuePassed =>
                  simp only [Except.ok.injEq, Prod.mk.injEq] at read
                  obtain ⟨rfl, rfl⟩ := read
                  obtain ⟨before, text, tree, rfl, blankToo, denotes⟩ :=
                    exists_of_skipValue valuePassed
                  exact ⟨_, before, text, _, tree, by simp, .key blank_nil spells blank,
                    blankToo, denotes, .other other⟩

theorem readMember_append {key before text rest : List Char} {name : List Nat} {tree : Tree}
    (isKey : IsKey key name) (blank : Blank before) (denotes : Denotes text (.value tree))
    (takes : Takes found (name, tree) next) (closed : Closed rest) :
    ∃ inside, dropBlanks (key ++ (before ++ (text ++ rest))) = '"' :: inside ∧
      readMember found inside = .ok (next, rest) := by
  cases isKey with
  | @key blanks body after name blankFirst spells blankToo =>
      refine ⟨body ++ '"' :: (after ++ ':' :: (before ++ (text ++ rest))), ?_, ?_⟩
      · simp [dropBlanks_append blankFirst, dropBlanks_cons, isBlank]
      have colonRead : skipColon (after ++ ':' :: (before ++ (text ++ rest))) =
          .ok (before ++ (text ++ rest)) := skipColon_eq_ok_iff.mpr ⟨after, rfl, blankToo⟩
      cases takes with
      | filename names =>
          simp [readMember, read_of_spells spells, colonRead,
            readFilename_append blank denotes names]
      | other other =>
          simp [readMember, read_of_spells spells, other, colonRead,
            skipValue_append blank denotes closed]

theorem readMembers_ending (ends : following input = .ok (false, left)) :
    readMembers found input = .ok (found, left) := by
  rw [readMembers]
  split <;> simp_all

theorem readMembers_more {rest middle : List Char} (goesOn : following input = .ok (true, rest))
    (read : readMember found rest = .ok (next, middle)) :
    readMembers found input = readMembers next middle := by
  rw [readMembers]
  split
  · simp_all
  · simp_all
  · next same =>
      rw [goesOn] at same
      obtain ⟨-, rfl⟩ := Prod.mk.inj (Except.ok.inj same)
      rw [read]

theorem following_cases {more : Bool} (read : following input = .ok (more, left)) :
    ∃ blanks, Blank blanks ∧
      ((more = false ∧ input = blanks ++ '}' :: left) ∨
        ∃ rest, more = true ∧ input = blanks ++ ',' :: rest ∧ dropBlanks rest = '"' :: left) := by
  unfold following at read
  split at read
  · simp at read
  · next found =>
      obtain ⟨blanks, rfl, blank⟩ := exists_of_dropBlanks found
      simp only [Except.ok.injEq, Prod.mk.injEq] at read
      obtain ⟨rfl, rfl⟩ := read
      exact ⟨blanks, blank, .inl ⟨rfl, rfl⟩⟩
  · next rest found =>
      obtain ⟨blanks, rfl, blank⟩ := exists_of_dropBlanks found
      split at read
      · simp at read
      · next quote =>
          simp only [Except.ok.injEq, Prod.mk.injEq] at read
          obtain ⟨rfl, rfl⟩ := read
          exact ⟨blanks, blank, .inr ⟨rest, rfl, rfl, quote⟩⟩
      · simp at read
  · simp at read

/-- A key may be preceded by more blanks. -/
theorem isKey_append {blanks key : List Char} {name : List Nat} (blank : Blank blanks)
    (isKey : IsKey key name) : IsKey (blanks ++ key) name := by
  cases isKey with
  | @key before body after name blankToo spells blankAfter =>
      rw [← List.append_assoc]
      exact .key (List.forall_mem_append.mpr ⟨blank, blankToo⟩) spells blankAfter

theorem exists_of_readMembers (read : readMembers found input = .ok (last, left)) :
    ∃ text members, input = text ++ left ∧ MembersTail text members ∧
      TakesAll found members last := by
  fun_induction readMembers found input with
  | case1 => simp at read
  | case2 found input left ends =>
      simp only [Except.ok.injEq, Prod.mk.injEq] at read
      obtain ⟨rfl, rfl⟩ := read
      obtain ⟨blanks, blank, ⟨-, rfl⟩ | ⟨-, impossible, -⟩⟩ := following_cases ends
      · exact ⟨blanks ++ ['}'], [], by simp, .ending blank, .nil⟩
      · cases impossible
  | case3 => simp at read
  | case4 found input rest goesOn next middle memberRead ih =>
      obtain ⟨blanks, blank, ⟨impossible, -⟩ | ⟨other, -, rfl, quote⟩⟩ := following_cases goesOn
      · cases impossible
      obtain ⟨blanksToo, rfl, blankToo⟩ := exists_of_dropBlanks quote
      obtain ⟨key, before, text, name, tree, same, isKey, blankBefore, denotes, takes⟩ :=
        exists_of_readMember memberRead
      obtain ⟨tailText, members, rfl, tail, others⟩ := ih read
      obtain ⟨inner, whole, inside⟩ :=
        exists_members_of_tail (isKey_append blankToo isKey) blankBefore denotes tail
      refine ⟨blanks ++ ',' :: (inner ++ ['}']), _, ?_, .more blank inside, .cons takes others⟩
      rw [← whole, same]
      simp

/-- **Members are read as they stand.** -/
theorem readMember_members {inner : List Char} {members : List (List Nat × Tree)}
    (denotes : Denotes inner (.members members)) (takes : TakesAll found members last)
    (rest : List Char) :
    ∃ inside next middle, dropBlanks (inner ++ '}' :: rest) = '"' :: inside ∧
      readMember found inside = .ok (next, middle) ∧
      readMembers next middle = .ok (last, rest) := by
  generalize ofMembers : Part.members members = part at denotes
  induction denotes generalizing found members with
  | @lastMember key before text after name tree isKey blank item blankToo ih =>
      obtain rfl := Part.members.inj ofMembers
      cases takes with
      | cons first others =>
          cases others with
          | nil =>
              have closed := closed_append blankToo (closed_cons (.inr (.inr rfl)) rest)
              obtain ⟨inside, begins, read⟩ := readMember_append isKey blank item first closed
              have ends : following (after ++ '}' :: rest) = .ok (false, rest) := by
                simp [following, dropBlanks_append blankToo, dropBlanks_cons, isBlank]
              exact ⟨inside, last, _, by simpa using begins, read, readMembers_ending ends⟩
  | @member key before text after more name tree members isKey blank item blankToo others ih
      ihMore =>
      obtain rfl := Part.members.inj ofMembers
      cases takes with
      | cons first othersTaken =>
          have closed := closed_comma blankToo (more ++ '}' :: rest)
          obtain ⟨inside, begins, read⟩ := readMember_append isKey blank item first closed
          obtain ⟨later, next, middle, quote, readNext, readOthers⟩ := ihMore othersTaken rfl
          have goesOn : following (after ++ ',' :: (more ++ '}' :: rest)) = .ok (true, later) := by
            simp [following, dropBlanks_append blankToo, dropBlanks_cons, isBlank, quote]
          refine ⟨inside, _, _, by simpa using begins, read, ?_⟩
          rw [readMembers_more goesOn readNext, readOthers]
  | _ => cases ofMembers

/-! ## Containers -/

theorem readObject_eq_ok_iff : readObject input = .ok (last, left) ↔
    ∃ inner members, input = inner ++ '}' :: left ∧
      Denotes ('{' :: (inner ++ ['}'])) (.value (.object members)) ∧
      TakesAll none members last := by
  constructor
  · intro read
    unfold readObject at read
    split at read
    · simp at read
    · next ending =>
        simp only [Except.ok.injEq, Prod.mk.injEq] at read
        obtain ⟨rfl, rfl⟩ := read
        obtain ⟨blanks, rfl, blank⟩ := exists_of_dropBlanks ending
        exact ⟨blanks, [], rfl, .noMembers blank, .nil⟩
    · next quote =>
        obtain ⟨blanks, rfl, blank⟩ := exists_of_dropBlanks quote
        split at read
        · simp at read
        · next memberRead =>
            obtain ⟨key, before, text, name, tree, same, isKey, blankToo, denotes, takes⟩ :=
              exists_of_readMember memberRead
            obtain ⟨tailText, members, rfl, tail, others⟩ := exists_of_readMembers read
            obtain ⟨inner, whole, inside⟩ :=
              exists_members_of_tail (isKey_append blank isKey) blankToo denotes tail
            refine ⟨inner, _, ?_, .object inside, .cons takes others⟩
            have front : inner ++ '}' :: left = (inner ++ ['}']) ++ left := by simp
            rw [front, ← whole, same]
            simp
    · simp at read
  · rintro ⟨inner, members, rfl, denotes, takes⟩
    obtain ⟨innerToo, same, found⟩ := denotes_object_iff.mp denotes
    obtain rfl := List.append_cancel_right (List.cons.inj same).2
    rcases found with ⟨blank, rfl⟩ | inside
    · cases takes with
      | nil => simp [readObject, dropBlanks_append blank, dropBlanks_cons, isBlank]
    · obtain ⟨first, next, middle, begins, read, readOthers⟩ :=
        readMember_members inside takes left
      simp [readObject, begins, read, readOthers]

/-- An array is read whose only element names a file. -/
theorem readArray_alone {inner : List Char} {tree : Tree} (inside : Denotes inner (.items [tree]))
    (names : NamesFile tree filename) (left : List Char) :
    readArray (inner ++ ']' :: left) = .ok (filename, left) := by
  cases inside with
  | item blank item blankToo more => cases more
  | @lastItem before text after tree blank item blankToo =>
      obtain ⟨first, more, begins, visible, noEnd⟩ := item.exists_first
      have nameRead := readFilename_append blank_nil item names (after ++ ']' :: left)
      rw [begins, List.nil_append, List.cons_append] at nameRead
      have front : dropBlanks (before ++ (text ++ after) ++ ']' :: left) =
          first :: (more ++ (after ++ ']' :: left)) := by
        simp [begins, dropBlanks_append blank, dropBlanks_cons visible]
      unfold readArray
      rw [front]
      split
      · next found => cases found
      · next found => exact absurd (List.cons.inj found).1 noEnd
      · simp [nameRead, dropBlanks_append blankToo, dropBlanks_cons, isBlank]

theorem readArray_eq_ok_iff : readArray input = .ok (filename, left) ↔
    ∃ inner trees, input = inner ++ ']' :: left ∧
      Denotes ('[' :: (inner ++ [']'])) (.value (.array trees)) ∧
      Asks (.array trees) filename := by
  constructor
  · intro read
    unfold readArray at read
    split at read
    · simp at read
    · next ending =>
        simp only [Except.ok.injEq, Prod.mk.injEq] at read
        obtain ⟨rfl, rfl⟩ := read
        obtain ⟨blanks, rfl, blank⟩ := exists_of_dropBlanks ending
        exact ⟨blanks, [], rfl, .noItems blank, .nothing⟩
    · split at read
      · simp at read
      · next nameRead =>
          split at read
          · simp at read
          · next ending =>
              simp only [Except.ok.injEq, Prod.mk.injEq] at read
              obtain ⟨rfl, rfl⟩ := read
              obtain ⟨blanks, same, blank⟩ := exists_blank input
              obtain ⟨before, text, tree, inside, blankBefore, denotes, names⟩ :=
                exists_of_readFilename nameRead
              obtain ⟨after, rfl, blankAfter⟩ := exists_of_dropBlanks ending
              have blankFront : Blank (blanks ++ before) :=
                List.forall_mem_append.mpr ⟨blank, blankBefore⟩
              refine ⟨(blanks ++ before) ++ (text ++ after), [tree], ?_,
                .array (.lastItem blankFront denotes blankAfter), .alone names⟩
              rw [same, inside]
              simp
          · simp at read
  · rintro ⟨inner, trees, rfl, denotes, asks⟩
    obtain ⟨innerToo, same, found⟩ := denotes_array_iff.mp denotes
    obtain rfl := List.append_cancel_right (List.cons.inj same).2
    cases asks with
    | nothing =>
        rcases found with ⟨blank, -⟩ | inside
        · simp [readArray, dropBlanks_append blank, dropBlanks_cons, isBlank]
        · cases inside
    | alone names =>
        rcases found with ⟨-, impossible⟩ | inside
        · cases impossible
        · exact readArray_alone inside names left

/-! ## All members at once -/

theorem filenames_cons_self (tree : Tree) (members : List (List Nat × Tree)) :
    filenames ((units filenameKey, tree) :: members) = tree :: filenames members := by
  simp [filenames]

theorem filenames_cons_other {key : List Char} (other : key ≠ filenameKey) (tree : Tree)
    (members : List (List Nat × Tree)) :
    filenames ((units key, tree) :: members) = filenames members := by
  simp [filenames, units_injective.eq_iff, other]

theorem textKeys_cons {member : List Nat × Tree} {members : List (List Nat × Tree)} :
    TextKeys (member :: members) ↔ (∃ key, member.1 = units key) ∧ TextKeys members := by
  have spelled : (∃ key : String, member.1 = units key.toList) ↔ ∃ key, member.1 = units key :=
    ⟨fun ⟨key, same⟩ => ⟨key.toList, same⟩, fun ⟨key, same⟩ => ⟨String.ofList key, by simpa⟩⟩
  rw [← spelled]
  exact List.forall_mem_cons

/-- What may be found in the end, by the values of the members that count: once there is a
file name there is no other. -/
def Found (members : List (List Nat × Tree)) : Members → Members → Prop
  | some filename, last => filenames members = [] ∧ last = some filename
  | none, last => (filenames members = [] ∧ last = none) ∨
      ∃ tree filename, filenames members = [tree] ∧ NamesFile tree filename ∧ last = some filename

/-- **What the members do one by one can be told from all of them.** -/
theorem takesAll_iff {members : List (List Nat × Tree)} :
    TakesAll found members last ↔ TextKeys members ∧ Found members found last := by
  induction members generalizing found with
  | nil =>
      have keys : TextKeys [] := fun _ member => nomatch member
      constructor
      · intro takes
        cases takes with
        | nil => exact ⟨keys, by cases last <;> simp [Found, filenames]⟩
      · rintro ⟨-, ends⟩
        obtain rfl : last = found := by cases found <;> simpa [Found, filenames] using ends
        exact .nil
  | cons member members ih =>
      obtain ⟨name, tree⟩ := member
      rw [textKeys_cons]
      constructor
      · intro takes
        cases takes with
        | cons first others =>
            obtain ⟨keys, ends⟩ := ih.mp others
            cases first with
            | filename names =>
                refine ⟨⟨⟨_, rfl⟩, keys⟩, .inr ⟨tree, _, ?_, names, ends.2⟩⟩
                rw [filenames_cons_self, ends.1]
            | other other =>
                refine ⟨⟨⟨_, rfl⟩, keys⟩, ?_⟩
                cases found <;> simpa only [Found, filenames_cons_other other] using ends
      · rintro ⟨⟨⟨key, rfl⟩, keys⟩, ends⟩
        by_cases counts : key = filenameKey
        · subst counts
          cases found with
          | some filename =>
              rw [Found, filenames_cons_self] at ends
              cases ends.1
          | none =>
              simp only [Found, filenames_cons_self] at ends
              obtain ⟨impossible, -⟩ | ⟨_, filename, single, names, rfl⟩ := ends
              · cases impossible
              obtain ⟨rfl, none⟩ := List.cons.inj single
              exact .cons (.filename names) (ih.mpr ⟨keys, none, rfl⟩)
        · refine .cons (.other counts) (ih.mpr ⟨keys, ?_⟩)
          cases found <;> simpa only [Found, filenames_cons_other counts] using ends

theorem asks_object_iff {members : List (List Nat × Tree)} :
    Asks (.object members) filename ↔
      ∃ last, TakesAll none members last ∧ last.join = filename := by
  constructor
  · intro asks
    cases asks with
    | unnamed keys noFile => exact ⟨none, takesAll_iff.mpr ⟨keys, .inl ⟨noFile, rfl⟩⟩, rfl⟩
    | named keys single names =>
        exact ⟨some filename, takesAll_iff.mpr ⟨keys, .inr ⟨_, _, single, names, rfl⟩⟩, rfl⟩
  · rintro ⟨last, takes, rfl⟩
    obtain ⟨keys, ⟨noFile, rfl⟩ | ⟨tree, filename, single, names, rfl⟩⟩ := takesAll_iff.mp takes
    · exact .unnamed keys noFile
    · exact .named keys single names

/-! ## Requests -/

theorem exists_of_read (read : Request.read input = .ok (⟨filename⟩, left)) :
    ∃ before text tree, input = before ++ (text ++ left) ∧ Blank before ∧
      Denotes text (.value tree) ∧ Asks tree filename := by
  unfold Request.read at read
  split at read
  · next found =>
      obtain ⟨before, rfl, blank⟩ := exists_of_dropBlanks found
      split at read
      · simp at read
      · next arrayRead =>
          simp only [Except.ok.injEq, Prod.mk.injEq, Request.mk.injEq] at read
          obtain ⟨rfl, rfl⟩ := read
          obtain ⟨inner, trees, rfl, denotes, asks⟩ := readArray_eq_ok_iff.mp arrayRead
          exact ⟨before, _, _, by simp, blank, denotes, asks⟩
  · next found =>
      obtain ⟨before, rfl, blank⟩ := exists_of_dropBlanks found
      split at read
      · simp at read
      · next objectRead =>
          simp only [Except.ok.injEq, Prod.mk.injEq, Request.mk.injEq] at read
          obtain ⟨rfl, rfl⟩ := read
          obtain ⟨inner, members, rfl, denotes, takes⟩ := readObject_eq_ok_iff.mp objectRead
          exact ⟨before, _, _, by simp, blank, denotes, asks_object_iff.mpr ⟨_, takes, rfl⟩⟩
  · simp at read

theorem read_append {before text : List Char} {tree : Tree} (blank : Blank before)
    (denotes : Denotes text (.value tree)) (asks : Asks tree filename) (rest : List Char) :
    Request.read (before ++ (text ++ rest)) = .ok (⟨filename⟩, rest) := by
  have ofArray {trees : List Tree} (denotes : Denotes text (.value (.array trees)))
      (asks : Asks (.array trees) filename) :
      Request.read (before ++ (text ++ rest)) = .ok (⟨filename⟩, rest) := by
    obtain ⟨inner, rfl, -⟩ := denotes_array_iff.mp denotes
    have arrayRead := readArray_eq_ok_iff.mpr ⟨inner, trees, (rfl : inner ++ ']' :: rest = _),
      denotes, asks⟩
    simp [Request.read, dropBlanks_append blank, dropBlanks_cons, isBlank, arrayRead]
  have ofObject {members : List (List Nat × Tree)}
      (denotes : Denotes text (.value (.object members)))
      (asks : Asks (.object members) filename) :
      Request.read (before ++ (text ++ rest)) = .ok (⟨filename⟩, rest) := by
    obtain ⟨inner, rfl, -⟩ := denotes_object_iff.mp denotes
    obtain ⟨last, takes, rfl⟩ := asks_object_iff.mp asks
    have objectRead := readObject_eq_ok_iff.mpr ⟨inner, members, (rfl : inner ++ '}' :: rest = _),
      denotes, takes⟩
    simp [Request.read, dropBlanks_append blank, dropBlanks_cons, isBlank, objectRead]
  cases asks with
  | unnamed keys noFile => exact ofObject denotes (.unnamed keys noFile)
  | named keys single names => exact ofObject denotes (.named keys single names)
  | nothing => exact ofArray denotes .nothing
  | alone names => exact ofArray denotes (.alone names)

theorem ofJson_eq_ok_iff {text : String} : ofJson text = .ok ⟨filename⟩ ↔
    ∃ tree, IsText text.toList tree ∧ Asks tree filename := by
  constructor
  · intro read
    unfold ofJson at read
    split at read
    · simp at read
    · next request rest requestRead =>
        split at read
        · next ends =>
            obtain rfl := Except.ok.inj read
            obtain ⟨before, inner, tree, same, blank, denotes, asks⟩ := exists_of_read requestRead
            exact ⟨tree, ⟨before, inner, rest, same, blank, denotes,
              blank_of_dropBlanks (List.isEmpty_iff.mp ends)⟩, asks⟩
        · simp at read
  · rintro ⟨tree, ⟨before, inner, after, same, blank, denotes, blankAfter⟩, asks⟩
    simp [ofJson, same, read_append blank denotes asks, dropBlanks_of_blank blankAfter]

/-- What the value of a text asks for is all that its request can be. -/
theorem ofJson_eq_ok_iff_of_isText {text : String} {tree : Tree}
    (isText : IsText text.toList tree) :
    ofJson text = .ok ⟨filename⟩ ↔ Asks tree filename := by
  rw [ofJson_eq_ok_iff]
  constructor
  · rintro ⟨other, isTextToo, asks⟩
    rwa [isText.unique isTextToo]
  · exact fun asks => ⟨tree, isText, asks⟩

theorem Asks.of_filenames {members membersToo : List (List Nat × Tree)}
    (asks : Asks (.object members) filename) (keysToo : TextKeys membersToo)
    (same : filenames members = filenames membersToo) : Asks (.object membersToo) filename := by
  cases asks with
  | unnamed keys noFile => exact .unnamed keysToo (same ▸ noFile)
  | named keys single names => exact .named keysToo (same ▸ single) names

theorem not_asks_of_two {members : List (List Nat × Tree)} (two : 2 ≤ (filenames members).length) :
    ¬ Asks (.object members) filename := by
  intro asks
  cases asks with
  | unnamed keys noFile =>
      rw [noFile] at two
      exact absurd two (by decide)
  | named keys single names =>
      rw [single, List.length_singleton] at two
      exact absurd two (by decide)

theorem toOption_eq_some_iff {ε α : Type} {result : Except ε α} {value : α} :
    result.toOption = some value ↔ result = .ok value := by
  cases result <;> simp [Except.toOption]

/-- **The language of requests.** A text is a request exactly if it is JSON for a value that
asks for settings, and then it is for the file that the value asks for. So members with other
keys may be put in, taken out and moved about, and no object may name its file twice. -/
theorem ofJson_language :
    (∀ (text : String) (filename : Option Path), ofJson text = .ok ⟨filename⟩ ↔
      ∃ tree, IsText text.toList tree ∧ Asks tree filename) ∧
    (∀ (text textToo : String) (members membersToo : List (List Nat × Tree)),
      IsText text.toList (.object members) → IsText textToo.toList (.object membersToo) →
      TextKeys members → TextKeys membersToo → filenames members = filenames membersToo →
      (ofJson text).toOption = (ofJson textToo).toOption) ∧
    ∀ (text : String) (members : List (List Nat × Tree)), IsText text.toList (.object members) →
      2 ≤ (filenames members).length → (ofJson text).toOption = none := by
  refine ⟨fun text filename => ofJson_eq_ok_iff, ?_, ?_⟩
  · intro text textToo members membersToo isText isTextToo keys keysToo same
    refine Option.ext fun request => ?_
    rw [toOption_eq_some_iff, toOption_eq_some_iff, ofJson_eq_ok_iff_of_isText isText,
      ofJson_eq_ok_iff_of_isText isTextToo]
    exact ⟨fun asks => asks.of_filenames keysToo same, fun asks => asks.of_filenames keys same.symm⟩
  · intro text members isText two
    refine Option.eq_none_iff_forall_ne_some.mpr fun request accepted => ?_
    exact not_asks_of_two two
      ((ofJson_eq_ok_iff_of_isText isText).mp (toOption_eq_some_iff.mp accepted))

/-- A second member is passed over if it is any other, and refused if it is not. -/
theorem ofJson_second_member :
    (ofJson "\x7b\"file\":[],\"filename\":null\x7d").toOption =
      (ofJson "\x7b\"filename\":null\x7d").toOption ∧
    (ofJson "\x7b\"filename\":null,\"filename\":null\x7d").toOption = none := by
  obtain ⟨-, others, twice⟩ := ofJson_language
  have key (name : List Char) (plain : name.flatMap escapeChar = name) :
      IsKey ('"' :: (name ++ ['"', ':'])) (units name) := by
    have spells := spells_flatMap_escapeChar name
    rw [plain] at spells
    exact .key blank_nil spells blank_nil
  have last : Denotes ('"' :: (filenameKey ++ ['"', ':', 'n', 'u', 'l', 'l']))
      (.members [(units filenameKey, .null)]) := by
    simpa using Denotes.lastMember (key filenameKey rfl) blank_nil .nullWord blank_nil
  have one : IsText "\x7b\"filename\":null\x7d".toList (.object [(units filenameKey, .null)]) :=
    ⟨[], _, [], rfl, blank_nil, .object last, blank_nil⟩
  have other : IsText "\x7b\"file\":[],\"filename\":null\x7d".toList
      (.object [(units "file".toList, .array []), (units filenameKey, .null)]) :=
    ⟨[], _, [], rfl, blank_nil, .object (.member (key "file".toList rfl) blank_nil
      (.noItems blank_nil) blank_nil last), blank_nil⟩
  have two : IsText "\x7b\"filename\":null,\"filename\":null\x7d".toList
      (.object [(units filenameKey, .null), (units filenameKey, .null)]) :=
    ⟨[], _, [], rfl, blank_nil, .object (.member (key filenameKey rfl) blank_nil
      .nullWord blank_nil last), blank_nil⟩
  refine ⟨others _ _ _ _ other one ?_ ?_ rfl, twice _ _ two (by decide)⟩
  · simpa [TextKeys] using ⟨⟨"file", rfl⟩, ⟨"filename", rfl⟩⟩
  · simpa [TextKeys] using ⟨"filename", rfl⟩

end EditorFlags.Request
