import EditorFlags.Proofs.Json.Literal
import EditorFlags.Proofs.Json.Number

/-!
# Passing over values

The walk over a value takes a text apart that the grammar puts together. In one direction a
text that denotes a value is passed over as a whole, in whatever containers it stands
(`Denotes.passed`). In the other one, what has been passed over from some place on closes
all containers that are open there (`Closes`), which each step of the walk keeps true.
-/

namespace EditorFlags.Json

variable {input left text : List Char} {tree : Tree}

/-! ## Between values -/

theorem isBlank_iff {c : Char} :
    isBlank c = true ↔ c = ' ' ∨ c = '\t' ∨ c = '\n' ∨ c = '\r' := by
  simp [isBlank, or_assoc]

theorem blank_of_all {chars : List Char} (all : chars.all isBlank = true) : Blank chars :=
  fun c member => isBlank_iff.mp (List.all_eq_true.mp all c member)

theorem blank_nil : Blank [] :=
  fun _ member => nomatch member

theorem dropBlanks_append {blanks : List Char} (blank : Blank blanks) (rest : List Char) :
    dropBlanks (blanks ++ rest) = dropBlanks rest :=
  List.dropWhile_append_of_pos fun c member => isBlank_iff.mpr (blank c member)

theorem dropBlanks_cons {c : Char} (visible : isBlank c = false) (rest : List Char) :
    dropBlanks (c :: rest) = c :: rest :=
  List.dropWhile_cons_of_neg (by simp [visible])

theorem exists_blank (input : List Char) :
    ∃ blanks, input = blanks ++ dropBlanks input ∧ Blank blanks :=
  ⟨input.takeWhile isBlank, List.takeWhile_append_dropWhile.symm,
    fun _ member => isBlank_iff.mp (List.mem_takeWhile_imp member)⟩

theorem blank_of_dropBlanks (nothing : dropBlanks input = []) : Blank input := by
  obtain ⟨blanks, same, blank⟩ := exists_blank input
  rw [nothing, List.append_nil] at same
  exact same ▸ blank

theorem dropBlanks_of_blank (blank : Blank input) : dropBlanks input = [] := by
  have whole := dropBlanks_append blank []
  rwa [List.append_nil] at whole

theorem exists_of_dropBlanks {c : Char} {rest : List Char} (found : dropBlanks input = c :: rest) :
    ∃ blanks, input = blanks ++ c :: rest ∧ Blank blanks := by
  obtain ⟨blanks, same, blank⟩ := exists_blank input
  exact ⟨blanks, found ▸ same, blank⟩

theorem skipLetters_eq_ok_iff {letters : List Char} :
    skipLetters letters input = .ok left ↔ input = letters ++ left := by
  fun_induction skipLetters letters input with
  | case1 => simp
  | case2 => simp
  | case3 letter letters rest ih => simp [ih]
  | case4 letter letters c rest other => simp [other]

theorem skipColon_eq_ok_iff :
    skipColon input = .ok left ↔ ∃ blanks, input = blanks ++ ':' :: left ∧ Blank blanks := by
  constructor
  · intro passed
    unfold skipColon at passed
    split at passed
    · simp at passed
    · next found =>
        obtain rfl := Except.ok.inj passed
        exact exists_of_dropBlanks found
    · simp at passed
  · rintro ⟨blanks, rfl, blank⟩
    simp [skipColon, dropBlanks_append blank, dropBlanks_cons, isBlank]

theorem skipKey_eq_ok_iff :
    skipKey input = .ok left ↔ ∃ key name, input = key ++ left ∧ IsKey key name := by
  constructor
  · intro passed
    unfold skipKey at passed
    split at passed
    · simp at passed
    · next found =>
        split at passed
        · simp at passed
        · next literalPassed =>
            obtain ⟨before, rfl, blank⟩ := exists_of_dropBlanks found
            obtain ⟨body, name, rfl, spells⟩ := skip_eq_ok_iff.mp literalPassed
            obtain ⟨after, rfl, blankToo⟩ := skipColon_eq_ok_iff.mp passed
            exact ⟨_, name, by simp, .key blank spells blankToo⟩
    · simp at passed
  · rintro ⟨key, name, rfl, isKey⟩
    cases isKey with
    | @key before body after name blank spells blankToo =>
        have colonPassed : skipColon (after ++ ':' :: left) = .ok left :=
          skipColon_eq_ok_iff.mpr ⟨after, rfl, blankToo⟩
        have literalPassed : skip (body ++ '"' :: (after ++ ':' :: left)) =
            .ok (after ++ ':' :: left) := skip_eq_ok_iff.mpr ⟨body, name, rfl, spells⟩
        simp [skipKey, dropBlanks_append blank, dropBlanks_cons, isBlank, literalPassed,
          colonPassed]

/-! ## Values are passed over -/

/-- What may come after a value: nothing, a blank, a comma or a closing bracket. -/
def Closed (rest : List Char) : Prop :=
  ∀ c ∈ rest.head?, isBlank c = true ∨ c = ',' ∨ c = ']' ∨ c = '}'

theorem Closed.noNumber {rest : List Char} (closed : Closed rest) : NoNumber rest := by
  intro c first
  rcases closed c first with blank | rfl | rfl | rfl
  · rcases isBlank_iff.mp blank with rfl | rfl | rfl | rfl <;> decide
  all_goals decide

theorem closed_append {blanks rest : List Char} (blank : Blank blanks) (closed : Closed rest) :
    Closed (blanks ++ rest) := by
  cases blanks with
  | nil => exact closed
  | cons c blanks =>
      intro first same
      obtain rfl := Option.some.inj same
      exact .inl (isBlank_iff.mpr (blank c List.mem_cons_self))

theorem closed_cons {c : Char} (closing : c = ',' ∨ c = ']' ∨ c = '}') (rest : List Char) :
    Closed (c :: rest) := by
  intro first same
  obtain rfl := Option.some.inj same
  exact .inr closing

theorem closed_comma {blanks : List Char} (blank : Blank blanks) (rest : List Char) :
    Closed (blanks ++ ',' :: rest) :=
  closed_append blank (closed_cons (.inl rfl) rest)

/-- A character with which a number begins is no other that counts. -/
theorem visible_of_starts {first : Char} (starts : first = '-' ∨ first.isDigit = true) :
    isBlank first = false ∧ first ∉ ['[', ']', '{', '"', 'n', 't', 'f'] := by
  constructor
  · rw [Bool.eq_false_iff]
    intro blank
    rcases isBlank_iff.mp blank with rfl | rfl | rfl | rfl <;> simp at starts
  · intro member
    simp only [List.mem_cons, List.not_mem_nil, or_false] at member
    rcases member with rfl | rfl | rfl | rfl | rfl | rfl | rfl <;> simp at starts

/-- A value begins with a character that neither is passed over nor ends anything. -/
theorem Denotes.exists_first (denotes : Denotes text (.value tree)) :
    ∃ first rest, text = first :: rest ∧ isBlank first = false ∧ first ≠ ']' := by
  cases denotes with
  | number spelled =>
      obtain ⟨first, more, rfl, starts⟩ := spelled.exists_first
      obtain ⟨visible, other⟩ := visible_of_starts starts
      exact ⟨first, more, rfl, visible, by simp_all⟩
  | _ => exact ⟨_, _, rfl, by decide, by decide⟩

theorem denotes_array_iff {trees : List Tree} :
    Denotes text (.value (.array trees)) ↔ ∃ inner, text = '[' :: (inner ++ [']']) ∧
      ((Blank inner ∧ trees = []) ∨ Denotes inner (.items trees)) := by
  constructor
  · intro denotes
    cases denotes with
    | noItems blank => exact ⟨_, rfl, .inl ⟨blank, rfl⟩⟩
    | array inside => exact ⟨_, rfl, .inr inside⟩
  · rintro ⟨inner, rfl, ⟨blank, rfl⟩ | inside⟩
    · exact .noItems blank
    · exact .array inside

theorem denotes_object_iff {members : List (List Nat × Tree)} :
    Denotes text (.value (.object members)) ↔ ∃ inner, text = '{' :: (inner ++ ['}']) ∧
      ((Blank inner ∧ members = []) ∨ Denotes inner (.members members)) := by
  constructor
  · intro denotes
    cases denotes with
    | noMembers blank => exact ⟨_, rfl, .inl ⟨blank, rfl⟩⟩
    | object inside => exact ⟨_, rfl, .inr inside⟩
  · rintro ⟨inner, rfl, ⟨blank, rfl⟩ | inside⟩
    · exact .noMembers blank
    · exact .object inside

theorem exists_first_items {trees : List Tree} (denotes : Denotes text (.items trees))
    (rest : List Char) : ∃ first more, dropBlanks (text ++ rest) = first :: more ∧ first ≠ ']' := by
  cases denotes with
  | @lastItem before text after tree blank item =>
      obtain ⟨first, more, rfl, visible, noEnd⟩ := item.exists_first
      refine ⟨first, more ++ (after ++ rest), ?_, noEnd⟩
      simp [dropBlanks_append blank, dropBlanks_cons visible]
  | @item before text after later tree trees blank item =>
      obtain ⟨first, more, rfl, visible, noEnd⟩ := item.exists_first
      refine ⟨first, more ++ (after ++ ',' :: (later ++ rest)), ?_, noEnd⟩
      simp [dropBlanks_append blank, dropBlanks_cons visible]

theorem IsKey.exists_quote {key : List Char} {name : List Nat} (isKey : IsKey key name)
    (rest : List Char) : ∃ more, dropBlanks (key ++ rest) = '"' :: more := by
  cases isKey with
  | key blank spells blankToo =>
      rw [List.append_assoc, dropBlanks_append blank]
      exact ⟨_, dropBlanks_cons rfl _⟩

theorem dropBlanks_members {members : List (List Nat × Tree)}
    (denotes : Denotes text (.members members)) (rest : List Char) :
    ∃ more, dropBlanks (text ++ rest) = '"' :: more := by
  cases denotes with
  | lastMember isKey =>
      rw [List.append_assoc]
      exact isKey.exists_quote _
  | member isKey =>
      rw [List.append_assoc]
      exact isKey.exists_quote _

theorem skipFrom_before {containers : List Container} {next : Place}
    (step : enter containers input = .ok (next, left)) :
    skipFrom (.before containers) input = skipFrom next left := by
  rw [skipFrom]
  split <;> simp_all

theorem skipFrom_after {container : Container} {outer : List Container} {next : Place}
    (step : leave container outer input = .ok (next, left)) :
    skipFrom (.after (container :: outer)) input = skipFrom next left := by
  rw [skipFrom]
  split <;> simp_all

@[simp] theorem skipFrom_done (input : List Char) : skipFrom (.after []) input = .ok input := by
  rw [skipFrom]

/-- How a text is passed over, by what it denotes. The key of a member is passed over in the
step before its value. -/
def Part.Passed (text : List Char) : Part → Prop
  | .value _ => ∀ containers before rest, Blank before → Closed rest →
      skipFrom (.before containers) (before ++ (text ++ rest)) = skipFrom (.after containers) rest
  | .items _ => ∀ containers rest,
      skipFrom (.before (.array :: containers)) (text ++ ']' :: rest) =
        skipFrom (.after containers) rest
  | .members _ => ∀ containers rest, ∃ left,
      skipKey (text ++ '}' :: rest) = .ok left ∧
        skipFrom (.before (.object :: containers)) left = skipFrom (.after containers) rest

theorem enter_scalar {containers : List Container} {before rest : List Char} (blank : Blank before)
    {first : Char} {more : List Char} (begins : text = first :: more)
    (visible : isBlank first = false) (noArray : first ≠ '[') (noObject : first ≠ '{')
    (passed : skipScalar (text ++ rest) = .ok rest) :
    enter containers (before ++ (text ++ rest)) = .ok (.after containers, rest) := by
  subst begins
  rw [List.cons_append] at passed ⊢
  unfold enter
  rw [dropBlanks_append blank, dropBlanks_cons visible]
  split
  · next same => exact absurd (List.cons.inj same).1 noArray
  · next same => exact absurd (List.cons.inj same).1 noObject
  · rw [passed]

theorem skipScalar_number {spelling rest : List Char} (isNumber : IsNumber spelling)
    (closed : Closed rest) : skipScalar (spelling ++ rest) = .ok rest := by
  obtain ⟨first, more, rfl, starts⟩ := isNumber.exists_first
  obtain ⟨numeral, done⟩ := Numeral.read_of_isNumber isNumber closed.noNumber
  have passed : skipNumber (first :: more ++ rest) = .ok rest := by rw [skipNumber, done]
  obtain ⟨-, other⟩ := visible_of_starts starts
  simp only [List.mem_cons, List.not_mem_nil, or_false, not_or] at other
  rw [List.cons_append] at passed ⊢
  simp [skipScalar, other, starts, passed]

/-- **What denotes something is passed over.** -/
theorem Denotes.passed {part : Part} (denotes : Denotes text part) : part.Passed text := by
  induction denotes with
  | nullWord =>
      intro containers before rest blank closed
      exact skipFrom_before (enter_scalar blank rfl rfl (by decide) (by decide) rfl)
  | trueWord =>
      intro containers before rest blank closed
      exact skipFrom_before (enter_scalar blank rfl rfl (by decide) (by decide) rfl)
  | falseWord =>
      intro containers before rest blank closed
      exact skipFrom_before (enter_scalar blank rfl rfl (by decide) (by decide) rfl)
  | number spelled =>
      intro containers before rest blank closed
      obtain ⟨first, more, begins, starts⟩ := spelled.exists_first
      obtain ⟨visible, other⟩ := visible_of_starts starts
      simp only [List.mem_cons, List.not_mem_nil, or_false, not_or] at other
      exact skipFrom_before (enter_scalar blank begins visible other.1 other.2.2.1
        (skipScalar_number spelled closed))
  | string spells =>
      intro containers before rest blank closed
      refine skipFrom_before (enter_scalar blank rfl rfl (by decide) (by decide) ?_)
      rw [List.cons_append, List.append_assoc]
      exact skip_eq_ok_iff.mpr ⟨_, _, rfl, spells⟩
  | @noItems blanks blank =>
      intro containers before rest blankBefore closed
      refine skipFrom_before ?_
      simp [enter, dropBlanks_append blankBefore, dropBlanks_cons, isBlank, dropBlanks_append blank]
  | @array inner trees inside ih =>
      intro containers before rest blankBefore closed
      obtain ⟨first, more, begins, noEnd⟩ := exists_first_items inside (']' :: rest)
      have opens : enter containers (before ++ ('[' :: (inner ++ [']']) ++ rest)) =
          .ok (.before (.array :: containers), inner ++ ']' :: rest) := by
        simp [enter, dropBlanks_append blankBefore, dropBlanks_cons, isBlank, begins, noEnd]
      rw [skipFrom_before opens, ih containers rest]
  | @noMembers blanks blank =>
      intro containers before rest blankBefore closed
      refine skipFrom_before ?_
      simp [enter, dropBlanks_append blankBefore, dropBlanks_cons, isBlank, dropBlanks_append blank]
  | @object inner members inside ih =>
      intro containers before rest blankBefore closed
      obtain ⟨more, begins⟩ := dropBlanks_members inside ('}' :: rest)
      obtain ⟨left, keyPassed, othersPassed⟩ := ih containers rest
      have opens : enter containers (before ++ ('{' :: (inner ++ ['}']) ++ rest)) =
          .ok (.before (.object :: containers), left) := by
        simp [enter, dropBlanks_append blankBefore, dropBlanks_cons, isBlank, begins, keyPassed]
      rw [skipFrom_before opens, othersPassed]
  | @lastItem before text after tree blank item blankToo ih =>
      intro containers rest
      have ends : leave .array containers (after ++ ']' :: rest) =
          .ok (.after containers, rest) := by
        simp [leave, dropBlanks_append blankToo, dropBlanks_cons, isBlank]
      have closed := closed_append blankToo (closed_cons (.inr (.inl rfl)) rest)
      simp only [List.append_assoc]
      rw [ih _ before _ blank closed, skipFrom_after ends]
  | @item before text after more tree trees blank item blankToo others ih ihOthers =>
      intro containers rest
      have goesOn : leave .array containers (after ++ ',' :: (more ++ ']' :: rest)) =
          .ok (.before (.array :: containers), more ++ ']' :: rest) := by
        simp [leave, dropBlanks_append blankToo, dropBlanks_cons, isBlank]
      have closed := closed_comma blankToo (more ++ ']' :: rest)
      simp only [List.append_assoc, List.cons_append]
      rw [ih _ before _ blank closed, skipFrom_after goesOn, ihOthers containers rest]
  | @lastMember key before text after name tree isKey blank item blankToo ih =>
      intro containers rest
      have ends : leave .object containers (after ++ '}' :: rest) =
          .ok (.after containers, rest) := by
        simp [leave, dropBlanks_append blankToo, dropBlanks_cons, isBlank]
      have closed := closed_append blankToo (closed_cons (.inr (.inr rfl)) rest)
      simp only [List.append_assoc]
      refine ⟨_, skipKey_eq_ok_iff.mpr ⟨key, name, rfl, isKey⟩, ?_⟩
      rw [ih _ before _ blank closed, skipFrom_after ends]
  | @member key before text after more name tree members isKey blank item blankToo others ih
      ihOthers =>
      intro containers rest
      obtain ⟨left, keyPassed, othersPassed⟩ := ihOthers containers rest
      have goesOn : leave .object containers (after ++ ',' :: (more ++ '}' :: rest)) =
          .ok (.before (.object :: containers), left) := by
        simp [leave, dropBlanks_append blankToo, dropBlanks_cons, isBlank, keyPassed]
      have closed := closed_comma blankToo (more ++ '}' :: rest)
      simp only [List.append_assoc, List.cons_append]
      refine ⟨_, skipKey_eq_ok_iff.mpr ⟨key, name, rfl, isKey⟩, ?_⟩
      rw [ih _ before _ blank closed, skipFrom_after goesOn, othersPassed]

/-! ## What is passed over is a value -/

/-- What may come after an item up to the closing bracket, and the items in it. -/
inductive ItemsTail : List Char → List Tree → Prop where
  | ending {blanks : List Char} (blank : Blank blanks) : ItemsTail (blanks ++ [']']) []
  | more {blanks inner : List Char} {trees : List Tree} (blank : Blank blanks)
      (items : Denotes inner (.items trees)) : ItemsTail (blanks ++ ',' :: (inner ++ [']'])) trees

/-- What may come after a member up to the closing brace, and the members in it. -/
inductive MembersTail : List Char → List (List Nat × Tree) → Prop where
  | ending {blanks : List Char} (blank : Blank blanks) : MembersTail (blanks ++ ['}']) []
  | more {blanks inner : List Char} {members : List (List Nat × Tree)} (blank : Blank blanks)
      (denotes : Denotes inner (.members members)) :
      MembersTail (blanks ++ ',' :: (inner ++ ['}'])) members

/-- What closes all that is open at a place. -/
inductive Closes : Place → List Char → Prop where
  | done : Closes (.after []) []
  | items {outer : List Container} {chars more : List Char} {trees : List Tree}
      (tail : ItemsTail chars trees) (closes : Closes (.after outer) more) :
      Closes (.after (.array :: outer)) (chars ++ more)
  | members {outer : List Container} {chars more : List Char} {members : List (List Nat × Tree)}
      (tail : MembersTail chars members) (closes : Closes (.after outer) more) :
      Closes (.after (.object :: outer)) (chars ++ more)
  | value {containers : List Container} {blanks inner more : List Char} {tree : Tree}
      (blank : Blank blanks) (denotes : Denotes inner (.value tree))
      (closes : Closes (.after containers) more) :
      Closes (.before containers) (blanks ++ (inner ++ more))

section
variable {blanks inner chars : List Char}

theorem exists_items_of_tail {trees : List Tree} (blank : Blank blanks)
    (denotes : Denotes inner (.value tree)) (tail : ItemsTail chars trees) :
    ∃ items, blanks ++ (inner ++ chars) = items ++ [']'] ∧
      Denotes items (.items (tree :: trees)) := by
  cases tail with
  | ending blankToo => exact ⟨_, by simp, .lastItem blank denotes blankToo⟩
  | more blankToo items => exact ⟨_, by simp, .item blank denotes blankToo items⟩

theorem exists_members_of_tail {key : List Char} {name : List Nat}
    {members : List (List Nat × Tree)} (isKey : IsKey key name) (blank : Blank blanks)
    (denotes : Denotes inner (.value tree)) (tail : MembersTail chars members) :
    ∃ others, key ++ (blanks ++ (inner ++ chars)) = others ++ ['}'] ∧
      Denotes others (.members ((name, tree) :: members)) := by
  cases tail with
  | ending blankToo => exact ⟨_, by simp, .lastMember isKey blank denotes blankToo⟩
  | more blankToo others => exact ⟨_, by simp, .member isKey blank denotes blankToo others⟩

end

/-- From before an item on, the items that are left come first, up to the closing bracket. -/
theorem Closes.exists_items {outer : List Container}
    (closes : Closes (.before (.array :: outer)) text) :
    ∃ items trees more, text = items ++ ']' :: more ∧ Denotes items (.items trees) ∧
      Closes (.after outer) more := by
  cases closes with
  | @value _ blanks inner _ tree blank denotes closes =>
      cases closes with
      | @items _ chars more trees tail closes =>
          obtain ⟨items, same, inside⟩ := exists_items_of_tail blank denotes tail
          refine ⟨items, _, more, ?_, inside, closes⟩
          rw [List.append_cons, ← same]
          simp

/-- From behind a key on, the members that are left come first, up to the closing brace. -/
theorem Closes.exists_members {outer : List Container} {key : List Char} {name : List Nat}
    (isKey : IsKey key name) (closes : Closes (.before (.object :: outer)) text) :
    ∃ inner members more, key ++ text = inner ++ '}' :: more ∧
      Denotes inner (.members members) ∧ Closes (.after outer) more := by
  cases closes with
  | @value _ blanks inner _ tree blank denotes closes =>
      cases closes with
      | @members _ chars more members tail closes =>
          obtain ⟨others, same, inside⟩ := exists_members_of_tail isKey blank denotes tail
          refine ⟨others, _, more, ?_, inside, closes⟩
          rw [List.append_cons, ← same]
          simp

theorem denotes_of_skipScalar (passed : skipScalar input = .ok left) :
    ∃ text tree, input = text ++ left ∧ Denotes text (.value tree) := by
  unfold skipScalar at passed
  split at passed
  · simp at passed
  · obtain ⟨body, units, rfl, spells⟩ := skip_eq_ok_iff.mp passed
    exact ⟨_, _, by simp, .string spells⟩
  · obtain rfl := skipLetters_eq_ok_iff.mp passed
    exact ⟨_, _, rfl, .nullWord⟩
  · obtain rfl := skipLetters_eq_ok_iff.mp passed
    exact ⟨_, _, rfl, .trueWord⟩
  · obtain rfl := skipLetters_eq_ok_iff.mp passed
    exact ⟨_, _, rfl, .falseWord⟩
  · split_ifs at passed
    unfold skipNumber at passed
    split at passed
    · simp at passed
    · next done =>
        obtain rfl := Except.ok.inj passed
        obtain ⟨spelling, same, isNumber⟩ := Numeral.isNumber_of_read done
        exact ⟨spelling, _, same, .number isNumber⟩

/-- What a step before a value has passed over goes with what closes all else. -/
theorem closes_of_enter {containers : List Container} {next : Place}
    (step : enter containers input = .ok (next, left)) :
    ∃ passed, input = passed ++ left ∧
      ∀ text, Closes next text → Closes (.before containers) (passed ++ text) := by
  unfold enter at step
  split at step
  · next rest found =>
      obtain ⟨blanks, rfl, blank⟩ := exists_of_dropBlanks found
      split at step
      · next ending =>
          simp only [Except.ok.injEq, Prod.mk.injEq] at step
          obtain ⟨rfl, rfl⟩ := step
          obtain ⟨blanksToo, rfl, blankToo⟩ := exists_of_dropBlanks ending
          refine ⟨blanks ++ '[' :: (blanksToo ++ [']']), by simp, fun text closes => ?_⟩
          simpa using Closes.value blank (.noItems blankToo) closes
      · simp only [Except.ok.injEq, Prod.mk.injEq] at step
        obtain ⟨rfl, rfl⟩ := step
        refine ⟨blanks ++ ['['], by simp, fun text closes => ?_⟩
        obtain ⟨items, trees, more, rfl, inside, closes⟩ := closes.exists_items
        simpa using Closes.value blank (.array inside) closes
  · next rest found =>
      obtain ⟨blanks, rfl, blank⟩ := exists_of_dropBlanks found
      split at step
      · next ending =>
          simp only [Except.ok.injEq, Prod.mk.injEq] at step
          obtain ⟨rfl, rfl⟩ := step
          obtain ⟨blanksToo, rfl, blankToo⟩ := exists_of_dropBlanks ending
          refine ⟨blanks ++ '{' :: (blanksToo ++ ['}']), by simp, fun text closes => ?_⟩
          simpa using Closes.value blank (.noMembers blankToo) closes
      · split at step
        · simp at step
        · next keyPassed =>
            simp only [Except.ok.injEq, Prod.mk.injEq] at step
            obtain ⟨rfl, rfl⟩ := step
            obtain ⟨key, name, rfl, isKey⟩ := skipKey_eq_ok_iff.mp keyPassed
            refine ⟨blanks ++ '{' :: key, by simp, fun text closes => ?_⟩
            obtain ⟨inner, members, more, same, inside, closes⟩ := closes.exists_members isKey
            simpa [same] using Closes.value blank (.object inside) closes
  · next other found =>
      split at step
      · simp at step
      · next scalarPassed =>
          simp only [Except.ok.injEq, Prod.mk.injEq] at step
          obtain ⟨rfl, rfl⟩ := step
          obtain ⟨blanks, same, blank⟩ := exists_blank input
          obtain ⟨text, tree, scalar, denotes⟩ := denotes_of_skipScalar scalarPassed
          rw [scalar] at same
          refine ⟨blanks ++ text, by rw [same, List.append_assoc], fun text closes => ?_⟩
          rw [List.append_assoc]
          exact .value blank denotes closes

/-- What a step after a value has passed over does too. -/
theorem closes_of_leave {container : Container} {outer : List Container} {next : Place}
    (step : leave container outer input = .ok (next, left)) :
    ∃ passed, input = passed ++ left ∧
      ∀ text, Closes next text → Closes (.after (container :: outer)) (passed ++ text) := by
  unfold leave at step
  split at step
  · simp at step
  · next found =>
      simp only [Except.ok.injEq, Prod.mk.injEq] at step
      obtain ⟨rfl, rfl⟩ := step
      obtain ⟨blanks, rfl, blank⟩ := exists_of_dropBlanks found
      refine ⟨blanks ++ [','], by simp, fun text closes => ?_⟩
      obtain ⟨items, trees, more, rfl, inside, closes⟩ := closes.exists_items
      simpa using Closes.items (.more blank inside) closes
  · next found =>
      simp only [Except.ok.injEq, Prod.mk.injEq] at step
      obtain ⟨rfl, rfl⟩ := step
      obtain ⟨blanks, rfl, blank⟩ := exists_of_dropBlanks found
      exact ⟨blanks ++ [']'], by simp, fun text closes => .items (.ending blank) closes⟩
  · next found =>
      split at step
      · simp at step
      · next keyPassed =>
          simp only [Except.ok.injEq, Prod.mk.injEq] at step
          obtain ⟨rfl, rfl⟩ := step
          obtain ⟨blanks, rfl, blank⟩ := exists_of_dropBlanks found
          obtain ⟨key, name, rfl, isKey⟩ := skipKey_eq_ok_iff.mp keyPassed
          refine ⟨blanks ++ ',' :: key, by simp, fun text closes => ?_⟩
          obtain ⟨inner, members, more, same, inside, closes⟩ := closes.exists_members isKey
          simpa [same] using Closes.members (.more blank inside) closes
  · next found =>
      simp only [Except.ok.injEq, Prod.mk.injEq] at step
      obtain ⟨rfl, rfl⟩ := step
      obtain ⟨blanks, rfl, blank⟩ := exists_of_dropBlanks found
      exact ⟨blanks ++ ['}'], by simp, fun text closes => .members (.ending blank) closes⟩
  · simp at step

/-- A walk that ends has closed all that was open. -/
theorem closes_of_skipFrom {place : Place} (passed : skipFrom place input = .ok left) :
    ∃ text, input = text ++ left ∧ Closes place text := by
  fun_induction skipFrom place input with
  | case1 input =>
      obtain rfl := Except.ok.inj passed
      exact ⟨[], rfl, .done⟩
  | case2 => simp at passed
  | case3 input containers next middle step ih =>
      obtain ⟨first, rfl, goesOn⟩ := closes_of_enter step
      obtain ⟨text, rfl, closes⟩ := ih passed
      exact ⟨first ++ text, (List.append_assoc ..).symm, goesOn text closes⟩
  | case4 => simp at passed
  | case5 input container outer next middle step ih =>
      obtain ⟨first, rfl, goesOn⟩ := closes_of_leave step
      obtain ⟨text, rfl, closes⟩ := ih passed
      exact ⟨first ++ text, (List.append_assoc ..).symm, goesOn text closes⟩

/-! ## Single values -/

theorem skipValue_append {before rest : List Char} (blank : Blank before)
    (denotes : Denotes text (.value tree)) (closed : Closed rest) :
    skipValue (before ++ (text ++ rest)) = .ok rest := by
  rw [skipValue, denotes.passed [] before rest blank closed, skipFrom_done]

theorem exists_of_skipValue (passed : skipValue input = .ok left) :
    ∃ before text tree, input = before ++ (text ++ left) ∧ Blank before ∧
      Denotes text (.value tree) := by
  obtain ⟨text, rfl, closes⟩ := closes_of_skipFrom passed
  cases closes with
  | value blank denotes closes =>
      cases closes with
      | done => exact ⟨_, _, _, by simp, blank, denotes⟩

end EditorFlags.Json
