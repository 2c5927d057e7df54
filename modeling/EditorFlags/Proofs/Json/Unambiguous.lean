import EditorFlags.Proofs.Json.Value

/-!
# A text denotes one value

The first character of a value tells what kind it is of, and how far it goes is told by
passing over it (`append_inj_of_value`). So no text can be taken apart in two ways, and what
it denotes is settled (`IsText.unique`).
-/

namespace EditorFlags.Json

/-! ## Literals and keys -/

theorem IsEscape.append_inj {escaped others body rest : List Char} {us vs : List Nat}
    (escapes : IsEscape escaped us) (escapesToo : IsEscape others vs)
    (same : escaped ++ body = others ++ rest) : us = vs ∧ body = rest := by
  have notShort {c : Char} : ('u', c) ∉ shortEscapes := fun known => by
    cases shortEscape?_eq_some_iff.mpr known
  cases escapes with
  | short known =>
      cases escapesToo with
      | short knownToo =>
          obtain ⟨rfl, rfl⟩ := List.cons.inj same
          have char := (shortEscape?_eq_some_iff.mpr known).symm.trans
            (shortEscape?_eq_some_iff.mpr knownToo)
          exact ⟨congrArg unitsOf (Option.some.inj char), rfl⟩
      | unit spelled =>
          obtain ⟨rfl, -⟩ := List.cons.inj same
          exact absurd known notShort
  | unit spelled =>
      cases escapesToo with
      | short known =>
          obtain ⟨rfl, -⟩ := List.cons.inj same
          exact absurd known notShort
      | unit spelledToo =>
          have digits := spelled.hexFour body
          simp only [List.cons_append, List.cons.injEq, true_and] at same
          rw [same, spelledToo.hexFour rest] at digits
          obtain ⟨rfl, rfl⟩ := Prod.mk.inj (Except.ok.inj digits)
          exact ⟨rfl, rfl⟩

theorem Spells.unique {body : List Char} {us vs : List Nat} (spells : Spells body us)
    (spellsToo : Spells body vs) : us = vs := by
  induction spells generalizing vs with
  | nil => cases spellsToo; rfl
  | @plain c body later noQuote noEscape visible rest ih =>
      cases spellsToo with
      | plain _ _ _ restToo => rw [ih restToo]
      | escape => exact absurd rfl noEscape
  | @escape escaped body spelled later escapes rest ih =>
      generalize same : '\\' :: (escaped ++ body) = whole at spellsToo
      cases spellsToo with
      | nil => cases same
      | plain noQuote noEscape => exact absurd (List.cons.inj same).1.symm noEscape
      | escape escapesToo restToo =>
          obtain ⟨rfl, rfl⟩ := escapes.append_inj escapesToo (List.cons.inj same).2
          rw [ih restToo]

theorem IsKey.unique {key : List Char} {us vs : List Nat} (isKey : IsKey key us)
    (isKeyToo : IsKey key vs) : us = vs := by
  cases isKey with
  | @key before body after us blank spells blankAfter =>
      generalize same : before ++ '"' :: (body ++ '"' :: (after ++ [':'])) = whole at isKeyToo
      cases isKeyToo with
      | @key beforeToo bodyToo afterToo vs blankToo spellsToo blankAfterToo =>
          have inside := congrArg dropBlanks same
          rw [dropBlanks_append blank, dropBlanks_append blankToo, dropBlanks_cons rfl,
            dropBlanks_cons rfl, List.cons.injEq] at inside
          have passed : skip (body ++ '"' :: (after ++ [':'])) = .ok (after ++ [':']) :=
            skip_eq_ok_iff.mpr ⟨body, us, rfl, spells⟩
          have bodies := inside.2
          rw [bodies, skip_eq_ok_iff.mpr ⟨bodyToo, vs, rfl, spellsToo⟩] at passed
          rw [Except.ok.inj passed] at bodies
          obtain rfl := List.append_cancel_right bodies
          exact spells.unique spellsToo

/-! ## Values -/

/-- What a value can be that begins with a character. -/
def Tree.Begins (first : Char) (tree : Tree) : Prop :=
  match first with
  | 'n' => tree = .null
  | 't' => tree = .bool true
  | 'f' => tree = .bool false
  | '"' => ∃ units, tree = .string units
  | '[' => ∃ items, tree = .array items
  | '{' => ∃ members, tree = .object members
  | _ => ∃ spelling, tree = .number spelling

theorem Tree.begins_number {first : Char} (starts : first = '-' ∨ first.isDigit = true)
    {tree : Tree} : tree.Begins first ↔ ∃ spelling, tree = .number spelling := by
  obtain ⟨-, other⟩ := visible_of_starts starts
  unfold Tree.Begins
  split <;> simp_all

theorem Denotes.begins {text : List Char} {tree : Tree} (denotes : Denotes text (.value tree))
    {first : Char} {rest : List Char} (same : text = first :: rest) : tree.Begins first := by
  cases denotes with
  | number spelled =>
      obtain ⟨start, more, rfl, starts⟩ := spelled.exists_first
      obtain ⟨rfl, -⟩ := List.cons.inj same
      exact (Tree.begins_number starts).mpr ⟨_, rfl⟩
  | nullWord => obtain ⟨rfl, -⟩ := List.cons.inj same; rfl
  | trueWord => obtain ⟨rfl, -⟩ := List.cons.inj same; rfl
  | falseWord => obtain ⟨rfl, -⟩ := List.cons.inj same; rfl
  | string => obtain ⟨rfl, -⟩ := List.cons.inj same; exact ⟨_, rfl⟩
  | noItems => obtain ⟨rfl, -⟩ := List.cons.inj same; exact ⟨_, rfl⟩
  | array => obtain ⟨rfl, -⟩ := List.cons.inj same; exact ⟨_, rfl⟩
  | noMembers => obtain ⟨rfl, -⟩ := List.cons.inj same; exact ⟨_, rfl⟩
  | object => obtain ⟨rfl, -⟩ := List.cons.inj same; exact ⟨_, rfl⟩

variable {text other before beforeToo rest restToo : List Char}

/-- What follows a value is told by the value. -/
theorem append_inj_of_value {tree treeToo : Tree} (blank : Blank before)
    (blankToo : Blank beforeToo) (denotes : Denotes text (.value tree))
    (denotesToo : Denotes other (.value treeToo)) (closed : Closed rest)
    (closedToo : Closed restToo)
    (same : before ++ (text ++ rest) = beforeToo ++ (other ++ restToo)) :
    text = other ∧ rest = restToo := by
  have passed := skipValue_append blank denotes closed
  rw [same, skipValue_append blankToo denotesToo closedToo] at passed
  obtain rfl := Except.ok.inj passed
  refine ⟨?_, rfl⟩
  simp only [← List.append_assoc] at same
  have inside := congrArg dropBlanks (List.append_cancel_right same)
  obtain ⟨first, more, rfl, visible, -⟩ := denotes.exists_first
  obtain ⟨firstToo, moreToo, rfl, visibleToo, -⟩ := denotesToo.exists_first
  rwa [dropBlanks_append blank, dropBlanks_append blankToo, dropBlanks_cons visible,
    dropBlanks_cons visibleToo] at inside

theorem append_inj_of_key {key keyToo : List Char} {name nameToo : List Nat}
    (isKey : IsKey key name) (isKeyToo : IsKey keyToo nameToo)
    (same : key ++ rest = keyToo ++ restToo) : name = nameToo ∧ rest = restToo := by
  have passed := skipKey_eq_ok_iff.mpr ⟨key, name, (rfl : key ++ rest = key ++ rest), isKey⟩
  rw [same, skipKey_eq_ok_iff.mpr ⟨keyToo, nameToo, rfl, isKeyToo⟩] at passed
  obtain rfl := Except.ok.inj passed
  obtain rfl := List.append_cancel_right same
  exact ⟨isKey.unique isKeyToo, rfl⟩

theorem closed_of_blank (blank : Blank rest) : Closed rest := by
  have nothing : Closed [] := fun c first => by cases first
  simpa using closed_append blank nothing

theorem not_blank_comma : ¬ Blank (before ++ ',' :: rest) := by
  intro blank
  have comma := blank ',' (by simp)
  revert comma
  decide

theorem append_inj_of_comma (blank : Blank before) (blankToo : Blank beforeToo)
    (same : before ++ ',' :: rest = beforeToo ++ ',' :: restToo) : rest = restToo := by
  have inside := congrArg dropBlanks same
  rw [dropBlanks_append blank, dropBlanks_append blankToo, dropBlanks_cons rfl,
    dropBlanks_cons rfl] at inside
  exact (List.cons.inj inside).2

/-! ## Containers -/

/-- That a text denotes nothing else of the same kind. -/
def Part.Unique (text : List Char) : Part → Prop
  | .value tree => ∀ other, Denotes text (.value other) → tree = other
  | .items trees => ∀ others, Denotes text (.items others) → trees = others
  | .members list => ∀ others, Denotes text (.members others) → list = others

theorem not_items_of_blank (blank : Blank text) {trees : List Tree} :
    ¬ Denotes text (.items trees) := by
  intro items
  obtain ⟨first, more, begins, -⟩ := exists_first_items items []
  rw [List.append_nil, dropBlanks_of_blank blank] at begins
  cases begins

theorem not_members_of_blank (blank : Blank text) {members : List (List Nat × Tree)} :
    ¬ Denotes text (.members members) := by
  intro denotes
  obtain ⟨more, begins⟩ := dropBlanks_members denotes []
  rw [List.append_nil, dropBlanks_of_blank blank] at begins
  cases begins

theorem unique_array {inner : List Char} {trees : List Tree}
    (inside : ∀ others, (Blank inner ∧ others = []) ∨ Denotes inner (.items others) →
      trees = others) : (Part.value (.array trees)).Unique ('[' :: (inner ++ [']'])) := by
  intro tree denotes
  obtain ⟨others, rfl⟩ := denotes.begins rfl
  obtain ⟨innerToo, same, found⟩ := denotes_array_iff.mp denotes
  obtain rfl := List.append_cancel_right (List.cons.inj same).2
  rw [inside others found]

theorem unique_object {inner : List Char} {members : List (List Nat × Tree)}
    (inside : ∀ others, (Blank inner ∧ others = []) ∨ Denotes inner (.members others) →
      members = others) : (Part.value (.object members)).Unique ('{' :: (inner ++ ['}'])) := by
  intro tree denotes
  obtain ⟨others, rfl⟩ := denotes.begins rfl
  obtain ⟨innerToo, same, found⟩ := denotes_object_iff.mp denotes
  obtain rfl := List.append_cancel_right (List.cons.inj same).2
  rw [inside others found]

/-- **What a text denotes is settled.** -/
theorem Denotes.unique {part : Part} (denotes : Denotes text part) : part.Unique text := by
  induction denotes with
  | nullWord => exact fun tree denotes => (denotes.begins rfl : tree = .null).symm
  | trueWord => exact fun tree denotes => (denotes.begins rfl : tree = .bool true).symm
  | falseWord => exact fun tree denotes => (denotes.begins rfl : tree = .bool false).symm
  | @number spelling spelled =>
      intro tree denotes
      obtain ⟨first, more, same, starts⟩ := spelled.exists_first
      obtain ⟨others, rfl⟩ := (Tree.begins_number starts).mp (denotes.begins same)
      cases denotes with
      | number => rfl
  | @string body units spells =>
      intro tree denotes
      obtain ⟨others, rfl⟩ := denotes.begins rfl
      generalize same : '"' :: (body ++ ['"']) = whole at denotes
      cases denotes with
      | string spellsToo =>
          obtain rfl := List.append_cancel_right (List.cons.inj same).2
          rw [spells.unique spellsToo]
  | noItems blank =>
      refine unique_array fun others found => ?_
      rcases found with ⟨-, rfl⟩ | items
      · rfl
      · exact absurd items (not_items_of_blank blank)
  | array inside ih =>
      refine unique_array fun others found => ?_
      rcases found with ⟨blank, -⟩ | items
      · exact absurd inside (not_items_of_blank blank)
      · exact ih others items
  | noMembers blank =>
      refine unique_object fun others found => ?_
      rcases found with ⟨-, rfl⟩ | members
      · rfl
      · exact absurd members (not_members_of_blank blank)
  | object inside ih =>
      refine unique_object fun others found => ?_
      rcases found with ⟨blank, -⟩ | members
      · exact absurd inside (not_members_of_blank blank)
      · exact ih others members
  | @lastItem before text after tree blank item blankAfter ih =>
      intro others denotes
      generalize same : before ++ (text ++ after) = whole at denotes
      cases denotes with
      | lastItem blankToo itemToo blankAfterToo =>
          obtain ⟨rfl, -⟩ := append_inj_of_value blank blankToo item itemToo
            (closed_of_blank blankAfter) (closed_of_blank blankAfterToo) same
          rw [ih _ itemToo]
      | item blankToo itemToo blankAfterToo more =>
          -- After the last item there is no comma.
          obtain ⟨-, rfl⟩ := append_inj_of_value blank blankToo item itemToo
            (closed_of_blank blankAfter)
            (closed_comma blankAfterToo _) same
          exact absurd blankAfter not_blank_comma
  | @item before text after rest tree trees blank item blankAfter more ih ihMore =>
      intro others denotes
      generalize same : before ++ (text ++ (after ++ ',' :: rest)) = whole at denotes
      have closed := closed_comma blankAfter rest
      cases denotes with
      | lastItem blankToo itemToo blankAfterToo =>
          obtain ⟨-, rfl⟩ := append_inj_of_value blank blankToo item itemToo closed
            (closed_of_blank blankAfterToo) same
          exact absurd blankAfterToo not_blank_comma
      | item blankToo itemToo blankAfterToo moreToo =>
          obtain ⟨rfl, sameRest⟩ := append_inj_of_value blank blankToo item itemToo closed
            (closed_comma blankAfterToo _) same
          obtain rfl := append_inj_of_comma blankAfter blankAfterToo sameRest
          rw [ih _ itemToo, ihMore _ moreToo]
  | @lastMember key before text after name tree isKey blank item blankAfter ih =>
      intro others denotes
      generalize same : key ++ (before ++ (text ++ after)) = whole at denotes
      cases denotes with
      | lastMember isKeyToo blankToo itemToo blankAfterToo =>
          obtain ⟨rfl, sameValue⟩ := append_inj_of_key isKey isKeyToo same
          obtain ⟨rfl, -⟩ := append_inj_of_value blank blankToo item itemToo
            (closed_of_blank blankAfter) (closed_of_blank blankAfterToo) sameValue
          rw [ih _ itemToo]
      | member isKeyToo blankToo itemToo blankAfterToo more =>
          obtain ⟨rfl, sameValue⟩ := append_inj_of_key isKey isKeyToo same
          obtain ⟨-, rfl⟩ := append_inj_of_value blank blankToo item itemToo
            (closed_of_blank blankAfter)
            (closed_comma blankAfterToo _) sameValue
          exact absurd blankAfter not_blank_comma
  | @member key before text after rest name tree members isKey blank item blankAfter more ih
      ihMore =>
      intro others denotes
      generalize same : key ++ (before ++ (text ++ (after ++ ',' :: rest))) = whole at denotes
      have closed := closed_comma blankAfter rest
      cases denotes with
      | lastMember isKeyToo blankToo itemToo blankAfterToo =>
          obtain ⟨rfl, sameValue⟩ := append_inj_of_key isKey isKeyToo same
          obtain ⟨-, rfl⟩ := append_inj_of_value blank blankToo item itemToo closed
            (closed_of_blank blankAfterToo) sameValue
          exact absurd blankAfterToo not_blank_comma
      | member isKeyToo blankToo itemToo blankAfterToo moreToo =>
          obtain ⟨rfl, sameValue⟩ := append_inj_of_key isKey isKeyToo same
          obtain ⟨rfl, sameRest⟩ := append_inj_of_value blank blankToo item itemToo closed
            (closed_comma blankAfterToo _) sameValue
          obtain rfl := append_inj_of_comma blankAfter blankAfterToo sameRest
          rw [ih _ itemToo, ihMore _ moreToo]

theorem IsText.unique {tree treeToo : Tree} (isText : IsText text tree)
    (isTextToo : IsText text treeToo) : tree = treeToo := by
  obtain ⟨before, inner, after, same, blank, denotes, blankAfter⟩ := isText
  obtain ⟨beforeToo, innerToo, afterToo, rfl, blankToo, denotesToo, blankAfterToo⟩ := isTextToo
  obtain ⟨rfl, -⟩ := append_inj_of_value blankToo blank denotesToo denotes
    (closed_of_blank blankAfterToo) (closed_of_blank blankAfter) same
  exact denotes.unique _ denotesToo

end EditorFlags.Json
