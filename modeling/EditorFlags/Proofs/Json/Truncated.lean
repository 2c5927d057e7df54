import EditorFlags.Proofs.Json.Beginning
import EditorFlags.Proofs.Json.Unambiguous

/-!
# Values that break off

The walk over a text that breaks off finds out when it is at the end of it. What it finds is told
by the grammar: if the text stops inside a number that is none yet (`StopsInNumber`) the walk
takes that for a number that is wrong, and else it knows that there is more to come. Each part of
a text has such beginnings only (`Denotes.beginnings`), and on the way in to where it breaks off,
both kinds are refused by the same steps (`Kind.Fails`).
-/

namespace EditorFlags.Json

open RequestFault

variable {beginning text : List Char}

/-! ## What breaks off inside a number -/

/-- What a beginning is the beginning of: a value, or what stands between the brackets of a
container that is not empty. -/
inductive Kind where
  | value
  | items
  | members

/-- That a beginning stops inside a number that is none yet. -/
inductive StopsInNumber : Kind → List Char → Prop where
  | number {text : List Char} (unfinished : Unfinished text) : StopsInNumber .value text
  | array {inner : List Char} (inside : StopsInNumber .items inner) :
      StopsInNumber .value ('[' :: inner)
  | object {inner : List Char} (inside : StopsInNumber .members inner) :
      StopsInNumber .value ('{' :: inner)
  | item {before text : List Char} (blank : Blank before) (stops : StopsInNumber .value text) :
      StopsInNumber .items (before ++ text)
  | laterItem {before text after rest : List Char} {tree : Tree} (blank : Blank before)
      (item : Denotes text (.value tree)) (blankToo : Blank after)
      (stops : StopsInNumber .items rest) :
      StopsInNumber .items (before ++ (text ++ (after ++ ',' :: rest)))
  | member {key before text : List Char} {name : List Nat} (isKey : IsKey key name)
      (blank : Blank before) (stops : StopsInNumber .value text) :
      StopsInNumber .members (key ++ (before ++ text))
  | laterMember {key before text after rest : List Char} {name : List Nat} {tree : Tree}
      (isKey : IsKey key name) (blank : Blank before) (item : Denotes text (.value tree))
      (blankToo : Blank after) (stops : StopsInNumber .members rest) :
      StopsInNumber .members (key ++ (before ++ (text ++ (after ++ ',' :: rest))))

/-- That the walk over a beginning fails, in whatever containers it stands. The key of a member
is passed over in the step before its value. -/
def Kind.Fails (fault : RequestFault) (beginning : List Char) : Kind → Prop
  | .value => ∀ containers before, Blank before →
      skipFrom (.before containers) (before ++ beginning) = .error fault
  | .items => ∀ containers, skipFrom (.before (.array :: containers)) beginning = .error fault
  | .members => ∀ containers,
      (skipKey beginning).bind (skipFrom (.before (.object :: containers))) = .error fault

/-! ## Steps that fail -/

variable {containers outer : List Container} {container : Container} {input : List Char}
  {fault : RequestFault}

theorem skipFrom_before_error (refused : enter containers input = .error fault) :
    skipFrom (.before containers) input = .error fault := by
  rw [skipFrom]
  split <;> simp_all

theorem skipFrom_after_error (refused : leave container outer input = .error fault) :
    skipFrom (.after (container :: outer)) input = .error fault := by
  rw [skipFrom]
  split <;> simp_all

section
variable {next : Place} {result : Except RequestFault (List Char)}

theorem skipFrom_before_map (step : enter containers input = result.map fun left => (next, left)) :
    skipFrom (.before containers) input = result.bind (skipFrom next) := by
  cases result with
  | error refused => exact skipFrom_before_error step
  | ok left => exact skipFrom_before step

theorem skipFrom_after_map
    (step : leave container outer input = result.map fun left => (next, left)) :
    skipFrom (.after (container :: outer)) input = result.bind (skipFrom next) := by
  cases result with
  | error refused => exact skipFrom_after_error step
  | ok left => exact skipFrom_after step

end

theorem skipFrom_before_blank (blank : Blank input) :
    skipFrom (.before containers) input = .error truncated :=
  skipFrom_before_error (by simp [enter, dropBlanks_of_blank blank, skipScalar])

theorem skipFrom_after_blank (blank : Blank input) :
    skipFrom (.after (container :: outer)) input = .error truncated :=
  skipFrom_after_error (by simp [leave, dropBlanks_of_blank blank])

theorem skipKey_blank (blank : Blank input) : skipKey input = .error truncated := by
  simp [skipKey, dropBlanks_of_blank blank]

theorem enter_scalar_error {before : List Char} (blank : Blank before) {first : Char}
    {more : List Char} (visible : isBlank first = false) (noArray : first ≠ '[')
    (noObject : first ≠ '{') (refused : skipScalar (first :: more) = .error fault) :
    enter containers (before ++ first :: more) = .error fault := by
  unfold enter
  rw [dropBlanks_append blank, dropBlanks_cons visible]
  split
  · next same => exact absurd (List.cons.inj same).1 noArray
  · next same => exact absurd (List.cons.inj same).1 noObject
  · rw [refused]

theorem enter_array {before inner : List Char} (blank : Blank before)
    (noEnd : ∀ rest, dropBlanks inner ≠ ']' :: rest) :
    enter containers (before ++ '[' :: inner) = .ok (.before (.array :: containers), inner) := by
  simp [enter, dropBlanks_append blank, dropBlanks_cons, isBlank]

theorem enter_object {before inner : List Char} (blank : Blank before)
    (noEnd : ∀ rest, dropBlanks inner ≠ '}' :: rest) :
    enter containers (before ++ '{' :: inner) =
      (skipKey inner).map fun left => (.before (.object :: containers), left) := by
  unfold enter
  rw [dropBlanks_append blank, dropBlanks_cons rfl]
  split
  · next same => cases same
  · next same =>
      obtain rfl := (List.cons.inj same).2
      split
      · next found => exact absurd found (noEnd _)
      · cases skipKey inner <;> rfl
  · next noObject => exact absurd rfl (noObject inner)

theorem leave_object {after rest : List Char} (blank : Blank after) :
    leave .object outer (after ++ ',' :: rest) =
      (skipKey rest).map fun left => (.before (.object :: outer), left) := by
  simp only [leave, dropBlanks_append blank, dropBlanks_cons (show isBlank ',' = false from rfl)]
  cases skipKey rest <;> rfl

namespace Kind.Fails

variable {before text after inner key rest : List Char} {name : List Nat} {tree : Tree}

theorem array (fails : Kind.items.Fails fault inner)
    (noEnd : ∀ rest, dropBlanks inner ≠ ']' :: rest) : Kind.value.Fails fault ('[' :: inner) := by
  intro containers before blank
  rw [skipFrom_before (enter_array blank noEnd)]
  exact fails containers

theorem object (fails : Kind.members.Fails fault inner)
    (noEnd : ∀ rest, dropBlanks inner ≠ '}' :: rest) : Kind.value.Fails fault ('{' :: inner) := by
  intro containers before blank
  rw [skipFrom_before_map (enter_object blank noEnd)]
  exact fails containers

theorem item (blank : Blank before) (fails : Kind.value.Fails fault text) :
    Kind.items.Fails fault (before ++ text) :=
  fun containers => fails (.array :: containers) before blank

theorem laterItem (blank : Blank before) (item : Denotes text (.value tree))
    (blankToo : Blank after) (fails : Kind.items.Fails fault rest) :
    Kind.items.Fails fault (before ++ (text ++ (after ++ ',' :: rest))) := by
  intro containers
  have goesOn : leave .array containers (after ++ ',' :: rest) =
      .ok (.before (.array :: containers), rest) := by
    simp [leave, dropBlanks_append blankToo, dropBlanks_cons, isBlank]
  rw [item.passed _ before _ blank (closed_comma blankToo rest), skipFrom_after goesOn]
  exact fails containers

theorem member (isKey : IsKey key name) (blank : Blank before)
    (fails : Kind.value.Fails fault text) : Kind.members.Fails fault (key ++ (before ++ text)) := by
  intro containers
  rw [skipKey_eq_ok_iff.mpr ⟨key, name, rfl, isKey⟩]
  exact fails (.object :: containers) before blank

theorem laterMember (isKey : IsKey key name) (blank : Blank before)
    (item : Denotes text (.value tree)) (blankToo : Blank after)
    (fails : Kind.members.Fails fault rest) :
    Kind.members.Fails fault (key ++ (before ++ (text ++ (after ++ ',' :: rest)))) := by
  intro containers
  rw [skipKey_eq_ok_iff.mpr ⟨key, name, rfl, isKey⟩]
  show skipFrom (.before (.object :: containers)) _ = _
  rw [item.passed _ before _ blank (closed_comma blankToo rest),
    skipFrom_after_map (leave_object blankToo)]
  exact fails containers

end Kind.Fails

/-! ## Beginnings that stop inside a number -/

namespace StopsInNumber

theorem exists_first (stops : StopsInNumber .value text) :
    ∃ first more, text = first :: more ∧ isBlank first = false ∧ first ≠ ']' := by
  cases stops with
  | number unfinished =>
      obtain ⟨first, more, rfl, starts⟩ := unfinished.exists_first
      obtain ⟨visible, other⟩ := visible_of_starts starts
      exact ⟨first, more, rfl, visible, by simp_all⟩
  | array => exact ⟨'[', _, rfl, by decide, by decide⟩
  | object => exact ⟨'{', _, rfl, by decide, by decide⟩

theorem noEnd_of_items (stops : StopsInNumber .items text) :
    ∀ rest, dropBlanks text ≠ ']' :: rest := by
  intro rest found
  cases stops with
  | item blank stops =>
      obtain ⟨first, more, rfl, visible, noEnd⟩ := stops.exists_first
      rw [dropBlanks_append blank, dropBlanks_cons visible] at found
      exact noEnd (List.cons.inj found).1
  | laterItem blank item =>
      obtain ⟨first, more, rfl, visible, noEnd⟩ := item.exists_first
      rw [dropBlanks_append blank, List.cons_append, dropBlanks_cons visible] at found
      exact noEnd (List.cons.inj found).1

theorem noEnd_of_members (stops : StopsInNumber .members text) :
    ∀ rest, dropBlanks text ≠ '}' :: rest := by
  intro rest found
  cases stops with
  | member isKey =>
      obtain ⟨more, begins⟩ := isKey.exists_quote _
      cases begins.symm.trans found
  | laterMember isKey =>
      obtain ⟨more, begins⟩ := isKey.exists_quote _
      cases begins.symm.trans found

/-- The number is taken for a wrong one, and nothing before it is. -/
theorem fails {kind : Kind} (stops : StopsInNumber kind text) : kind.Fails malformed text := by
  induction stops with
  | number unfinished =>
      intro containers before blank
      obtain ⟨first, more, rfl, starts⟩ := unfinished.exists_first
      obtain ⟨visible, other⟩ := visible_of_starts starts
      simp only [List.mem_cons, List.not_mem_nil, or_false, not_or] at other
      exact skipFrom_before_error
        (enter_scalar_error blank visible other.1 other.2.2.1 unfinished.skipScalar)
  | array inside ih => exact ih.array inside.noEnd_of_items
  | object inside ih => exact ih.object inside.noEnd_of_members
  | item blank stops ih => exact .item blank ih
  | laterItem blank item blankToo stops ih => exact .laterItem blank item blankToo ih
  | member isKey blank stops ih => exact .member isKey blank ih
  | laterMember isKey blank item blankToo stops ih =>
      exact .laterMember isKey blank item blankToo ih

end StopsInNumber

/-! ## All beginnings -/

/-- What the beginnings of a text are, by what the text denotes: they are found out to be
beginnings, or they stop inside a number. Of a value the beginning may be a value as well, if it
is a number of fewer digits. -/
def Part.Beginnings (text : List Char) : Part → Prop
  | .value _ => ∀ beginning, IsBeginning beginning text →
      Kind.value.Fails truncated beginning ∨ StopsInNumber .value beginning ∨
        ∃ tree, Denotes beginning (.value tree)
  | .items _ => ∀ beginning, beginning <+: text →
      Kind.items.Fails truncated beginning ∨ StopsInNumber .items beginning
  | .members _ => ∀ beginning, beginning <+: text →
      Kind.members.Fails truncated beginning ∨ StopsInNumber .members beginning

theorem dropBlanks_of_cut (cut : beginning <+: text) {c : Char} {rest : List Char}
    (found : dropBlanks beginning = c :: rest) : ∃ more, dropBlanks text = c :: more := by
  obtain ⟨missing, rfl⟩ := cut
  refine ⟨rest ++ missing, ?_⟩
  unfold dropBlanks at found ⊢
  rw [List.dropWhile_append, found]
  rfl

/-- A beginning of some items is not taken for the end of an array without any. -/
theorem noEnd_of_items {trees : List Tree} (items : Denotes text (.items trees))
    (cut : beginning <+: text) : ∀ rest, dropBlanks beginning ≠ ']' :: rest := by
  intro rest found
  obtain ⟨first, more, whole, noEnd⟩ := exists_first_items items []
  obtain ⟨others, wholeToo⟩ := dropBlanks_of_cut cut found
  rw [List.append_nil, wholeToo] at whole
  exact noEnd (List.cons.inj whole).1.symm

theorem noEnd_of_members {members : List (List Nat × Tree)}
    (denotes : Denotes text (.members members)) (cut : beginning <+: text) :
    ∀ rest, dropBlanks beginning ≠ '}' :: rest := by
  intro rest found
  obtain ⟨more, whole⟩ := dropBlanks_members denotes []
  obtain ⟨others, wholeToo⟩ := dropBlanks_of_cut cut found
  rw [List.append_nil, wholeToo] at whole
  cases whole

theorem fails_nil : Kind.value.Fails truncated [] := by
  intro containers before blank
  rw [List.append_nil]
  exact skipFrom_before_blank blank

theorem skipLetters_beginning {letters : List Char} (begins : IsBeginning beginning letters) :
    skipLetters letters beginning = .error truncated := by
  induction letters generalizing beginning with
  | nil => exact absurd begins not_isBeginning_nil
  | cons letter letters ih =>
      rcases isBeginning_cons.mp begins with rfl | ⟨rest, rfl, inside⟩
      · rfl
      · rw [skipLetters, if_pos rfl, ih inside]

/-- A scalar that breaks off behind its first character. -/
theorem fails_scalar {first : Char} {rest : List Char} (visible : isBlank first = false)
    (noArray : first ≠ '[') (noObject : first ≠ '{')
    (refused : ∀ beginning, IsBeginning beginning rest →
      skipScalar (first :: beginning) = .error truncated)
    (begins : IsBeginning beginning (first :: rest)) : Kind.value.Fails truncated beginning := by
  rcases isBeginning_cons.mp begins with rfl | ⟨others, rfl, inside⟩
  · exact fails_nil
  · intro containers before blank
    exact skipFrom_before_error
      (enter_scalar_error blank visible noArray noObject (refused others inside))

theorem fails_word {first : Char} {letters : List Char} (visible : isBlank first = false)
    (noArray : first ≠ '[') (noObject : first ≠ '{')
    (spelled : ∀ input, skipScalar (first :: input) = skipLetters letters input)
    (begins : IsBeginning beginning (first :: letters)) : Kind.value.Fails truncated beginning :=
  fails_scalar visible noArray noObject
    (fun rest inside => (spelled rest).trans (skipLetters_beginning inside)) begins

theorem skipKey_quote {before : List Char} (blank : Blank before) (rest : List Char) :
    skipKey (before ++ '"' :: rest) = (skip rest).bind skipColon := by
  cases passed : skip rest <;>
    simp [skipKey, dropBlanks_append blank, dropBlanks_cons, isBlank, passed, Except.bind]

theorem skipColon_blank {input : List Char} (blank : Blank input) :
    skipColon input = .error truncated := by
  simp [skipColon, dropBlanks_of_blank blank]

theorem IsKey.skipKey_beginning {key : List Char} {name : List Nat} (isKey : IsKey key name)
    (begins : IsBeginning beginning key) : skipKey beginning = .error truncated := by
  rcases isKey.cases_beginning begins with
    blank | ⟨before, body, rest, rfl, blank, spells, inBody | ⟨after, rfl, blankAfter⟩⟩
  · exact skipKey_blank blank
  · rw [skipKey_quote blank, spells.skip_beginning inBody]
    rfl
  · rw [skipKey_quote blank, skip_eq_ok_iff.mpr ⟨body, name, rfl, spells⟩]
    exact skipColon_blank blankAfter

/-- A value that stands in a container, with what follows it up to the next one. -/
theorem walk_beginning {before after : List Char} {tree : Tree} (blank : Blank before)
    (item : Denotes text (.value tree)) (beginnings : (Part.value tree).Beginnings text)
    (blankToo : Blank after) (cut : beginning <+: before ++ (text ++ after)) :
    (∀ container containers,
      skipFrom (.before (container :: containers)) beginning = .error truncated) ∨
    ∃ rest, beginning = before ++ rest ∧ StopsInNumber .value rest := by
  rcases prefix_append_iff.mp cut with begins | ⟨rest, rfl, cutRest⟩
  · refine .inl fun container containers => ?_
    exact skipFrom_before_blank (blank_of_cut blank begins.isPrefix)
  rcases prefix_append_iff.mp cutRest with begins | ⟨left, rfl, cutAfter⟩
  · rcases beginnings rest begins with fails | stops | ⟨other, denotes⟩
    · exact .inl fun container containers => fails _ before blank
    · exact .inr ⟨rest, rfl, stops⟩
    · -- Fewer digits are a number as well, but nothing closes the container behind it.
      refine .inl fun container containers => ?_
      have passed := denotes.passed (container :: containers) before [] blank
        (closed_of_blank blank_nil)
      rw [List.append_nil] at passed
      rw [passed]
      exact skipFrom_after_blank blank_nil
  · refine .inl fun container containers => ?_
    have blankLeft := blank_of_cut blankToo cutAfter
    rw [item.passed _ before left blank (closed_of_blank blankLeft)]
    exact skipFrom_after_blank blankLeft

theorem Kind.fails_key {key : List Char} {name : List Nat} (isKey : IsKey key name)
    (begins : IsBeginning beginning key) : Kind.members.Fails truncated beginning := by
  intro containers
  rw [isKey.skipKey_beginning begins]
  rfl

theorem skipFrom_after_key {key rest : List Char} {name : List Nat} (isKey : IsKey key name) :
    (skipKey (key ++ rest)).bind (skipFrom (.before (.object :: containers))) =
      skipFrom (.before (.object :: containers)) rest := by
  rw [skipKey_eq_ok_iff.mpr ⟨key, name, rfl, isKey⟩]
  rfl

/-- **What the beginnings of a text are is told by what it denotes.** -/
theorem Denotes.beginnings {part : Part} (denotes : Denotes text part) : part.Beginnings text := by
  -- By the grammar: a container that breaks off does so behind its opening bracket, and in a list
  -- either the first value breaks off or, behind its comma, the rest of the list.
  induction denotes with
  | nullWord =>
      intro beginning begins
      exact .inl (fails_word rfl (by decide) (by decide) (fun _ => rfl) begins)
  | trueWord =>
      intro beginning begins
      exact .inl (fails_word rfl (by decide) (by decide) (fun _ => rfl) begins)
  | falseWord =>
      intro beginning begins
      exact .inl (fails_word rfl (by decide) (by decide) (fun _ => rfl) begins)
  | number spelled =>
      intro beginning begins
      rcases spelled.of_cut begins.isPrefix with rfl | unfinished | isNumber
      · exact .inl fails_nil
      · exact .inr (.inl (.number unfinished))
      · exact .inr (.inr ⟨_, .number isNumber⟩)
  | string spells =>
      intro beginning begins
      refine .inl (fails_scalar rfl (by decide) (by decide) (fun rest inside => ?_) begins)
      exact spells.skip_beginning (isBeginning_concat.mp inside)
  | @noItems blanks blank =>
      intro beginning begins
      rcases isBeginning_enclosed.mp begins with rfl | ⟨rest, rfl, cut⟩
      · exact .inl fails_nil
      · have blankRest := blank_of_cut blank cut
        refine .inl (Kind.Fails.array (fun containers => skipFrom_before_blank blankRest) ?_)
        simp [dropBlanks_of_blank blankRest]
  | @array inner trees items ih =>
      intro beginning begins
      rcases isBeginning_enclosed.mp begins with rfl | ⟨rest, rfl, cut⟩
      · exact .inl fails_nil
      rcases ih rest cut with fails | stops
      · exact .inl (fails.array (noEnd_of_items items cut))
      · exact .inr (.inl (.array stops))
  | @noMembers blanks blank =>
      intro beginning begins
      rcases isBeginning_enclosed.mp begins with rfl | ⟨rest, rfl, cut⟩
      · exact .inl fails_nil
      · have blankRest := blank_of_cut blank cut
        refine .inl (Kind.Fails.object (fun containers => ?_) ?_)
        · rw [skipKey_blank blankRest]
          rfl
        · simp [dropBlanks_of_blank blankRest]
  | @object inner members denotes ih =>
      intro beginning begins
      rcases isBeginning_enclosed.mp begins with rfl | ⟨rest, rfl, cut⟩
      · exact .inl fails_nil
      rcases ih rest cut with fails | stops
      · exact .inl (fails.object (noEnd_of_members denotes cut))
      · exact .inr (.inl (.object stops))
  | @lastItem before text after tree blank item blankToo ih =>
      intro beginning cut
      rcases walk_beginning blank item ih blankToo cut with fails | ⟨rest, rfl, stops⟩
      · exact .inl (fails .array)
      · exact .inr (.item blank stops)
  | @item before text after rest tree trees blank item blankToo more ih ihMore =>
      intro beginning cut
      rcases cut_at_comma cut with inside | ⟨later, rfl, cutLater⟩
      · rcases walk_beginning blank item ih blankToo inside with fails | ⟨left, rfl, stops⟩
        · exact .inl (fails .array)
        · exact .inr (.item blank stops)
      · exact (ihMore later cutLater).imp (.laterItem blank item blankToo)
          (.laterItem blank item blankToo)
  | @lastMember key before text after name tree isKey blank item blankToo ih =>
      intro beginning cut
      rcases prefix_append_iff.mp cut with begins | ⟨rest, rfl, cutRest⟩
      · exact .inl (Kind.fails_key isKey begins)
      · rcases walk_beginning blank item ih blankToo cutRest with fails | ⟨left, rfl, stops⟩
        · exact .inl fun containers => (skipFrom_after_key isKey).trans (fails .object containers)
        · exact .inr (.member isKey blank stops)
  | @member key before text after rest name tree members isKey blank item blankToo more ih ihMore =>
      intro beginning cut
      rcases prefix_append_iff.mp cut with begins | ⟨left, rfl, cutLeft⟩
      · exact .inl (Kind.fails_key isKey begins)
      rcases cut_at_comma cutLeft with inside | ⟨later, rfl, cutLater⟩
      · rcases walk_beginning blank item ih blankToo inside with fails | ⟨others, rfl, stops⟩
        · exact .inl fun containers => (skipFrom_after_key isKey).trans (fails .object containers)
        · exact .inr (.member isKey blank stops)
      · exact (ihMore later cutLater).imp (.laterMember isKey blank item blankToo)
          (.laterMember isKey blank item blankToo)

end EditorFlags.Json
