import EditorFlags.CommandLine
import Mathlib.Tactic.Common

/-!
# What the words of a command line mention

Each word that is a switch mentions flags and parameters with their values, whatever has
been given before; only a parameter that comes last in its word takes the next one for
its value. So what a level says is a list of mentions that depends on its words alone
(`mentions?`), and reading the level is to take the mentions in, one after the other.
-/

namespace EditorFlags.CommandLine

/-- A flag that is raised, or a parameter that gets its value. -/
inductive Mention where
  | flag (flag : Flag)
  | value (parameter : Parameter) (bytes : Bytes)
deriving DecidableEq, Repr

/-- What follows a reading that can be refused is reached if it is not. -/
theorem bind_eq_ok_iff {α β : Type} {first : Except Refusal α} {next : α → Except Refusal β}
    {last : β} :
    first.bind next = .ok last ↔ ∃ value, first = .ok value ∧ next value = .ok last := by
  cases first <;> simp [Except.bind]

namespace Given

/-- Takes one mention in. -/
def take (given : Given) : Mention → Except Refusal Given
  | .flag flag => given.raise flag
  | .value parameter bytes => given.accept parameter bytes

/-- Takes some mentions in, in order. -/
def takeAll (given : Given) : List Mention → Except Refusal Given
  | [] => .ok given
  | mention :: rest => (given.take mention).bind fun given => given.takeAll rest

@[simp] theorem takeAll_singleton (given : Given) (mention : Mention) :
    given.takeAll [mention] = given.take mention := by
  rw [takeAll]
  cases given.take mention <;> rfl

theorem takeAll_append (given : Given) (first second : List Mention) :
    given.takeAll (first ++ second) =
      (given.takeAll first).bind fun given => given.takeAll second := by
  induction first generalizing given with
  | nil => rfl
  | cons mention first ih =>
      rw [List.cons_append, takeAll, takeAll]
      cases given.take mention with
      | error refusal => rfl
      | ok taken =>
          show taken.takeAll (first ++ second) = _
          exact ih taken

end Given

/-! ## What can be given -/

namespace Given

/-- The given with a value for a parameter. -/
def set (given : Given) (parameter : Parameter) (value : Bytes) : Given :=
  { given with
    value? := fun other => if other = parameter then some value else given.value? other }

/-- Whether a parameter can have a value: a request is text, and no path is empty. -/
def Admits (parameter : Parameter) (value : Bytes) : Prop :=
  if parameter = .request then (Utf8.decode? value).isSome = true else value ≠ []

variable {given next : Given}

theorem accept_eq_ok_iff {parameter : Parameter} {value : Bytes} :
    given.accept parameter value = .ok next ↔
      given.value? parameter = none ∧ Admits parameter value ∧
        next = given.set parameter value := by
  constructor
  · intro accepted
    unfold accept at accepted
    split_ifs at accepted with taken notText empty
    refine ⟨Option.not_isSome_iff_eq_none.mp taken, ?_, (Except.ok.inj accepted).symm⟩
    unfold Admits
    split
    · next request => simpa [request, Option.isSome_iff_ne_none] using notText
    · next other => simpa [other] using empty
  · rintro ⟨free, admits, rfl⟩
    unfold Admits at admits
    have text : ¬(parameter = .request ∧ (Utf8.decode? value).isNone = true) := by
      rintro ⟨request, notText⟩
      rw [if_pos request] at admits
      simp_all
    have notEmpty : ¬(parameter ≠ .request ∧ List.isEmpty value = true) := by
      rintro ⟨other, empty⟩
      rw [if_neg other] at admits
      exact admits (List.isEmpty_iff.mp empty)
    rw [accept, if_neg (by simp [free]), if_neg text, if_neg notEmpty, set]

theorem raise_eq_ok {flag : Flag} (raised : given.raise flag = .ok next) :
    (flag = .verbose ∧
        next = { given with verbose := min (given.verbose + 1) verboseLimit }) ∨
      (flag = .stdout ∧ given.stdout = false ∧ next = { given with stdout := true }) := by
  cases flag with
  | verbose => exact Or.inl ⟨rfl, (Except.ok.inj raised).symm⟩
  | help => simp [raise] at raised
  | stdout =>
      simp only [raise] at raised
      split at raised
      · simp at raised
      · next unraised => exact Or.inr ⟨rfl, by simpa using unraised, (Except.ok.inj raised).symm⟩

end Given

/-! ## The mentions of words -/

/-- What letters after one dash mention, and the parameter whose value is to be the next
word. -/
def clusterMentions? (place : Option Command) : Bytes → Option (List Mention × Option Parameter)
  | [] => some ([], none)
  | letter :: rest =>
      match Switch.ofShort? place letter with
      | none => none
      | some (.flag flag) =>
          (clusterMentions? place rest).map fun (mentions, owed) => (.flag flag :: mentions, owed)
      | some (.parameter parameter) =>
          match rest with
          | [] => some ([], some parameter)
          | first :: value =>
              some ([.value parameter (if first = equals then value else rest)], none)

/-- What a word mentions that is a switch. -/
def wordMentions? (place : Option Command) (word : Bytes) :
    Option (List Mention × Option Parameter) :=
  match Word.ofBytes word with
  | .separator => none
  | .plain => none
  | .short cluster => clusterMentions? place cluster
  | .long name value =>
      match Switch.ofLong? place name, value with
      | some (.parameter parameter), none => some ([], some parameter)
      | some (.parameter parameter), some value => some ([.value parameter value], none)
      | some (.flag flag), none => some ([.flag flag], none)
      | _, _ => none

/-- What some words mention, of which the first is the value of `owed` if that is a
parameter. There is no separator among them, and no parameter is left without a value. -/
def mentions? (place : Option Command) : Option Parameter → List Bytes → Option (List Mention)
  | none, [] => some []
  | some _, [] => none
  | some parameter, word :: rest =>
      if Word.ofBytes word = .plain then
        (mentions? place none rest).map (.value parameter word :: ·)
      else none
  | none, word :: rest =>
      match wordMentions? place word with
      | none => none
      | some (first, owed) => (mentions? place owed rest).map (first ++ ·)

/-- What is mentioned by more words comes behind what is mentioned by the first ones. -/
theorem mentions_append {place : Option Command} {owed : Option Parameter} {first : List Bytes}
    {mentions : List Mention} (said : mentions? place owed first = some mentions)
    (more : List Bytes) :
    mentions? place owed (first ++ more) = (mentions? place none more).map (mentions ++ ·) := by
  induction first generalizing owed mentions with
  | nil =>
      cases owed with
      | some parameter => simp [mentions?] at said
      | none =>
          simp only [mentions?, Option.some.injEq] at said
          simp [← said]
  | cons word rest ih =>
      rw [List.cons_append]
      cases owed with
      | some parameter =>
          rw [mentions?] at said ⊢
          split at said
          · obtain ⟨later, saidLater, rfl⟩ := Option.map_eq_some_iff.mp said
            rw [ih saidLater, Option.map_map]
            simp [Function.comp_def, *]
          · cases said
      | none =>
          rw [mentions?] at said ⊢
          cases known : wordMentions? place word with
          | none => simp [known] at said
          | some what =>
              simp only [known] at said ⊢
              obtain ⟨later, saidLater, rfl⟩ := Option.map_eq_some_iff.mp said
              rw [ih saidLater, Option.map_map]
              simp [Function.comp_def]

/-! ## What words look like -/

/-- Two dashes. -/
def separatorWord : Bytes := [dash, dash]

namespace Word

theorem ofBytes_eq_separator_iff {word : Bytes} :
    ofBytes word = .separator ↔ word = separatorWord := by
  constructor
  · intro shape
    unfold ofBytes at shape
    split at shape
    · next first second rest =>
        split at shape
        · simp at shape
        · split at shape
          · simp at shape
          · split at shape
            · simp_all [separatorWord]
            · split at shape <;> simp at shape
    · simp at shape
  · rintro rfl
    rfl

theorem ofBytes_of_ne_dash {letter : UInt8} (letters : letter ≠ dash) (rest : Bytes) :
    ofBytes (dash :: letter :: rest) = .short (letter :: rest) := by
  simp [ofBytes, letters]

theorem exists_of_short {word cluster : Bytes} (shape : ofBytes word = .short cluster) :
    ∃ letter rest, cluster = letter :: rest ∧ letter ≠ dash := by
  unfold ofBytes at shape
  split at shape
  · next first second rest =>
      split at shape
      · simp at shape
      · split at shape
        · next letters =>
            simp only [Word.short.injEq] at shape
            exact ⟨second, rest, shape.symm, by simpa using letters⟩
        · split at shape
          · simp at shape
          · split at shape <;> simp at shape
  · simp at shape

end Word

/-! ## Reading is taking mentions in -/

namespace Reading

/-- The parameter that is still without its value. -/
def owed (reading : Reading) : Option Parameter :=
  match reading.pending with
  | .awaiting parameter => some parameter
  | _ => none

/-- What has been given, but for a parameter that is still without its value. -/
def base (reading : Reading) : Except Refusal Given :=
  match reading.pending with
  | .awaiting _ => .ok reading.given
  | _ => reading.settle

/-- The reading after a switch has been taken in. -/
def after (reading : Reading) (owed : Option Parameter) (given : Given) : Reading :=
  { reading with
    given := given
    pending := match owed with
      | none => .nothing
      | some parameter => .awaiting parameter }

/-- The reading after a word has been taken for the value of a parameter. -/
def hold (reading : Reading) (parameter : Parameter) (value : Bytes) : Reading :=
  { reading with pending := .holding parameter value }

variable {place : Option Command} {reading : Reading} {word : Bytes} {mentions : List Mention}
  {owed : Option Parameter}

@[simp] theorem owed_after (given : Given) : (reading.after owed given).owed = owed := by
  cases owed <;> rfl

@[simp] theorem base_after (given : Given) : (reading.after owed given).base = .ok given := by
  cases owed <;> rfl

theorem pending_of_owed {parameter : Parameter} (awaiting : reading.owed = some parameter) :
    reading.pending = .awaiting parameter := by
  unfold owed at awaiting
  cases pending : reading.pending with
  | nothing => simp [pending] at awaiting
  | awaiting other => simpa [pending] using awaiting
  | holding other value => simp [pending] at awaiting

theorem base_of_owed {parameter : Parameter} (awaiting : reading.owed = some parameter) :
    reading.base = .ok reading.given := by
  rw [base, pending_of_owed awaiting]

theorem base_of_owed_none (settled : reading.owed = none) : reading.base = reading.settle := by
  unfold owed at settled
  unfold base
  cases pending : reading.pending with
  | nothing => rfl
  | awaiting parameter => simp [pending] at settled
  | holding parameter value => rfl

theorem settle_of_owed {parameter : Parameter} (awaiting : reading.owed = some parameter) :
    reading.settle = .error .badValue := by
  rw [settle, pending_of_owed awaiting]

/-- A command may come where no value is owed and there has been no separator. -/
theorem expectsCommand_iff :
    reading.expectsCommand = true ↔ reading.owed = none ∧ reading.plainOnly = false := by
  unfold expectsCommand owed
  split <;> simp_all

/-- A switch first settles what is pending. -/
theorem raise_eq (reading : Reading) (flag : Flag) :
    reading.raise flag =
      (reading.settle.bind fun given => given.raise flag).map (reading.after none) := by
  unfold raise resume after
  cases reading.settle.bind fun given => given.raise flag <;> rfl

theorem accept_eq (reading : Reading) (parameter : Parameter) (value : Bytes) :
    reading.accept parameter value =
      (reading.settle.bind fun given => given.accept parameter value).map
        (reading.after none) := by
  unfold accept resume after
  cases reading.settle.bind fun given => given.accept parameter value <;> rfl

theorem await_eq (reading : Reading) (parameter : Parameter) :
    reading.await parameter = reading.settle.map (reading.after (some parameter)) := by
  unfold await after
  cases reading.settle <;> rfl

/-- Letters after a dash first settle what is pending. -/
theorem readCluster_settle (reading : Reading) {letter : UInt8} {rest : Bytes}
    (said : clusterMentions? place (letter :: rest) = some (mentions, owed)) :
    reading.readCluster place (letter :: rest) =
      reading.settle.bind fun given =>
        (reading.after none given).readCluster place (letter :: rest) := by
  have again : ∀ given, (reading.after none given).settle = .ok given := fun given => rfl
  cases known : Switch.ofShort? place letter with
  | none => simp [clusterMentions?, known] at said
  | some switch =>
      cases switch with
      | flag flag =>
          simp only [readCluster, known, raise_eq, again]
          cases reading.settle <;> rfl
      | parameter parameter =>
          cases rest with
          | nil =>
              simp only [readCluster, known, await_eq, again]
              cases reading.settle <;> rfl
          | cons first value =>
              simp only [readCluster, known, accept_eq, again]
              cases reading.settle <;> rfl

/-- Letters after a dash are taken in for what they mention. Where nothing is pending
there may also be none. -/
theorem readCluster_eq {cluster : Bytes} (settled : reading.pending = .nothing)
    (said : clusterMentions? place cluster = some (mentions, owed)) :
    reading.readCluster place cluster =
      (reading.given.takeAll mentions).map (reading.after owed) := by
  have given : reading.settle = .ok reading.given := by rw [settle, settled]
  -- A flag leaves nothing pending, so the letters after it are read from the same state.
  induction cluster generalizing reading mentions with
  | nil =>
      simp only [clusterMentions?, Option.some.injEq, Prod.mk.injEq] at said
      obtain ⟨rfl, rfl⟩ := said
      simp [readCluster, Given.takeAll, Except.map, after, ← settled]
  | cons letter rest ih =>
      cases known : Switch.ofShort? place letter with
      | none => simp [clusterMentions?, known] at said
      | some switch =>
          cases switch with
          | flag flag =>
              simp only [clusterMentions?, known, Option.map_eq_some_iff, Prod.mk.injEq] at said
              obtain ⟨⟨later, owedLater⟩, saidLater, rfl, rfl⟩ := said
              simp only [readCluster, known, raise_eq, given, Given.takeAll, Given.take]
              simp only [Except.bind]
              cases reading.given.raise flag with
              | error refusal => rfl
              | ok raised =>
                  show (reading.after none raised).readCluster place rest = _
                  exact ih rfl saidLater rfl
          | parameter parameter =>
              cases rest with
              | nil =>
                  simp only [clusterMentions?, known, Option.some.injEq, Prod.mk.injEq] at said
                  obtain ⟨rfl, rfl⟩ := said
                  simp [readCluster, known, await_eq, given, Given.takeAll]
              | cons first value =>
                  simp only [clusterMentions?, known, Option.some.injEq, Prod.mk.injEq] at said
                  obtain ⟨rfl, rfl⟩ := said
                  simp only [readCluster, known, accept_eq, given, Given.takeAll_singleton]
                  rfl

/-- A word that is a switch settles what is pending and is taken in for what it
mentions. -/
theorem readWord_of_mentions (switches : reading.plainOnly = false)
    (said : wordMentions? place word = some (mentions, owed)) :
    reading.readWord place word =
      (reading.settle.bind fun given => given.takeAll mentions).map (reading.after owed) := by
  unfold wordMentions? at said
  rw [readWord, if_neg (by simp [switches])]
  split at said
  · simp at said
  · simp at said
  · next cluster shape =>
      simp only [shape]
      obtain ⟨letter, rest, rfl, -⟩ := Word.exists_of_short shape
      rw [readCluster_settle reading said]
      cases reading.settle with
      | error refusal => rfl
      | ok given =>
          show (reading.after none given).readCluster place (letter :: rest) = _
          exact readCluster_eq rfl said
  · next name value shape =>
      simp only [shape]
      split at said
      · next parameter known =>
          simp only [Option.some.injEq, Prod.mk.injEq] at said
          obtain ⟨rfl, rfl⟩ := said
          simp only [known, await_eq]
          cases reading.settle <;> rfl
      · next parameter value known =>
          simp only [Option.some.injEq, Prod.mk.injEq] at said
          obtain ⟨rfl, rfl⟩ := said
          simp only [known, accept_eq, Given.takeAll_singleton]
          rfl
      · next flag known =>
          simp only [Option.some.injEq, Prod.mk.injEq] at said
          obtain ⟨rfl, rfl⟩ := said
          simp only [known, raise_eq, Given.takeAll_singleton]
          rfl
      · simp at said

/-- Letters that mention nothing known are refused. -/
theorem readCluster_of_none (reading : Reading) {cluster : Bytes}
    (unknown : clusterMentions? place cluster = none) :
    ∃ refusal, reading.readCluster place cluster = .error refusal := by
  induction cluster generalizing reading with
  | nil => simp [clusterMentions?] at unknown
  | cons letter rest ih =>
      cases known : Switch.ofShort? place letter with
      | none => exact ⟨.unknownWord, by simp only [readCluster, known]⟩
      | some switch =>
          cases switch with
          | parameter parameter => cases rest <;> simp [clusterMentions?, known] at unknown
          | flag flag =>
              simp only [clusterMentions?, known, Option.map_eq_none_iff] at unknown
              simp only [readCluster, known]
              cases reading.raise flag with
              | error refusal => exact ⟨refusal, rfl⟩
              | ok raised => exact ih raised unknown

/-- A word that does not look like a switch is the value that is owed. -/
theorem readWord_of_owed {parameter : Parameter} (switches : reading.plainOnly = false)
    (awaiting : reading.owed = some parameter) (plain : Word.ofBytes word = .plain) :
    reading.readWord place word =
      .ok (reading.hold parameter word) := by
  rw [readWord, if_neg (by simp [switches])]
  simp only [plain, pending_of_owed awaiting]
  rfl

/-- The ways of reading one word: as a switch, as the separator, or as the value that is
owed. -/
inductive Reads (place : Option Command) (reading : Reading) (word : Bytes) : Reading → Prop where
  | switch {mentions : List Mention} {owed : Option Parameter} {given : Given}
      (said : wordMentions? place word = some (mentions, owed))
      (taken : (reading.settle.bind fun given => given.takeAll mentions) = .ok given) :
      Reads place reading word (reading.after owed given)
  | separator (same : word = separatorWord) :
      Reads place reading word { reading with plainOnly := true }
  | value {parameter : Parameter} (awaiting : reading.owed = some parameter)
      (plain : Word.ofBytes word = .plain) : Reads place reading word (reading.hold parameter word)

/-- There are no other ways. -/
theorem reads_of_readWord {next : Reading} (switches : reading.plainOnly = false)
    (read : reading.readWord place word = .ok next) : Reads place reading word next := by
  cases said : wordMentions? place word with
  | some what =>
      obtain ⟨mentions, owed⟩ := what
      rw [readWord_of_mentions switches said] at read
      cases taken : reading.settle.bind fun given => given.takeAll mentions with
      | error refusal => simp [taken, Except.map] at read
      | ok given =>
          simp only [taken, Except.map, Except.ok.injEq] at read
          rw [← read]
          exact .switch said taken
  | none =>
      cases shape : Word.ofBytes word with
      | separator =>
          rw [readWord, if_neg (by simp [switches])] at read
          simp only [shape, Except.ok.injEq] at read
          rw [← read]
          exact .separator (Word.ofBytes_eq_separator_iff.mp shape)
      | plain =>
          cases awaiting : reading.owed with
          | some parameter =>
              rw [readWord_of_owed switches awaiting shape, Except.ok.injEq] at read
              rw [← read]
              exact .value awaiting shape
          | none =>
              rw [readWord, if_neg (by simp [switches])] at read
              simp only [shape] at read
              unfold owed at awaiting
              split at read
              · next parameter pending => simp [pending] at awaiting
              · simp at read
      | short cluster =>
          simp only [wordMentions?, shape] at said
          obtain ⟨refusal, refused⟩ := readCluster_of_none reading said
          rw [readWord, if_neg (by simp [switches])] at read
          simp [shape, refused] at read
      | long name value =>
          simp only [wordMentions?, shape] at said
          rw [readWord, if_neg (by simp [switches])] at read
          simp only [shape] at read
          cases known : Switch.ofLong? place name with
          | none => simp [known] at read
          | some switch => cases switch <;> cases value <;> simp [known] at said read

/-! ## Reading a level -/

/-- Reads some words none of which is a command. -/
def readWords (place : Option Command) (reading : Reading) : List Bytes → Except Refusal Reading
  | [] => .ok reading
  | word :: rest =>
      (reading.readWord place word).bind fun next => readWords place next rest

variable {words : List Bytes} {last : Reading} {given : Given}

theorem readWords_append (reading : Reading) (first second : List Bytes) :
    reading.readWords place (first ++ second) =
      (reading.readWords place first).bind fun reading => reading.readWords place second := by
  induction first generalizing reading with
  | nil => rfl
  | cons word first ih =>
      rw [List.cons_append, readWords, readWords]
      cases reading.readWord place word with
      | error refusal => rfl
      | ok next =>
          show next.readWords place (first ++ second) = _
          exact ih next

/-- There is no word after a separator. -/
theorem readWords_of_plainOnly (plainOnly : reading.plainOnly = true)
    (read : reading.readWords place words = .ok last) : words = [] ∧ last = reading := by
  cases words with
  | nil => exact ⟨rfl, (Except.ok.inj read).symm⟩
  | cons word rest => simp [readWords, readWord, plainOnly, Except.bind] at read

theorem owed_of_settle (settled : reading.settle = .ok given) : reading.owed = none := by
  cases awaiting : reading.owed with
  | none => rfl
  | some parameter => simp [settle_of_owed awaiting] at settled

/-- Words that are read have mentioned what has been given. -/
theorem mentions_of_readWords (switches : reading.plainOnly = false)
    (read : reading.readWords place words = .ok last) (noSeparator : last.plainOnly = false)
    (settled : last.settle = .ok given) :
    ∃ mentions, mentions? place reading.owed words = some mentions ∧
      (reading.base.bind fun given => given.takeAll mentions) = .ok given := by
  -- From word to word goes what has been given, and the parameter that is owed a value.
  induction words generalizing reading with
  | nil =>
      obtain rfl := Except.ok.inj read
      have owesNothing := owed_of_settle settled
      refine ⟨[], by rw [owesNothing, mentions?], ?_⟩
      rw [base_of_owed_none owesNothing, settled]
      rfl
  | cons word rest ih =>
      obtain ⟨next, step, read⟩ := bind_eq_ok_iff.mp read
      cases reads_of_readWord switches step with
      | @switch first owed taken said takes =>
          obtain ⟨start, settling, takesFirst⟩ := bind_eq_ok_iff.mp takes
          have owesNothing := owed_of_settle settling
          have stillSwitches : (reading.after owed taken).plainOnly = false := switches
          obtain ⟨later, saidLater, takesLater⟩ := ih stillSwitches read
          rw [owed_after] at saidLater
          rw [base_after] at takesLater
          refine ⟨first ++ later, ?_, ?_⟩
          · rw [owesNothing, mentions?]
            simp only [said, saidLater, Option.map_some]
          · rw [base_of_owed_none owesNothing]
            refine bind_eq_ok_iff.mpr ⟨start, settling, ?_⟩
            rw [Given.takeAll_append]
            exact bind_eq_ok_iff.mpr ⟨taken, takesFirst, takesLater⟩
      | separator same =>
          obtain ⟨-, rfl⟩ := readWords_of_plainOnly rfl read
          simp at noSeparator
      | @value parameter awaiting plain =>
          have stillSwitches : (reading.hold parameter word).plainOnly = false := switches
          obtain ⟨later, saidLater, takesLater⟩ := ih stillSwitches read
          refine ⟨.value parameter word :: later, ?_, ?_⟩
          · rw [awaiting, mentions?, if_pos plain]
            exact Option.map_eq_some_iff.mpr ⟨later, saidLater, rfl⟩
          · -- What is held is accepted as soon as it is settled.
            rw [base_of_owed awaiting]
            exact takesLater

/-- Words are read if what they mention can be given. -/
theorem readWords_of_mentions (switches : reading.plainOnly = false)
    (said : mentions? place reading.owed words = some mentions)
    (taken : (reading.base.bind fun given => given.takeAll mentions) = .ok given) :
    ∃ last, reading.readWords place words = .ok last ∧ last.plainOnly = false ∧
      last.settle = .ok given := by
  induction words generalizing reading mentions with
  | nil =>
      refine ⟨reading, rfl, switches, ?_⟩
      cases awaiting : reading.owed with
      | some parameter => simp [awaiting, mentions?] at said
      | none =>
          simp only [awaiting, mentions?, Option.some.injEq] at said
          subst said
          rw [base_of_owed_none awaiting] at taken
          obtain ⟨start, settling, same⟩ := bind_eq_ok_iff.mp taken
          rw [settling, ← same, Given.takeAll]
  | cons word rest ih =>
      rw [readWords]
      cases awaiting : reading.owed with
      | some parameter =>
          rw [awaiting, mentions?] at said
          split at said
          · next plain =>
              obtain ⟨later, saidLater, rfl⟩ := Option.map_eq_some_iff.mp said
              rw [readWord_of_owed switches awaiting plain]
              rw [base_of_owed awaiting] at taken
              have stillSwitches : (reading.hold parameter word).plainOnly = false := switches
              exact ih stillSwitches saidLater taken
          · simp at said
      | none =>
          rw [awaiting, mentions?] at said
          cases known : wordMentions? place word with
          | none => simp [known] at said
          | some what =>
              obtain ⟨first, owed⟩ := what
              simp only [known] at said
              obtain ⟨later, saidLater, rfl⟩ := Option.map_eq_some_iff.mp said
              -- The mentions of the first word are given before those of the rest.
              rw [base_of_owed_none awaiting] at taken
              obtain ⟨start, settling, takes⟩ := bind_eq_ok_iff.mp taken
              rw [Given.takeAll_append] at takes
              obtain ⟨middle, takesFirst, takesLater⟩ := bind_eq_ok_iff.mp takes
              have step : reading.readWord place word = .ok (reading.after owed middle) := by
                rw [readWord_of_mentions switches known,
                  bind_eq_ok_iff.mpr ⟨start, settling, takesFirst⟩]
                rfl
              rw [step]
              have stillSwitches : (reading.after owed middle).plainOnly = false := switches
              have saidAfter :
                  mentions? place (reading.after owed middle).owed rest = some later := by
                rw [owed_after]
                exact saidLater
              exact ih stillSwitches saidAfter (by rw [base_after]; exact takesLater)

/-- A level on which there are only plain words left has had its separator as its last
word. -/
theorem exists_separator (switches : reading.plainOnly = false)
    (read : reading.readWords place words = .ok last) (separated : last.plainOnly = true) :
    ∃ spoken before, words = spoken ++ [separatorWord] ∧
      reading.readWords place spoken = .ok before ∧ before.plainOnly = false ∧
      last = { before with plainOnly := true } := by
  induction words generalizing reading with
  | nil =>
      obtain rfl := Except.ok.inj read
      simp [switches] at separated
  | cons word rest ih =>
      obtain ⟨next, step, read⟩ := bind_eq_ok_iff.mp read
      cases nextSwitches : next.plainOnly with
      | false =>
          obtain ⟨spoken, before, rfl, readBefore, unseparated, rfl⟩ := ih nextSwitches read
          refine ⟨word :: spoken, before, rfl, ?_, unseparated, rfl⟩
          rw [readWords, step]
          exact readBefore
      | true =>
          obtain ⟨rfl, rfl⟩ := readWords_of_plainOnly nextSwitches read
          cases reads_of_readWord switches step with
          | switch said takes =>
              exact absurd (switches.symm.trans nextSwitches) Bool.false_ne_true
          | separator same =>
              subst same
              exact ⟨[], reading, rfl, rfl, switches, rfl⟩
          | value awaiting plain =>
              exact absurd (switches.symm.trans nextSwitches) Bool.false_ne_true

end Reading

end EditorFlags.CommandLine
