import EditorFlags.Path
import EditorFlags.Proofs.CommandLine.Help
import Mathlib.Data.Option.Basic
import Mathlib.Data.List.Forall2

/-!
# Command lines that differ in the directory

Two command lines that are spelled alike but for values of the directory are read alike: they
are refused for the same reason, or their arguments differ in the directory alone
(`read_respelled`). The readings of the two are followed word by word, and differ only in the
value that is given or held for the directory.
-/

namespace EditorFlags

/-- Two ends that have come to related values, or to related failures. -/
inductive Ends {ε ζ α β : Type} (failures : ε → ζ → Prop) (related : α → β → Prop) :
    Except ε α → Except ζ β → Prop where
  | ok {value : α} {valueToo : β} (values : related value valueToo) :
      Ends failures related (.ok value) (.ok valueToo)
  | error {failure : ε} {failureToo : ζ} (same : failures failure failureToo) :
      Ends failures related (.error failure) (.error failureToo)

namespace Ends

variable {ε ζ α β γ δ : Type} {failures : ε → ζ → Prop} {related : α → β → Prop}
  {relatedToo : γ → δ → Prop} {first : Except ε α} {second : Except ζ β}

theorem bind {next : α → Except ε γ} {nextToo : β → Except ζ δ}
    (ends : Ends failures related first second)
    (later : ∀ value valueToo, related value valueToo →
      Ends failures relatedToo (next value) (nextToo valueToo)) :
    Ends failures relatedToo (first.bind next) (second.bind nextToo) := by
  cases ends with
  | ok values => exact later _ _ values
  | error same => exact .error same

theorem map {f : α → γ} {g : β → δ} (ends : Ends failures related first second)
    (later : ∀ value valueToo, related value valueToo → relatedToo (f value) (g valueToo)) :
    Ends failures relatedToo (first.map f) (second.map g) := by
  cases ends with
  | ok values => exact .ok (later _ _ values)
  | error same => exact .error same

/-- What is made of the two is the same if it is of related values, whatever stands in for a
failure. -/
theorem elim_eq {next : α → γ} {nextToo : β → γ} {otherwise : γ}
    (ends : Ends failures related first second)
    (later : ∀ value valueToo, related value valueToo → nextToo valueToo = next value) :
    second.toOption.elim otherwise nextToo = first.toOption.elim otherwise next := by
  cases ends with
  | ok values => exact later _ _ values
  | error same => rfl

end Ends

namespace CommandLine

variable {directory other : Path}

/-! ## Words and what they mention -/

/-- Two mentions that are the same but for a directory. -/
inductive Mention.Respelled (directory other : Path) : Mention → Mention → Prop where
  | same (mention : Mention) : Respelled directory other mention mention
  | dir : Respelled directory other (.value .dir directory.bytes) (.value .dir other.bytes)

/-- Words that are the same but for values of the directory. Such a value is a part of the word
that mentions it (`joined`), or it is the word after that (`apart`). -/
inductive Respelled (directory other : Path) : List Bytes → List Bytes → Prop where
  | nil : Respelled directory other [] []
  | same (word : Bytes) {words wordsToo : List Bytes}
      (rest : Respelled directory other words wordsToo) :
      Respelled directory other (word :: words) (word :: wordsToo)
  | joined {word wordToo : Bytes} {before : List Mention} {words wordsToo : List Bytes}
      (said : ∀ place, wordMentions? place word =
        some (before ++ [.value .dir directory.bytes], none))
      (saidToo : ∀ place, wordMentions? place wordToo =
        some (before ++ [.value .dir other.bytes], none))
      (rest : Respelled directory other words wordsToo) :
      Respelled directory other (word :: words) (wordToo :: wordsToo)
  | apart {word : Bytes} {before : List Mention} {words wordsToo : List Bytes}
      (said : ∀ place, wordMentions? place word = some (before, some .dir))
      (plain : Word.ofBytes directory.bytes = .plain) (plainToo : Word.ofBytes other.bytes = .plain)
      (rest : Respelled directory other words wordsToo) :
      Respelled directory other (word :: directory.bytes :: words)
        (word :: other.bytes :: wordsToo)

/-- A word that is a switch means nothing in the place of a command. -/
theorem isCommandWord_of_mentions {place : Option Command} {word : Bytes}
    {what : List Mention × Option Parameter} (said : wordMentions? place word = some what) :
    isCommandWord word = false := by
  rw [← Bool.not_eq_true]
  intro meant
  simp [wordMentions?, plain_of_isCommandWord meant] at said

/-! ## What is given -/

/-- What is given by the two differs in the directory alone. -/
structure Given.Respelled (directory other : Path) (given givenToo : Given) : Prop where
  dir : Option.Rel (fun value valueToo => valueToo = value ∨
    value = directory.bytes ∧ valueToo = other.bytes) (given.value? .dir) (givenToo.value? .dir)
  rest : ∀ parameter, parameter ≠ .dir → givenToo.value? parameter = given.value? parameter
  verbose : givenToo.verbose = given.verbose
  stdout : givenToo.stdout = given.stdout

namespace Given.Respelled

variable {given givenToo : Given}

theorem isSome (respelled : Respelled directory other given givenToo) (parameter : Parameter) :
    (givenToo.value? parameter).isSome = (given.value? parameter).isSome := by
  by_cases dir : parameter = .dir
  · have dirs := respelled.dir
    rw [dir]
    generalize given.value? .dir = value, givenToo.value? .dir = valueToo at dirs
    cases dirs <;> rfl
  · rw [respelled.rest parameter dir]

theorem isNothing (respelled : Respelled directory other given givenToo) :
    givenToo.isNothing = given.isNothing := by
  simp only [Given.isNothing, ← Option.not_isSome, respelled.isSome, respelled.verbose,
    respelled.stdout]

theorem take (named : directory.bytes ≠ []) (namedToo : other.bytes ≠ [])
    (respelled : Respelled directory other given givenToo) {mention mentionToo : Mention}
    (mentions : mention.Respelled directory other mentionToo) :
    Ends Eq (Respelled directory other) (given.take mention) (givenToo.take mentionToo) := by
  cases mentions with
  | dir =>
      simp only [Given.take, accept, respelled.isSome, List.isEmpty_iff, named, namedToo]
      split
      · exact .error rfl
      · simp only [reduceCtorEq, false_and, and_false, if_false]
        refine .ok ⟨.some (.inr ⟨rfl, rfl⟩), fun parameter rest => ?_, respelled.verbose,
          respelled.stdout⟩
        simp only [rest, if_false, respelled.rest parameter rest]
  | same =>
      cases mention with
      | flag flag =>
          cases flag with
          | help => exact .error rfl
          | verbose =>
              exact .ok ⟨respelled.dir, respelled.rest, by simp [respelled.verbose],
                respelled.stdout⟩
          | stdout =>
              simp only [Given.take, raise, respelled.stdout]
              split
              · exact .error rfl
              · exact .ok ⟨respelled.dir, respelled.rest, respelled.verbose, rfl⟩
      | value parameter value =>
          simp only [Given.take, accept, respelled.isSome]
          split_ifs
          · exact .error rfl
          · exact .error rfl
          · exact .error rfl
          · refine .ok ⟨?_, fun asked rest => ?_, respelled.verbose, respelled.stdout⟩
            · dsimp only
              split
              · exact .some (.inl rfl)
              · exact respelled.dir
            · dsimp only
              rw [respelled.rest asked rest]

theorem takeAll (named : directory.bytes ≠ []) (namedToo : other.bytes ≠ [])
    (respelled : Respelled directory other given givenToo) {mentions mentionsToo : List Mention}
    (same : List.Forall₂ (Mention.Respelled directory other) mentions mentionsToo) :
    Ends Eq (Respelled directory other) (given.takeAll mentions)
      (givenToo.takeAll mentionsToo) := by
  induction same generalizing given givenToo with
  | nil => exact .ok respelled
  | cons first _ ih => exact (respelled.take named namedToo first).bind fun _ _ next => ih next

end Given.Respelled

/-! ## Readings -/

/-- What is pending in the two. -/
inductive Pending.Respelled (directory other : Path) : Pending → Pending → Prop where
  | same (pending : Pending) : Respelled directory other pending pending
  | dir : Respelled directory other (.holding .dir directory.bytes) (.holding .dir other.bytes)

/-- How far the two have been read. -/
structure Reading.Respelled (directory other : Path) (reading readingToo : Reading) : Prop where
  given : reading.given.Respelled directory other readingToo.given
  pending : reading.pending.Respelled directory other readingToo.pending
  plainOnly : readingToo.plainOnly = reading.plainOnly

namespace Reading.Respelled

variable {reading readingToo : Reading}

theorem start : Respelled directory other .start .start :=
  ⟨⟨.none, fun _ _ => rfl, rfl, rfl⟩, .same _, rfl⟩

theorem owed (respelled : Respelled directory other reading readingToo) :
    readingToo.owed = reading.owed := by
  have pending := respelled.pending
  unfold Reading.owed
  generalize reading.pending = held, readingToo.pending = heldToo at pending
  cases pending <;> rfl

theorem expectsCommand (respelled : Respelled directory other reading readingToo) :
    readingToo.expectsCommand = reading.expectsCommand := by
  rw [Bool.eq_iff_iff, expectsCommand_iff, expectsCommand_iff, respelled.owed,
    respelled.plainOnly]

/-- Words that have no place are refused for the same reason. -/
theorem surplus (respelled : Respelled directory other reading readingToo)
    (place : Option Command) {word wordToo : Bytes}
    (meant : isCommandWord wordToo = isCommandWord word) :
    readingToo.surplus place wordToo = reading.surplus place word := by
  rw [Reading.surplus, Reading.surplus, respelled.plainOnly, meant]

theorem after (respelled : Respelled directory other reading readingToo)
    (owed : Option Parameter) {given givenToo : Given}
    (givens : given.Respelled directory other givenToo) :
    Respelled directory other (reading.after owed given) (readingToo.after owed givenToo) :=
  ⟨givens, .same _, respelled.plainOnly⟩

variable (named : directory.bytes ≠ []) (namedToo : other.bytes ≠ [])

include named namedToo

theorem settle (respelled : Respelled directory other reading readingToo) :
    Ends Eq (Given.Respelled directory other) reading.settle readingToo.settle := by
  obtain ⟨given, pending, -⟩ := respelled
  unfold Reading.settle
  generalize reading.pending = held, readingToo.pending = heldToo at pending
  cases pending with
  | dir => exact given.take named namedToo .dir
  | same =>
      cases held with
      | nothing => exact .ok given
      | awaiting parameter => exact .error rfl
      | holding parameter value => exact given.take named namedToo (.same (.value parameter value))

/-- Mentions that are taken in after what is pending. -/
theorem takeAll (respelled : Respelled directory other reading readingToo)
    (owed : Option Parameter) {mentions mentionsToo : List Mention}
    (same : List.Forall₂ (Mention.Respelled directory other) mentions mentionsToo) :
    Ends Eq (Respelled directory other)
      ((reading.settle.bind fun given => given.takeAll mentions).map (reading.after owed))
      ((readingToo.settle.bind fun given => given.takeAll mentionsToo).map
        (readingToo.after owed)) := by
  refine Ends.map ((respelled.settle named namedToo).bind fun _ _ givens =>
    givens.takeAll named namedToo same) fun _ _ givens => respelled.after owed givens

theorem take (respelled : Respelled directory other reading readingToo) (mention : Mention) :
    Ends Eq (Respelled directory other)
      ((reading.settle.bind fun given => given.take mention).map (reading.after none))
      ((readingToo.settle.bind fun given => given.take mention).map (readingToo.after none)) := by
  simpa only [Given.takeAll_singleton] using
    respelled.takeAll named namedToo none (.cons (.same mention) .nil)

theorem raise (respelled : Respelled directory other reading readingToo) (flag : Flag) :
    Ends Eq (Respelled directory other) (reading.raise flag) (readingToo.raise flag) := by
  rw [raise_eq, raise_eq]
  exact respelled.take named namedToo (.flag flag)

theorem accept (respelled : Respelled directory other reading readingToo) (parameter : Parameter)
    (value : Bytes) :
    Ends Eq (Respelled directory other) (reading.accept parameter value)
      (readingToo.accept parameter value) := by
  rw [accept_eq, accept_eq]
  exact respelled.take named namedToo (.value parameter value)

theorem await (respelled : Respelled directory other reading readingToo) (parameter : Parameter) :
    Ends Eq (Respelled directory other) (reading.await parameter)
      (readingToo.await parameter) := by
  rw [await_eq, await_eq]
  exact (respelled.settle named namedToo).map fun _ _ givens => respelled.after _ givens

theorem readCluster (respelled : Respelled directory other reading readingToo)
    (place : Option Command) (cluster : Bytes) :
    Ends Eq (Respelled directory other) (reading.readCluster place cluster)
      (readingToo.readCluster place cluster) := by
  induction cluster generalizing reading readingToo with
  | nil => exact .ok respelled
  | cons letter rest ih =>
      rw [Reading.readCluster, Reading.readCluster]
      cases Switch.ofShort? place letter with
      | none => exact .error rfl
      | some switch =>
          cases switch with
          | flag flag =>
              dsimp only
              have raised := respelled.raise named namedToo flag
              generalize reading.raise flag = next, readingToo.raise flag = nextToo at raised
              cases raised with
              | ok readings => exact ih readings
              | error same => exact .error same
          | parameter parameter =>
              cases rest with
              | nil => exact respelled.await named namedToo parameter
              | cons first value => exact respelled.accept named namedToo parameter _

/-- Any word does the same to both. -/
theorem readWord (respelled : Respelled directory other reading readingToo)
    (place : Option Command) (word : Bytes) :
    Ends Eq (Respelled directory other) (reading.readWord place word)
      (readingToo.readWord place word) := by
  unfold Reading.readWord
  rw [respelled.plainOnly, respelled.surplus place rfl]
  split
  · exact .error rfl
  cases Word.ofBytes word with
  | separator => exact .ok ⟨respelled.given, respelled.pending, rfl⟩
  | short cluster => exact respelled.readCluster named namedToo place cluster
  | long name value =>
      dsimp only
      cases Switch.ofLong? place name with
      | none => exact .error rfl
      | some switch =>
          cases switch with
          | parameter parameter =>
              cases value with
              | none => exact respelled.await named namedToo parameter
              | some value => exact respelled.accept named namedToo parameter value
          | flag flag =>
              cases value with
              | none => exact respelled.raise named namedToo flag
              | some value => exact .error rfl
  | plain =>
      obtain ⟨given, pending, plainOnly⟩ := respelled
      dsimp only
      generalize reading.pending = held, readingToo.pending = heldToo at pending
      cases pending with
      | dir => exact .error rfl
      | same =>
          cases held with
          | nothing => exact .error rfl
          | awaiting parameter => exact .ok ⟨given, .same _, rfl⟩
          | holding parameter value => exact .error rfl

/-- So do two words that are the same but for a directory. -/
theorem readWord_joined (respelled : Respelled directory other reading readingToo)
    {place : Option Command} {word wordToo : Bytes} {before : List Mention}
    (said : wordMentions? place word = some (before ++ [.value .dir directory.bytes], none))
    (saidToo : wordMentions? place wordToo = some (before ++ [.value .dir other.bytes], none)) :
    Ends Eq (Respelled directory other) (reading.readWord place word)
      (readingToo.readWord place wordToo) := by
  cases switches : reading.plainOnly with
  | true =>
      have meant : isCommandWord wordToo = isCommandWord word :=
        (isCommandWord_of_mentions saidToo).trans (isCommandWord_of_mentions said).symm
      rw [Reading.readWord, Reading.readWord, respelled.plainOnly, if_pos switches,
        if_pos switches, respelled.surplus place meant]
      exact .error rfl
  | false =>
      rw [readWord_of_mentions switches said,
        readWord_of_mentions (respelled.plainOnly.trans switches) saidToo]
      exact respelled.takeAll named namedToo none
        (List.rel_append (List.forall₂_same.mpr fun mention _ => .same mention) (.cons .dir .nil))

/-- Behind a word that lacks its directory the next word is held for it. -/
theorem readWord_apart (respelled : Respelled directory other reading readingToo)
    {place : Option Command} {word : Bytes} {before : List Mention}
    (said : wordMentions? place word = some (before, some .dir))
    (plain : Word.ofBytes directory.bytes = .plain)
    (plainToo : Word.ofBytes other.bytes = .plain) :
    Ends Eq (fun next nextToo => next.owed = some .dir ∧ nextToo.owed = some .dir ∧
        Ends Eq (Respelled directory other) (next.readWord place directory.bytes)
          (nextToo.readWord place other.bytes))
      (reading.readWord place word) (readingToo.readWord place word) := by
  cases switches : reading.plainOnly with
  | true =>
      rw [Reading.readWord, Reading.readWord, respelled.plainOnly, if_pos switches,
        if_pos switches, respelled.surplus place rfl]
      exact .error rfl
  | false =>
      have switchesToo := respelled.plainOnly.trans switches
      rw [readWord_of_mentions switches said, readWord_of_mentions switchesToo said]
      refine Ends.map ((respelled.settle named namedToo).bind fun _ _ givens =>
        givens.takeAll named namedToo (List.forall₂_same.mpr fun mention _ => .same mention)) ?_
      intro given givenToo givens
      refine ⟨owed_after given, owed_after givenToo, ?_⟩
      have next : (reading.after (some .dir) given).readWord place directory.bytes =
          .ok ((reading.after (some .dir) given).hold .dir directory.bytes) :=
        readWord_of_owed switches (owed_after given) plain
      have nextToo : (readingToo.after (some .dir) givenToo).readWord place other.bytes =
          .ok ((readingToo.after (some .dir) givenToo).hold .dir other.bytes) :=
        readWord_of_owed switchesToo (owed_after givenToo) plainToo
      rw [next, nextToo]
      exact .ok ⟨givens, .dir, respelled.plainOnly⟩

/-! ## Levels -/

variable {words wordsToo : List Bytes}

theorem readInner (respelled : Respelled directory other reading readingToo) (command : Command)
    (same : CommandLine.Respelled directory other words wordsToo) :
    Ends Eq (Respelled directory other) (CommandLine.readInner command reading words)
      (CommandLine.readInner command readingToo wordsToo) := by
  rw [readInner_eq, readInner_eq]
  induction same generalizing reading readingToo with
  | nil => exact .ok respelled
  | same word _ ih =>
      exact (respelled.readWord named namedToo _ word).bind fun _ _ next => ih next
  | joined said saidToo _ ih =>
      exact (respelled.readWord_joined named namedToo (said _) (saidToo _)).bind
        fun _ _ next => ih next
  | apart said plain plainToo _ ih =>
      refine (respelled.readWord_apart named namedToo (said _) plain plainToo).bind ?_
      rintro _ _ ⟨-, -, held⟩
      exact held.bind fun _ _ next => ih next

end Reading.Respelled

theorem Respelled.help_eq {words wordsToo : List Bytes}
    (same : Respelled directory other words wordsToo) : help wordsToo = help words := by
  cases same with
  | nil => rfl
  | same word rest => cases rest <;> rfl
  | joined said saidToo rest =>
      cases rest with
      | nil =>
          simp [help, isCommandWord_of_mentions (said none),
            isCommandWord_of_mentions (saidToo none)]
      | _ => rfl
  | apart said plain plainToo rest => rfl

theorem Respelled.topic_eq {words wordsToo : List Bytes}
    (same : Respelled directory other words wordsToo) :
    Help.Topic.ofWords wordsToo = Help.Topic.ofWords words := by
  have program {word : Bytes} (noCommand : isCommandWord word = false) :
      Help.Topic.ofWords [word] = .program := by
    simp only [isCommandWord, Bool.or_eq_false_iff] at noCommand
    rw [Help.Topic.ofWords, noCommand.1, if_neg Bool.false_ne_true,
      Option.isNone_iff_eq_none.mp (Option.isSome_eq_false_iff.mp noCommand.2)]
  cases same with
  | nil => rfl
  | same word rest => cases rest <;> rfl
  | joined said saidToo rest =>
      cases rest with
      | nil =>
          rw [program (isCommandWord_of_mentions (said none)),
            program (isCommandWord_of_mentions (saidToo none))]
      | _ => rfl
  | apart said plain plainToo rest => rfl

/-- The levels before the commands, with what stands behind these. -/
inductive OuterRespelled (directory other : Path) :
    Reading × Option (Command × List Bytes) → Reading × Option (Command × List Bytes) → Prop where
  | noCommand {reading readingToo : Reading}
      (readings : reading.Respelled directory other readingToo) :
      OuterRespelled directory other (reading, none) (readingToo, none)
  | command {reading readingToo : Reading} {behind behindToo : List Bytes} (command : Command)
      (readings : reading.Respelled directory other readingToo)
      (rest : Respelled directory other behind behindToo) :
      OuterRespelled directory other (reading, some (command, behind))
        (readingToo, some (command, behindToo))

theorem Respelled.readOuter {words wordsToo : List Bytes}
    (same : Respelled directory other words wordsToo) (named : directory.bytes ≠ [])
    (namedToo : other.bytes ≠ []) {reading readingToo : Reading}
    (respelled : reading.Respelled directory other readingToo) :
    Ends Eq (OuterRespelled directory other) (CommandLine.readOuter reading words)
      (CommandLine.readOuter readingToo wordsToo) := by
  induction same generalizing reading readingToo with
  | nil => exact .ok (.noCommand respelled)
  | @same word words wordsToo rest ih =>
      by_cases stops : reading.expectsCommand = true ∧ isCommandWord word = true
      · obtain ⟨expects, meant⟩ := stops
        rw [CommandLine.readOuter, CommandLine.readOuter, respelled.expectsCommand, expects,
          Bool.true_and]
        split
        · rw [rest.help_eq]
          exact .error rfl
        · next noHelp =>
            simp only [isCommandWord, noHelp, Bool.false_or] at meant
            obtain ⟨command, found⟩ := Option.isSome_iff_exists.mp meant
            simp only [found, if_true]
            exact .ok (.command command respelled rest)
      · rw [readOuter_cons stops, readOuter_cons (respelled.expectsCommand ▸ stops)]
        exact (respelled.readWord named namedToo none word).bind fun _ _ next => ih next
  | joined said saidToo _ ih =>
      rw [readOuter_cons (by simp [isCommandWord_of_mentions (said none)]),
        readOuter_cons (by simp [isCommandWord_of_mentions (saidToo none)])]
      exact (respelled.readWord_joined named namedToo (said none) (saidToo none)).bind
        fun _ _ next => ih next
  | apart said plain plainToo _ ih =>
      rw [readOuter_cons (by simp [isCommandWord_of_mentions (said none)]),
        readOuter_cons (by simp [isCommandWord_of_mentions (said none)])]
      refine (respelled.readWord_apart named namedToo (said none) plain plainToo).bind ?_
      rintro next nextToo ⟨owed, owedToo, held⟩
      -- A word that is owed as a value is not taken for a command.
      rw [readOuter_cons (by simp [Reading.expectsCommand_iff, owed]),
        readOuter_cons (by simp [Reading.expectsCommand_iff, owedToo])]
      exact held.bind fun _ _ later => ih later

theorem Respelled.topicFrom_eq {words wordsToo : List Bytes}
    (same : Respelled directory other words wordsToo) (named : directory.bytes ≠ [])
    (namedToo : other.bytes ≠ []) {reading readingToo : Reading}
    (respelled : reading.Respelled directory other readingToo) :
    Help.topicFrom readingToo wordsToo = Help.topicFrom reading words := by
  induction same generalizing reading readingToo with
  | nil => rfl
  | @same word words wordsToo rest ih =>
      by_cases stops : reading.expectsCommand = true ∧ isCommandWord word = true
      · obtain ⟨expects, meant⟩ := stops
        rw [Help.topicFrom, Help.topicFrom, respelled.expectsCommand, expects, Bool.true_and]
        split
        · exact rest.topic_eq
        · next noHelp =>
            simp only [isCommandWord, noHelp, Bool.false_or] at meant
            obtain ⟨command, found⟩ := Option.isSome_iff_exists.mp meant
            rw [if_pos rfl, found]
      · rw [Help.topicFrom_cons stops, Help.topicFrom_cons (respelled.expectsCommand ▸ stops)]
        exact (respelled.readWord named namedToo none word).elim_eq fun _ _ next => ih next
  | joined said saidToo _ ih =>
      rw [Help.topicFrom_cons (by simp [isCommandWord_of_mentions (saidToo none)]),
        Help.topicFrom_cons (by simp [isCommandWord_of_mentions (said none)])]
      exact (respelled.readWord_joined named namedToo (said none) (saidToo none)).elim_eq
        fun _ _ next => ih next
  | apart said plain plainToo _ ih =>
      rw [Help.topicFrom_cons (by simp [isCommandWord_of_mentions (said none)]),
        Help.topicFrom_cons (by simp [isCommandWord_of_mentions (said none)])]
      refine (respelled.readWord_apart named namedToo (said none) plain plainToo).elim_eq ?_
      rintro next nextToo ⟨owed, owedToo, held⟩
      rw [Help.topicFrom_cons (by simp [Reading.expectsCommand_iff, owedToo]),
        Help.topicFrom_cons (by simp [Reading.expectsCommand_iff, owed])]
      exact held.elim_eq fun _ _ later => ih later

/-- Help is about the same in both. -/
theorem Respelled.answer_eq {words wordsToo : List Bytes}
    (same : Respelled directory other words wordsToo) (named : directory.bytes ≠ [])
    (namedToo : other.bytes ≠ []) : Help.answer wordsToo = Help.answer words := by
  rw [Help.answer, Help.answer, same.topicFrom_eq named namedToo Reading.Respelled.start]

/-! ## Arguments -/

/-- Two lots of arguments that are the same, but that one may have the one directory and the
other the other. -/
inductive Arguments.Respelled (directory other : Path) : Arguments → Arguments → Prop where
  | same (arguments : Arguments) : Respelled directory other arguments arguments
  | dir {arguments : Arguments} (own : arguments.dir = directory) :
      Respelled directory other arguments { arguments with dir := other }

theorem complete_respelled (named : directory.bytes ≠ []) (namedToo : other.bytes ≠ [])
    {reading readingToo : Reading} (respelled : reading.Respelled directory other readingToo) :
    Ends Eq (Given.Respelled directory other) (complete reading) (complete readingToo) := by
  unfold complete
  have settled := respelled.settle named namedToo
  generalize reading.settle = ended, readingToo.settle = endedToo at settled
  cases settled with
  | error same => exact .error same
  | ok givens =>
      dsimp only
      rw [givens.stdout, givens.isSome]
      split
      · exact .error rfl
      · exact .ok givens

theorem combine_respelled (command : Command) {outer outerToo inner innerToo : Given}
    (outers : outer.Respelled directory other outerToo)
    (inners : inner.Respelled directory other innerToo) :
    Arguments.Respelled directory other (combine command outer inner)
      (combine command outerToo innerToo) := by
  have rest (parameter : Parameter) (notDir : parameter ≠ .dir) :
      (innerToo.value? parameter).or (outerToo.value? parameter) =
        (inner.value? parameter).or (outer.value? parameter) := by
    rw [inners.rest parameter notDir, outers.rest parameter notDir]
  have dirs := outers.dir
  have innerDirs := inners.dir
  simp only [combine, rest .base (by decide), rest .extra (by decide), rest .output (by decide),
    inners.rest .request (by decide), inners.verbose, outers.verbose, inners.stdout]
  generalize inner.value? .dir = own, innerToo.value? .dir = ownToo at innerDirs
  generalize outer.value? .dir = before, outerToo.value? .dir = beforeToo at dirs
  -- The directory behind the command counts, and the one before it if there is none.
  cases innerDirs with
  | some values =>
      obtain rfl | ⟨rfl, rfl⟩ := values
      · exact .same _
      · exact .dir rfl
  | none =>
      cases dirs with
      | none => exact .same _
      | some values =>
          obtain rfl | ⟨rfl, rfl⟩ := values
          · exact .same _
          · exact .dir rfl

/-- **Command lines that are the same but for the directory** are read alike. -/
theorem read_respelled (named : directory.bytes ≠ []) (namedToo : other.bytes ≠ [])
    {words wordsToo : List Bytes} (same : Respelled directory other words wordsToo) :
    Ends Eq (Arguments.Respelled directory other) (read words) (read wordsToo) := by
  have outer := same.readOuter named namedToo Reading.Respelled.start
  unfold read
  generalize readOuter .start words = ended, readOuter .start wordsToo = endedToo at outer
  cases outer with
  | error same => exact .error same
  | ok values =>
      cases values with
      | @noCommand reading readingToo readings =>
          have settled := readings.settle named namedToo
          dsimp only
          generalize reading.settle = given, readingToo.settle = givenToo at settled
          cases settled with
          | error same => exact .error same
          | ok givens =>
              dsimp only
              rw [givens.isNothing]
              exact .error rfl
      | @command reading readingToo behind behindToo command readings rest =>
          have settled := readings.settle named namedToo
          have completed := (Reading.Respelled.start.readInner named namedToo command rest).bind
            fun _ _ last => complete_respelled named namedToo last
          dsimp only
          generalize (readInner command .start behind).bind complete = inner,
            (readInner command .start behindToo).bind complete = innerToo at completed
          cases completed with
          | error same => exact .error same
          | ok inners =>
              dsimp only
              generalize reading.settle = given, readingToo.settle = givenToo at settled
              cases settled with
              | error same => exact .error same
              | ok outers => exact .ok (combine_respelled command outers inners)

end CommandLine

end EditorFlags
