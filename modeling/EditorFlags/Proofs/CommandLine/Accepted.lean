import EditorFlags.Proofs.CommandLine.Mention

/-!
# Command lines that are accepted

A command line is accepted if what its two levels mention can be given, and the words of
the levels stand on either side of a word for a command. Nothing else matters about the
words (`read_eq_ok_iff`). The paths that are accepted are not empty (`named_of_read`).
-/

namespace EditorFlags.CommandLine

open Reading

/-! ## Where the command stands -/

theorem readInner_eq (command : Command) (reading : Reading) (words : List Bytes) :
    readInner command reading words = reading.readWords (some command) words := by
  induction words generalizing reading with
  | nil => rfl
  | cons word rest ih =>
      rw [readInner, readWords]
      cases reading.readWord (some command) word with
      | error refusal => rfl
      | ok next =>
          show readInner command next rest = next.readWords (some command) rest
          exact ih next

/-- No word that has a meaning in the place of a command looks like a switch. -/
theorem plain_of_isCommandWord {word : Bytes} (meant : isCommandWord word = true) :
    Word.ofBytes word = .plain := by
  simp only [isCommandWord, Bool.or_eq_true, beq_iff_eq, Command.ofWord?] at meant
  rcases meant with rfl | found
  · cbv
  · rw [List.find?_isSome] at found
    obtain ⟨command, -, same⟩ := found
    rw [← beq_iff_eq.mp same]
    cases command <;> cbv

/-- In a place for a command such a word is not read as anything else. -/
theorem readWord_ne_ok_of_isCommandWord {reading next : Reading} {word : Bytes}
    (place : reading.expectsCommand = true) (meant : isCommandWord word = true) :
    reading.readWord none word ≠ .ok next := by
  intro read
  have plain := plain_of_isCommandWord meant
  obtain ⟨owesNothing, switches⟩ := expectsCommand_iff.mp place
  cases reads_of_readWord switches read with
  | switch said takes => simp [wordMentions?, plain] at said
  | separator same => simp [Word.ofBytes_eq_separator_iff.mpr same] at plain
  | value awaiting _ => simp [owesNothing] at awaiting

theorem readOuter_cons {reading : Reading} {word : Bytes}
    (noCommand : ¬(reading.expectsCommand = true ∧ isCommandWord word = true))
    (more : List Bytes) :
    readOuter reading (word :: more) =
      (reading.readWord none word).bind fun next => readOuter next more := by
  rw [readOuter]
  cases place : reading.expectsCommand with
  | false => cases reading.readWord none word <;> rfl
  | true =>
      simp only [place, true_and, isCommandWord, Bool.or_eq_true, not_or] at noCommand
      obtain ⟨noHelp, noCommand⟩ := noCommand
      rw [if_neg (by simp [noHelp]), if_pos rfl, Option.not_isSome_iff_eq_none.mp noCommand]
      cases reading.readWord none word <;> rfl

/-- The words before the command are read like any others, up to a word for a command in
a place for one. -/
theorem split_of_readOuter {reading last : Reading} {words rest : List Bytes}
    {command : Command} (read : readOuter reading words = .ok (last, some (command, rest))) :
    ∃ front, words = front ++ command.word :: rest ∧
      reading.readWords none front = .ok last ∧ last.expectsCommand = true := by
  induction words generalizing reading with
  | nil => simp [readOuter] at read
  | cons word more ih =>
      by_cases stops : reading.expectsCommand = true ∧ isCommandWord word = true
      · obtain ⟨place, meant⟩ := stops
        rw [readOuter, place, if_pos rfl] at read
        split at read
        · simp at read
        · next noHelp =>
            split at read
            · next found named =>
                simp only [Except.ok.injEq, Prod.mk.injEq, Option.some.injEq] at read
                obtain ⟨rfl, rfl, rfl⟩ := read
                have same : found.word = word := by
                  simpa using List.find?_some named
                exact ⟨[], by rw [same]; rfl, rfl, place⟩
            · next unnamed => simp_all [isCommandWord]
      · rw [readOuter_cons stops] at read
        obtain ⟨next, step, read⟩ := bind_eq_ok_iff.mp read
        obtain ⟨front, rfl, readFront, expects⟩ := ih read
        refine ⟨word :: front, rfl, ?_, expects⟩
        rw [readWords, step]
        show next.readWords none front = .ok last
        exact readFront

theorem readOuter_append {reading last : Reading} {front : List Bytes} (command : Command)
    (rest : List Bytes) (read : reading.readWords none front = .ok last)
    (expects : last.expectsCommand = true) :
    readOuter reading (front ++ command.word :: rest) = .ok (last, some (command, rest)) := by
  induction front generalizing reading with
  | nil =>
      obtain rfl := Except.ok.inj read
      have known : Command.ofWord? command.word = some command := by
        cases command <;> cbv
      have noHelp : (command.word == helpWord) = false := by
        cases command <;> cbv
      rw [List.nil_append, readOuter, if_neg (by simp [noHelp]), expects, if_pos rfl, known]
  | cons word front ih =>
      obtain ⟨next, step, read⟩ := bind_eq_ok_iff.mp read
      have noCommand : ¬(reading.expectsCommand = true ∧ isCommandWord word = true) := by
        rintro ⟨place, meant⟩
        exact readWord_ne_ok_of_isCommandWord place meant step
      rw [List.cons_append, readOuter_cons noCommand, step]
      show readOuter next (front ++ command.word :: rest) = _
      exact ih read

/-! ## What is accepted -/

/-- Some words of a level give what they mention. -/
def Gives (place : Option Command) (words : List Bytes) (given : Given) : Prop :=
  ∃ mentions, mentions? place none words = some mentions ∧
    Given.nothing.takeAll mentions = .ok given

/-- What the words behind a command give. They may end in a separator, and they send a
document to one place only. -/
structure Completes (command : Command) (words : List Bytes) (given : Given) : Prop where
  gives : ∃ spoken, (words = spoken ∨ words = spoken ++ [separatorWord]) ∧
    Gives (some command) spoken given
  onePlace : ¬(given.stdout = true ∧ (given.value? .output).isSome = true)

theorem gives_iff {place : Option Command} {words : List Bytes} {given : Given} :
    Gives place words given ↔
      ∃ last, Reading.start.readWords place words = .ok last ∧ last.plainOnly = false ∧
        last.settle = .ok given := by
  constructor
  · rintro ⟨mentions, said, taken⟩
    exact readWords_of_mentions rfl said taken
  · rintro ⟨last, read, noSeparator, settled⟩
    exact mentions_of_readWords rfl read noSeparator settled

theorem complete_eq_ok_iff {reading : Reading} {given : Given} :
    complete reading = .ok given ↔
      reading.settle = .ok given ∧
        ¬(given.stdout = true ∧ (given.value? .output).isSome = true) := by
  unfold complete
  cases reading.settle with
  | error refusal => simp
  | ok settled =>
      simp only [Except.ok.injEq]
      split
      · next both =>
          rw [Bool.and_eq_true] at both
          simp only [reduceCtorEq, false_iff]
          rintro ⟨rfl, notBoth⟩
          exact notBoth both
      · next notBoth =>
          rw [Bool.and_eq_true] at notBoth
          simp only [Except.ok.injEq]
          constructor
          · rintro rfl
            exact ⟨rfl, notBoth⟩
          · exact And.left

theorem readInner_complete_iff {command : Command} {words : List Bytes} {given : Given} :
    (readInner command .start words).bind complete = .ok given ↔
      Completes command words given := by
  rw [bind_eq_ok_iff, readInner_eq]
  constructor
  · rintro ⟨last, read, completed⟩
    obtain ⟨settled, onePlace⟩ := complete_eq_ok_iff.mp completed
    refine ⟨?_, onePlace⟩
    -- The level has ended in a separator if there could be only plain words now.
    cases separated : last.plainOnly with
    | false => exact ⟨words, Or.inl rfl, gives_iff.mpr ⟨last, read, separated, settled⟩⟩
    | true =>
        obtain ⟨spoken, before, rfl, readBefore, unseparated, rfl⟩ :=
          exists_separator rfl read separated
        exact ⟨spoken, Or.inr rfl, gives_iff.mpr ⟨before, readBefore, unseparated, settled⟩⟩
  · rintro ⟨⟨spoken, same, gives⟩, onePlace⟩
    obtain ⟨last, read, switches, settled⟩ := gives_iff.mp gives
    rcases same with rfl | rfl
    · exact ⟨last, read, complete_eq_ok_iff.mpr ⟨settled, onePlace⟩⟩
    · refine ⟨{ last with plainOnly := true }, ?_, complete_eq_ok_iff.mpr ⟨settled, onePlace⟩⟩
      rw [readWords_append, read]
      show last.readWords (some command) [separatorWord] = _
      have shape : Word.ofBytes separatorWord = .separator := rfl
      simp [readWords, readWord, switches, shape, Except.bind]

/-- **What is accepted.** The words before a command and those behind it each give what
they mention, and the arguments are put together from the two. -/
theorem read_eq_ok_iff {words : List Bytes} {arguments : Arguments} :
    read words = .ok arguments ↔
      ∃ front command behind outer inner, words = front ++ command.word :: behind ∧
        Gives none front outer ∧ Completes command behind inner ∧
        arguments = combine command outer inner := by
  constructor
  · intro accepted
    unfold read at accepted
    split at accepted
    · simp at accepted
    · split at accepted <;> simp at accepted
    · next last command behind split_ =>
        obtain ⟨front, rfl, readFront, expects⟩ := split_of_readOuter split_
        split at accepted
        · simp at accepted
        · next inner completed =>
            split at accepted
            · simp at accepted
            · next outer settled =>
                obtain ⟨-, switches⟩ := expectsCommand_iff.mp expects
                exact ⟨front, command, behind, outer, inner, rfl,
                  gives_iff.mpr ⟨last, readFront, switches, settled⟩,
                  readInner_complete_iff.mp completed, (Except.ok.inj accepted).symm⟩
  · rintro ⟨front, command, behind, outer, inner, rfl, gives, completes, rfl⟩
    obtain ⟨last, readFront, switches, settled⟩ := gives_iff.mp gives
    have expects := expectsCommand_iff.mpr ⟨owed_of_settle settled, switches⟩
    unfold read
    rw [readOuter_append command behind readFront expects]
    simp only [readInner_complete_iff.mpr completes, settled]

/-! ## No path is empty -/

/-- The paths among the arguments that are looked up in the directory. -/
def Arguments.paths (arguments : Arguments) : List Path :=
  [arguments.base, arguments.extra] ++
    match arguments.order with
    | .clangd (.file output) => [output]
    | _ => []

/-- That no path is given that is empty. -/
def Given.Named (given : Given) : Prop :=
  ∀ parameter value, parameter ≠ .request → given.value? parameter = some value → value ≠ []

theorem Given.named_of_takeAll {mentions : List Mention} {given last : Given} (named : given.Named)
    (taken : given.takeAll mentions = .ok last) : last.Named := by
  induction mentions generalizing given with
  | nil => exact Except.ok.inj taken ▸ named
  | cons mention rest ih =>
      obtain ⟨next, step, later⟩ := bind_eq_ok_iff.mp taken
      refine ih ?_ later
      cases mention with
      | flag flag =>
          obtain ⟨-, rfl⟩ | ⟨-, -, rfl⟩ := raise_eq_ok step
          · exact named
          · exact named
      | value parameter bytes =>
          obtain ⟨-, admits, rfl⟩ := accept_eq_ok_iff.mp step
          intro asked value other found
          by_cases own : asked = parameter
          · subst own
            obtain rfl : bytes = value := by simpa [set] using found
            simpa [Admits, other] using admits
          · exact named asked value other (by simpa [set, own] using found)

theorem Gives.named {place : Option Command} {words : List Bytes} {given : Given}
    (gives : Gives place words given) : given.Named := by
  obtain ⟨mentions, -, taken⟩ := gives
  refine Given.named_of_takeAll ?_ taken
  intro parameter value _ found
  simp [Given.nothing] at found

/-- No path that has been accepted is empty. -/
theorem named_of_read {words : List Bytes} {arguments : Arguments}
    (accepted : read words = .ok arguments) :
    arguments.dir.bytes ≠ [] ∧ ∀ path ∈ arguments.paths, path.bytes ≠ [] := by
  obtain ⟨front, command, behind, outer, inner, -, gives, completes, rfl⟩ :=
    read_eq_ok_iff.mp accepted
  obtain ⟨⟨spoken, -, givesInner⟩, -⟩ := completes
  have chosen {parameter : Parameter} (other : parameter ≠ .request) {bytes : Bytes}
      (found : (inner.value? parameter).or (outer.value? parameter) = some bytes) : bytes ≠ [] := by
    rcases Option.or_eq_some_iff.mp found with own | ⟨-, before⟩
    · exact givesInner.named parameter bytes other own
    · exact gives.named parameter bytes other before
  constructor
  · simp only [combine]
    split
    · next found => exact chosen (by decide) found
    · decide
  intro path member
  simp only [Arguments.paths, combine, List.mem_append, List.mem_cons, List.not_mem_nil,
    or_false] at member
  rcases member with (rfl | rfl) | isOutput
  · split
    · next found => exact chosen (by decide) found
    · decide
  · split
    · next found => exact chosen (by decide) found
    · decide
  · cases command with
    | settings => cases isOutput
    | clangd =>
        cases printed : inner.stdout with
        | true => simp [printed] at isOutput
        | false =>
            rw [printed] at isOutput
            obtain rfl := List.mem_singleton.mp isOutput
            split
            · next found => exact chosen (by decide) found
            · decide

end EditorFlags.CommandLine
