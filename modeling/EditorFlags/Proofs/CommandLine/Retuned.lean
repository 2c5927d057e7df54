import EditorFlags.Proofs.CommandLine.Accepted
import EditorFlags.Proofs.CommandLine.Tally
import EditorFlags.Settings.Request

/-!
# Command lines that differ in what is logged

How much is to be logged, and for which file settings are wanted, is mentioned among other
things, and in words that also mention these. Still a command line can be told by its mentions:
where each level mentions something there is one way only to cut the words
(`read_of_mentions_iff`). So with other mentions of that kind it is accepted as well, and its
arguments differ in nothing else (`read_retuned`).
-/

namespace EditorFlags.CommandLine

/-! ## What is mentioned decides -/

theorem wordMentions_of_command (place : Option Command) (command : Command) :
    wordMentions? place command.word = none := by
  have plain : Word.ofBytes command.word = .plain :=
    plain_of_isCommandWord (by cases command <;> cbv)
  simp only [wordMentions?, plain]

/-- Words that mention something do not go on with one that does not. -/
theorem wordMentions_ne_none {place : Option Command} {first more : List Bytes} {word : Bytes}
    {mentions mentionsToo : List Mention} (said : mentions? place none first = some mentions)
    (saidToo : mentions? place none (first ++ word :: more) = some mentionsToo) :
    wordMentions? place word ≠ none := by
  intro unknown
  rw [mentions_append said, mentions?, unknown] at saidToo
  cases saidToo

variable {front frontToo behind behindToo spoken spokenToo tail tailToo : List Bytes}
  {command commandToo : Command} {outer outerToo inner innerToo : List Mention}

/-- The words before a command end at it. -/
theorem front_unique (said : mentions? none none front = some outer)
    (saidToo : mentions? none none frontToo = some outerToo)
    (same : front ++ command.word :: behind = frontToo ++ commandToo.word :: behindToo) :
    front = frontToo ∧ command = commandToo ∧ behind = behindToo := by
  have commands {first second : Command} (word : first.word = second.word) : first = second := by
    cases first <;> cases second <;> first | rfl | exact absurd word (by decide)
  rcases List.append_eq_append_iff.mp same with ⟨more, rfl, rest⟩ | ⟨more, rfl, rest⟩
  · cases more with
    | nil =>
        obtain ⟨word, rfl⟩ := List.cons_eq_cons.mp rest
        exact ⟨(List.append_nil front).symm, commands word, rfl⟩
    | cons word more =>
        obtain ⟨rfl, -⟩ := List.cons_eq_cons.mp rest
        exact absurd (wordMentions_of_command none command) (wordMentions_ne_none said saidToo)
  · cases more with
    | nil =>
        obtain ⟨word, rfl⟩ := List.cons_eq_cons.mp rest
        exact ⟨List.append_nil frontToo, (commands word).symm, rfl⟩
    | cons word more =>
        obtain ⟨rfl, -⟩ := List.cons_eq_cons.mp rest
        exact absurd (wordMentions_of_command none commandToo) (wordMentions_ne_none saidToo said)

/-- That words are followed by a separator or by nothing. -/
def Tail (tail : List Bytes) : Prop :=
  tail = [] ∨ tail = [separatorWord]

/-- The words behind a command end at the separator. -/
theorem spoken_unique {place : Option Command} (said : mentions? place none spoken = some inner)
    (saidToo : mentions? place none spokenToo = some innerToo) (ended : Tail tail)
    (endedToo : Tail tailToo) (same : spoken ++ tail = spokenToo ++ tailToo) :
    spoken = spokenToo := by
  have unknown : wordMentions? place separatorWord = none := rfl
  rcases ended with rfl | rfl <;> rcases endedToo with rfl | rfl
  · simpa using same
  · rw [List.append_nil] at same
    subst same
    exact absurd unknown (wordMentions_ne_none saidToo said)
  · rw [List.append_nil] at same
    subst same
    exact absurd unknown (wordMentions_ne_none said saidToo)
  · exact List.append_cancel_right same

/-- **What is mentioned decides** whether a command line is accepted, and for what. -/
theorem read_of_mentions_iff {arguments : Arguments}
    (said : mentions? none none front = some outer)
    (saidBehind : mentions? (some command) none spoken = some inner) (ended : Tail tail) :
    read (front ++ command.word :: (spoken ++ tail)) = .ok arguments ↔
      Consistent outer ∧ Consistent inner ∧
        ¬((Given.ofMentions inner).stdout = true ∧
          ((Given.ofMentions inner).value? .output).isSome = true) ∧
        arguments = combine command (.ofMentions outer) (.ofMentions inner) := by
  rw [read_eq_ok_iff]
  constructor
  · rintro ⟨frontToo, commandToo, behind, _, _, same, ⟨outerToo, saidToo, taken⟩,
      ⟨⟨spokenToo, ends, innerToo, saidSpoken, takenSpoken⟩, onePlace⟩, rfl⟩
    obtain ⟨rfl, rfl, rfl⟩ := front_unique said saidToo same
    obtain ⟨tailToo, whole, endedToo⟩ : ∃ tailToo, spoken ++ tail = spokenToo ++ tailToo ∧
        Tail tailToo := by
      rcases ends with whole | whole
      · exact ⟨[], whole.trans (List.append_nil spokenToo).symm, .inl rfl⟩
      · exact ⟨[separatorWord], whole, .inr rfl⟩
    obtain rfl := spoken_unique saidBehind saidSpoken ended endedToo whole
    obtain rfl := Option.some.inj (said.symm.trans saidToo)
    obtain rfl := Option.some.inj (saidBehind.symm.trans saidSpoken)
    obtain ⟨consistent, rfl⟩ := Given.takeAll_nothing_iff.mp taken
    obtain ⟨consistentToo, rfl⟩ := Given.takeAll_nothing_iff.mp takenSpoken
    exact ⟨consistent, consistentToo, onePlace, rfl⟩
  · rintro ⟨consistent, consistentToo, onePlace, rfl⟩
    refine ⟨front, command, spoken ++ tail, _, _, rfl,
      ⟨outer, said, Given.takeAll_nothing_iff.mpr ⟨consistent, rfl⟩⟩,
      ⟨⟨spoken, ?_, inner, saidBehind, Given.takeAll_nothing_iff.mpr ⟨consistentToo, rfl⟩⟩,
        onePlace⟩, rfl⟩
    rcases ended with rfl | rfl
    · exact .inl (List.append_nil spoken)
    · exact .inr rfl

/-! ## Other mentions -/

/-- Whether a mention has a say in what is logged and in nothing else. -/
def Mention.isTuning : Mention → Bool
  | .flag .verbose => true
  | .value .request _ => true
  | _ => false

/-- That some mentions are others but for those that have a say in what is logged, and have one
request at most, which is accepted. -/
structure Retunes (mentions mentionsToo : List Mention) : Prop where
  others : mentionsToo.filter (!·.isTuning) = mentions.filter (!·.isTuning)
  single : (valuesFor .request mentionsToo).length ≤ 1
  accepted : ∀ bytes ∈ valuesFor .request mentionsToo,
    ∃ text request, Utf8.decode? bytes = some text ∧ Request.ofJson text = .ok request

theorem valuesFor_filter {parameter : Parameter} (other : parameter ≠ .request)
    (mentions : List Mention) :
    valuesFor parameter (mentions.filter (!·.isTuning)) = valuesFor parameter mentions := by
  rw [valuesFor, List.filterMap_filter, valuesFor]
  congr 1
  funext mention
  cases mention with
  | flag flag => simp [Mention.valueFor?]
  | value named bytes =>
      by_cases request : named = .request
      · simp [Mention.isTuning, Mention.valueFor?, request, Ne.symm other]
      · have notTuning : Mention.isTuning (.value named bytes) = false := by
          cases named <;> first | rfl | exact absurd rfl request
        simp [notTuning]

namespace Retunes

variable {mentions mentionsToo : List Mention}

theorem values (retunes : Retunes mentions mentionsToo) {parameter : Parameter}
    (other : parameter ≠ .request) :
    valuesFor parameter mentionsToo = valuesFor parameter mentions := by
  rw [← valuesFor_filter other, retunes.others, valuesFor_filter other]

theorem count_flag (retunes : Retunes mentions mentionsToo) {flag : Flag}
    (other : flag ≠ .verbose) :
    mentionsToo.count (.flag flag) = mentions.count (.flag flag) := by
  have kept (mentions : List Mention) :
      (mentions.filter (!·.isTuning)).count (.flag flag) = mentions.count (.flag flag) := by
    apply List.count_filter
    cases flag <;> first | rfl | exact absurd rfl other
  rw [← kept, retunes.others, kept]

theorem consistent (retunes : Retunes mentions mentionsToo) (consistent : Consistent mentions) :
    Consistent mentionsToo := by
  refine ⟨?_, ?_, ?_, ?_⟩
  · intro parameter
    by_cases request : parameter = .request
    · exact request ▸ retunes.single
    · rw [retunes.values request]
      exact consistent.single parameter
  · intro parameter bytes member
    by_cases request : parameter = .request
    · subst request
      obtain ⟨text, -, decoded, -⟩ := retunes.accepted bytes member
      simp [Given.Admits, decoded]
    · rw [retunes.values request] at member
      exact consistent.admitted parameter bytes member
  · rw [retunes.count_flag (by decide)]
    exact consistent.printsOnce
  · rw [← List.count_eq_zero, retunes.count_flag (by decide), List.count_eq_zero]
    exact consistent.noHelp

theorem value? (retunes : Retunes mentions mentionsToo) {parameter : Parameter}
    (other : parameter ≠ .request) :
    (Given.ofMentions mentionsToo).value? parameter =
      (Given.ofMentions mentions).value? parameter := by
  show (valuesFor parameter mentionsToo).head? = (valuesFor parameter mentions).head?
  rw [retunes.values other]

theorem stdout (retunes : Retunes mentions mentionsToo) :
    (Given.ofMentions mentionsToo).stdout = (Given.ofMentions mentions).stdout := by
  have flags := retunes.count_flag (show Flag.stdout ≠ .verbose by decide)
  simp only [Given.ofMentions, ← List.count_pos_iff, flags]

theorem request (retunes : Retunes mentions mentionsToo) {bytes : Bytes}
    (given : (Given.ofMentions mentionsToo).value? .request = some bytes) :
    ∃ text request, Utf8.decode? bytes = some text ∧ Request.ofJson text = .ok request :=
  retunes.accepted bytes (List.mem_of_head? given)

end Retunes

/-! ## Other words -/

/-- That words make two command lines which mention the same but for what has a say in what is
logged. -/
inductive Retuned : List Bytes → List Bytes → Prop where
  | intro {command : Command} {front frontToo spoken spokenToo tail tailToo : List Bytes}
      {outer outerToo inner innerToo : List Mention}
      (said : mentions? none none front = some outer)
      (saidToo : mentions? none none frontToo = some outerToo)
      (saidBehind : mentions? (some command) none spoken = some inner)
      (saidBehindToo : mentions? (some command) none spokenToo = some innerToo)
      (ended : Tail tail) (endedToo : Tail tailToo)
      (outers : Retunes outer outerToo) (inners : Retunes inner innerToo) :
      Retuned (front ++ command.word :: (spoken ++ tail))
        (frontToo ++ command.word :: (spokenToo ++ tailToo))

/-- That arguments differ at most in how much is to be logged and in a request that is accepted. -/
structure Arguments.Retuned (arguments argumentsToo : Arguments) : Prop where
  dir : argumentsToo.dir = arguments.dir
  base : argumentsToo.base = arguments.base
  extra : argumentsToo.extra = arguments.extra
  order : argumentsToo.order = arguments.order ∨
    ∃ text? textToo?, arguments.order = .settings text? ∧
      argumentsToo.order = .settings textToo? ∧
      ∀ text ∈ textToo?, ∃ request, Request.ofJson text = .ok request

theorem combine_retuned (command : Command) (outers : Retunes outer outerToo)
    (inners : Retunes inner innerToo) :
    (combine command (.ofMentions outer) (.ofMentions inner)).Retuned
      (combine command (.ofMentions outerToo) (.ofMentions innerToo)) := by
  have either {parameter : Parameter} (other : parameter ≠ .request) :
      ((Given.ofMentions innerToo).value? parameter).or
          ((Given.ofMentions outerToo).value? parameter) =
        ((Given.ofMentions inner).value? parameter).or
          ((Given.ofMentions outer).value? parameter) := by
    rw [inners.value? other, outers.value? other]
  refine ⟨?_, ?_, ?_, ?_⟩
  · simp only [combine, either (show Parameter.dir ≠ .request by decide)]
  · simp only [combine, either (show Parameter.base ≠ .request by decide)]
  · simp only [combine, either (show Parameter.extra ≠ .request by decide)]
  · cases command with
    | clangd =>
        left
        simp only [combine, either (show Parameter.output ≠ .request by decide), inners.stdout]
    | settings =>
        refine .inr ⟨_, _, rfl, rfl, ?_⟩
        intro text asked
        obtain ⟨bytes, given, decoded⟩ := Option.bind_eq_some_iff.mp asked
        obtain ⟨read, request, decodedToo, accepted⟩ := inners.request given
        obtain rfl := Option.some.inj (decoded.symm.trans decodedToo)
        exact ⟨request, accepted⟩

/-- A command line is accepted whatever it says of what is to be logged. -/
theorem read_retuned {words wordsToo : List Bytes} (retuned : Retuned words wordsToo)
    {arguments : Arguments} (accepted : read words = .ok arguments) :
    ∃ argumentsToo, read wordsToo = .ok argumentsToo ∧ arguments.Retuned argumentsToo := by
  obtain ⟨said, saidToo, saidBehind, saidBehindToo, ended, endedToo, outers, inners⟩ := retuned
  obtain ⟨consistent, consistentBehind, onePlace, rfl⟩ :=
    (read_of_mentions_iff said saidBehind ended).mp accepted
  refine ⟨_, (read_of_mentions_iff saidToo saidBehindToo endedToo).mpr
    ⟨outers.consistent consistent, inners.consistent consistentBehind, ?_, rfl⟩,
    combine_retuned _ outers inners⟩
  rw [inners.stdout, inners.value? (by decide)]
  exact onePlace

end EditorFlags.CommandLine
