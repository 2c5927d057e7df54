import EditorFlags.Proofs.CommandLine.Accepted
import Mathlib

/-!
# Printing instead of saving

A command line that saves the document is turned into one that prints it by putting
`--stdout` in the place of the output, or behind all else where no output is named. What
the words mention changes in this one place, so what they give changes in the place for
the document and in nothing else (`read_toStdout`).
-/

namespace EditorFlags.CommandLine

/-! ## Other words -/

/-- The word that asks for printing. -/
def stdoutWord : Bytes := Utf8.encode "--stdout"

/-- Letters after one dash, cut at the one for the output: the letters before it, and
what is left for its value. -/
def cutAtOutput : Bytes → Option (Bytes × Bytes)
  | [] => none
  | letter :: rest =>
      match Switch.ofShort? (some .clangd) letter with
      | some (.parameter .output) => some ([], rest)
      | some (.flag _) => (cutAtOutput rest).map fun (before, value) => (letter :: before, value)
      | _ => none

/-- The words behind a command with `--stdout` in the place of the output. -/
def toStdoutBehind : List Bytes → List Bytes
  | [] => [stdoutWord]
  | word :: rest =>
      match Word.ofBytes word with
      | .separator => stdoutWord :: word :: rest
      | .plain => word :: toStdoutBehind rest
      | .long name value =>
          if Switch.ofLong? (some .clangd) name = some (.parameter .output) then
            -- The next word is the value, if this one has none.
            stdoutWord ::
              match value with
              | none => rest.drop 1
              | some _ => rest
          else word :: toStdoutBehind rest
      | .short cluster =>
          match cutAtOutput cluster with
          | none => word :: toStdoutBehind rest
          | some (before, value) =>
              -- Flags that share a word with the output stay.
              (if before.isEmpty then [] else [dash :: before]) ++
                stdoutWord :: if value.isEmpty then rest.drop 1 else rest

/-- The words of a command line with `--stdout` in the place of the output. -/
def toStdout (words : List Bytes) : List Bytes :=
  match readOuter .start words with
  | .ok (_, some (_, behind)) => words.take (words.length - behind.length) ++ toStdoutBehind behind
  | _ => words

/-! ## Other mentions -/

/-- Mentions with the printing in the place of the output. -/
def mentionStdout : List Mention → List Mention
  | [] => [.flag .stdout]
  | .value .output _ :: rest => .flag .stdout :: rest
  | mention :: rest => mention :: mentionStdout rest

/-- What prints where the given saves. -/
def Given.printing (given : Given) : Given where
  value? := fun parameter => if parameter = .output then none else given.value? parameter
  verbose := given.verbose
  stdout := true

/-- Whether no output is among some mentions. -/
def NoOutput (mentions : List Mention) : Prop :=
  ∀ bytes, Mention.value .output bytes ∉ mentions

theorem mentionStdout_append {first : List Mention} (noOutput : NoOutput first)
    (later : List Mention) : mentionStdout (first ++ later) = first ++ mentionStdout later := by
  induction first with
  | nil => rfl
  | cons mention first ih =>
      have noOutputLater : NoOutput first := fun bytes among =>
        noOutput bytes (List.mem_cons_of_mem mention among)
      rw [List.cons_append, mentionStdout, ih noOutputLater, List.cons_append]
      rintro bytes rfl
      exact noOutput bytes (List.mem_cons_self ..)

/-! ## What is given instead -/

namespace Given

variable {given next last : Given} {mention : Mention} {mentions : List Mention}

/-- No mention takes the flag for printing back. -/
theorem stdout_of_take (taken : given.take mention = .ok next) (saves : next.stdout = false) :
    given.stdout = false := by
  cases mention with
  | flag flag =>
      rcases raise_eq_ok taken with ⟨rfl, rfl⟩ | ⟨rfl, unraised, rfl⟩
      · exact saves
      · exact unraised
  | value parameter value =>
      obtain ⟨-, -, rfl⟩ := accept_eq_ok_iff.mp taken
      exact saves

theorem stdout_of_takeAll (taken : given.takeAll mentions = .ok last)
    (saves : last.stdout = false) : given.stdout = false := by
  induction mentions generalizing given with
  | nil =>
      obtain rfl := Except.ok.inj taken
      exact saves
  | cons mention rest ih =>
      obtain ⟨next, takes, takesRest⟩ := bind_eq_ok_iff.mp taken
      exact stdout_of_take takes (ih takesRest)

/-- Once the output is given, printing stands in its place, and nothing that is mentioned
later makes a difference between the two. -/
theorem take_printing (named : (given.value? .output).isSome = true)
    (taken : given.take mention = .ok next) (saves : next.stdout = false) :
    given.printing.take mention = .ok next.printing ∧
      (next.value? .output).isSome = true := by
  cases mention with
  | flag flag =>
      rcases raise_eq_ok taken with ⟨rfl, rfl⟩ | ⟨rfl, -, rfl⟩
      · exact ⟨rfl, named⟩
      · simp at saves
  | value parameter value =>
      obtain ⟨free, admits, rfl⟩ := accept_eq_ok_iff.mp taken
      have notOutput : parameter ≠ .output := by
        rintro rfl
        simp [free] at named
      have freeToo : given.printing.value? parameter = none := by
        simpa [printing, notOutput] using free
      have sameSet : (given.set parameter value).printing = given.printing.set parameter value := by
        simp only [printing, set, Given.mk.injEq, and_true]
        funext other
        by_cases output : other = .output
        · simp [output, notOutput.symm]
        · simp [output]
      -- The value is checked in the same way on both sides.
      refine ⟨accept_eq_ok_iff.mpr ⟨freeToo, admits, sameSet⟩, ?_⟩
      simpa [set, notOutput.symm] using named

theorem takeAll_printing (named : (given.value? .output).isSome = true)
    (taken : given.takeAll mentions = .ok last) (saves : last.stdout = false) :
    given.printing.takeAll mentions = .ok last.printing := by
  induction mentions generalizing given with
  | nil =>
      obtain rfl := Except.ok.inj taken
      rfl
  | cons mention rest ih =>
      obtain ⟨next, takes, takesRest⟩ := bind_eq_ok_iff.mp taken
      obtain ⟨prints, stillNamed⟩ :=
        take_printing named takes (stdout_of_takeAll takesRest saves)
      exact bind_eq_ok_iff.mpr ⟨next.printing, prints, ih stillNamed takesRest⟩

/-- Printing is given where nothing is said about the place for the document. -/
theorem take_stdout (unnamed : given.value? .output = none) (saves : given.stdout = false) :
    given.take (.flag .stdout) = .ok given.printing := by
  have same : given.printing = { given with stdout := true } := by
    simp only [printing, Given.mk.injEq, and_true]
    funext other
    split
    · next output => rw [output, unnamed]
    · rfl
  rw [same]
  simp [take, raise, saves]

/-- Mentions that make a level save make it print instead when they are changed. -/
theorem takeAll_mentionStdout (unnamed : given.value? .output = none)
    (taken : given.takeAll mentions = .ok last) (saves : last.stdout = false) :
    given.takeAll (mentionStdout mentions) = .ok last.printing := by
  induction mentions generalizing given with
  | nil =>
      obtain rfl := Except.ok.inj taken
      rw [mentionStdout, takeAll_singleton]
      exact take_stdout unnamed saves
  | cons mention rest ih =>
      have savesFirst := stdout_of_takeAll taken saves
      obtain ⟨next, takes, takesRest⟩ := bind_eq_ok_iff.mp taken
      have savesNext := stdout_of_takeAll takesRest saves
      by_cases output : ∃ bytes, mention = .value .output bytes
      · -- From here on the mentions are the same again.
        obtain ⟨bytes, rfl⟩ := output
        obtain ⟨-, -, rfl⟩ := accept_eq_ok_iff.mp takes
        have named : ((given.set .output bytes).value? .output).isSome = true := by
          simp [set]
        have same : (given.set .output bytes).printing = given.printing := by
          simp only [printing, set, Given.mk.injEq, and_true]
          funext other
          by_cases output : other = .output <;> simp [output]
        have prints := takeAll_printing named takesRest saves
        rw [same] at prints
        exact bind_eq_ok_iff.mpr ⟨given.printing, take_stdout unnamed savesFirst, prints⟩
      · have unnamedNext : next.value? .output = none := by
          cases mention with
          | flag flag =>
              rcases raise_eq_ok takes with ⟨rfl, rfl⟩ | ⟨rfl, -, rfl⟩ <;> exact unnamed
          | value parameter value =>
              obtain ⟨-, -, rfl⟩ := accept_eq_ok_iff.mp takes
              have notOutput : Parameter.output ≠ parameter := by
                rintro rfl
                exact output ⟨value, rfl⟩
              simpa [set, notOutput] using unnamed
        rw [mentionStdout]
        · exact bind_eq_ok_iff.mpr ⟨next, takes, ih unnamedNext takesRest⟩
        · rintro bytes rfl
          exact output ⟨bytes, rfl⟩

end Given

/-! ## What the other words mention -/

section

variable {first : List Mention} {owed : Option Parameter}

theorem noOutput_append {first later : List Mention} (noOutput : NoOutput first)
    (noOutputLater : NoOutput later) : NoOutput (first ++ later) := by
  intro bytes among
  rcases List.mem_append.mp among with among | among
  · exact noOutput bytes among
  · exact noOutputLater bytes among

theorem noOutput_flag (flag : Flag) : NoOutput [.flag flag] := by
  intro bytes among
  simp at among

theorem noOutput_value {parameter : Parameter} (other : parameter ≠ .output) (value : Bytes) :
    NoOutput [.value parameter value] := by
  intro bytes among
  simp only [List.mem_singleton, Mention.value.injEq] at among
  exact other among.1.symm

/-- Letters that do not come to the one for the output leave it unmentioned. -/
theorem noOutput_of_cut {cluster : Bytes} (cut : cutAtOutput cluster = none)
    (said : clusterMentions? (some .clangd) cluster = some (first, owed)) :
    NoOutput first ∧ owed ≠ some .output := by
  induction cluster generalizing first with
  | nil =>
      simp only [clusterMentions?, Option.some.injEq, Prod.mk.injEq] at said
      obtain ⟨rfl, rfl⟩ := said
      exact ⟨fun bytes => List.not_mem_nil, by simp⟩
  | cons letter rest ih =>
      unfold clusterMentions? at said
      unfold cutAtOutput at cut
      split at said
      · simp at said
      · next flag known =>
          simp only [known, Option.map_eq_none_iff] at cut
          obtain ⟨⟨later, owedLater⟩, saidLater, same⟩ := Option.map_eq_some_iff.mp said
          simp only [Prod.mk.injEq] at same
          obtain ⟨rfl, rfl⟩ := same
          obtain ⟨noOutput, notOwed⟩ := ih cut saidLater
          exact ⟨noOutput_append (noOutput_flag flag) noOutput, notOwed⟩
      · next parameter known =>
          have other : parameter ≠ .output := by
            rintro rfl
            simp [known] at cut
          split at said
          · simp only [Option.some.injEq, Prod.mk.injEq] at said
            obtain ⟨rfl, rfl⟩ := said
            exact ⟨fun bytes => List.not_mem_nil, by simpa using other⟩
          · simp only [Option.some.injEq, Prod.mk.injEq] at said
            obtain ⟨rfl, rfl⟩ := said
            exact ⟨noOutput_value other _, by simp⟩

/-- Letters that come to the one for the output mention some flags and the output, with
what follows for its value if anything does. -/
theorem clusterMentions_of_cut {cluster before value : Bytes}
    (cut : cutAtOutput cluster = some (before, value))
    (said : clusterMentions? (some .clangd) cluster = some (first, owed)) :
    ∃ flags, NoOutput flags ∧ clusterMentions? (some .clangd) before = some (flags, none) ∧
      (before = [] ∨ before.head? = cluster.head?) ∧
      ((value = [] ∧ first = flags ∧ owed = some .output) ∨
        (value ≠ [] ∧ owed = none ∧ ∃ bytes, first = flags ++ [.value .output bytes])) := by
  induction cluster generalizing first before with
  | nil => simp [cutAtOutput] at cut
  | cons letter rest ih =>
      unfold clusterMentions? at said
      unfold cutAtOutput at cut
      split at said
      · simp at said
      · next flag known =>
          simp only [known] at cut
          obtain ⟨⟨beforeLater, valueLater⟩, cutLater, sameCut⟩ := Option.map_eq_some_iff.mp cut
          obtain ⟨⟨later, owedLater⟩, saidLater, same⟩ := Option.map_eq_some_iff.mp said
          simp only [Prod.mk.injEq] at same sameCut
          obtain ⟨rfl, rfl⟩ := same
          obtain ⟨rfl, rfl⟩ := sameCut
          obtain ⟨flags, noOutput, saidBefore, -, ends⟩ := ih cutLater saidLater
          refine ⟨.flag flag :: flags, noOutput_append (noOutput_flag flag) noOutput, ?_,
            Or.inr rfl, ?_⟩
          · simp [clusterMentions?, known, saidBefore]
          · rcases ends with ⟨rfl, rfl, rfl⟩ | ⟨more, rfl, bytes, rfl⟩
            · exact Or.inl ⟨rfl, rfl, rfl⟩
            · exact Or.inr ⟨more, rfl, bytes, rfl⟩
      · next parameter known =>
          have output : parameter = .output := by
            cases parameter <;> simp_all
          subst output
          simp only [known, Option.some.injEq, Prod.mk.injEq] at cut
          obtain ⟨rfl, rfl⟩ := cut
          refine ⟨[], fun bytes => List.not_mem_nil, rfl, Or.inl rfl, ?_⟩
          split at said
          · simp only [Option.some.injEq, Prod.mk.injEq] at said
            obtain ⟨rfl, rfl⟩ := said
            exact Or.inl ⟨rfl, rfl, rfl⟩
          · simp only [Option.some.injEq, Prod.mk.injEq] at said
            obtain ⟨rfl, rfl⟩ := said
            exact Or.inr ⟨List.cons_ne_nil _ _, rfl, _, rfl⟩

/-- Words that mention some flags, and no output among them, whatever follows. -/
structure Keeps (kept : List Bytes) (flags : List Mention) : Prop where
  noOutput : NoOutput flags
  mentioned : ∀ more, mentions? (some .clangd) none (kept ++ more) =
    (mentions? (some .clangd) none more).map (flags ++ ·)

/-- How a word stands to the output, by what it mentions and by the words that come
instead. -/
inductive TurnsToStdout (word : Bytes) : List Mention → Option Parameter → Prop where
  /-- The word does not name the output, and stays. -/
  | unnamed {mentions : List Mention} {owed : Option Parameter} (noOutput : NoOutput mentions)
      (notOwed : owed ≠ some .output)
      (stays : ∀ more, toStdoutBehind (word :: more) = word :: toStdoutBehind more) :
      TurnsToStdout word mentions owed
  /-- The word names the output behind some flags, and the next word is its value. -/
  | owing {kept : List Bytes} {flags : List Mention} (keeps : Keeps kept flags)
      (comes : ∀ more, toStdoutBehind (word :: more) = kept ++ stdoutWord :: more.drop 1) :
      TurnsToStdout word flags (some .output)
  /-- The word names the output behind some flags, and its value. -/
  | named {kept : List Bytes} {flags : List Mention} {bytes : Bytes} (keeps : Keeps kept flags)
      (comes : ∀ more, toStdoutBehind (word :: more) = kept ++ stdoutWord :: more) :
      TurnsToStdout word (flags ++ [.value .output bytes]) none

theorem keeps_nil : Keeps [] [] := by
  refine ⟨fun bytes => List.not_mem_nil, ?_⟩
  intro more
  simp

/-- The flags before the output make a word of their own, if there are any. -/
theorem keeps_before {word cluster before : Bytes} {flags : List Mention}
    (shape : Word.ofBytes word = .short cluster)
    (begins : before = [] ∨ before.head? = cluster.head?) (noOutput : NoOutput flags)
    (said : clusterMentions? (some .clangd) before = some (flags, none)) :
    Keeps (if before.isEmpty then [] else [dash :: before]) flags := by
  refine ⟨noOutput, ?_⟩
  intro more
  obtain ⟨letter, rest, rfl, letters⟩ := Word.exists_of_short shape
  cases before with
  | nil =>
      simp only [clusterMentions?, Option.some.injEq, Prod.mk.injEq, and_true] at said
      simp [← said]
  | cons head tail =>
      have same : head = letter := by simpa using begins
      subst same
      simp [mentions?, wordMentions?, Word.ofBytes_of_ne_dash letters, said]

theorem turnsToStdout_of_long {word name : Bytes} {value : Option Bytes}
    (shape : Word.ofBytes word = .long name value)
    (said : wordMentions? (some .clangd) word = some (first, owed)) :
    TurnsToStdout word first owed := by
  simp only [wordMentions?, shape] at said
  by_cases output : Switch.ofLong? (some .clangd) name = some (.parameter .output)
  · cases value with
    | none =>
        simp only [output, Option.some.injEq, Prod.mk.injEq] at said
        obtain ⟨rfl, rfl⟩ := said
        exact .owing keeps_nil fun more => by simp [toStdoutBehind, shape, output]
    | some bytes =>
        simp only [output, Option.some.injEq, Prod.mk.injEq] at said
        obtain ⟨rfl, rfl⟩ := said
        exact .named keeps_nil fun more => by simp [toStdoutBehind, shape, output]
  · have stays : ∀ more, toStdoutBehind (word :: more) = word :: toStdoutBehind more := by
      intro more
      simp [toStdoutBehind, shape, output]
    split at said
    · next parameter known =>
        simp only [Option.some.injEq, Prod.mk.injEq] at said
        obtain ⟨rfl, rfl⟩ := said
        refine .unnamed (fun bytes => List.not_mem_nil) ?_ stays
        rintro ⟨rfl⟩
        exact output known
    · next parameter bytes known =>
        simp only [Option.some.injEq, Prod.mk.injEq] at said
        obtain ⟨rfl, rfl⟩ := said
        refine .unnamed (noOutput_value ?_ bytes) (by simp) stays
        rintro rfl
        exact output known
    · next flag known =>
        simp only [Option.some.injEq, Prod.mk.injEq] at said
        obtain ⟨rfl, rfl⟩ := said
        exact .unnamed (noOutput_flag flag) (by simp) stays
    · simp at said

theorem turnsToStdout_of_short {word cluster : Bytes} (shape : Word.ofBytes word = .short cluster)
    (said : wordMentions? (some .clangd) word = some (first, owed)) :
    TurnsToStdout word first owed := by
  simp only [wordMentions?, shape] at said
  cases cut : cutAtOutput cluster with
  | none =>
      obtain ⟨noOutput, notOwed⟩ := noOutput_of_cut cut said
      refine .unnamed noOutput notOwed ?_
      intro more
      simp [toStdoutBehind, shape, cut]
  | some parts =>
      obtain ⟨before, value⟩ := parts
      obtain ⟨flags, noOutput, saidBefore, begins, ends⟩ := clusterMentions_of_cut cut said
      have keeps := keeps_before shape begins noOutput saidBefore
      rcases ends with ⟨rfl, rfl, rfl⟩ | ⟨more, rfl, bytes, rfl⟩
      · exact .owing keeps fun later => by simp [toStdoutBehind, shape, cut]
      · exact .named keeps fun later => by simp [toStdoutBehind, shape, cut, more]

/-- A word that does not name the output stays; one that does leaves only its flags, and
`--stdout` comes instead. -/
theorem turnsToStdout_of_mentions {word : Bytes}
    (said : wordMentions? (some .clangd) word = some (first, owed)) :
    TurnsToStdout word first owed := by
  cases shape : Word.ofBytes word with
  | separator => simp [wordMentions?, shape] at said
  | plain => simp [wordMentions?, shape] at said
  | long name value => exact turnsToStdout_of_long shape said
  | short cluster => exact turnsToStdout_of_short shape said

theorem mentions_stdoutWord (more : List Bytes) :
    mentions? (some .clangd) none (stdoutWord :: more) =
      (mentions? (some .clangd) none more).map (.flag .stdout :: ·) := by
  have said : wordMentions? (some .clangd) stdoutWord = some ([.flag .stdout], none) := by cbv
  simp only [mentions?, said]
  rfl

/-- The other words mention the printing in the place of the output, and end in a
separator if the words do. -/
theorem mentions_toStdoutBehind {words tail : List Bytes} {mentions : List Mention}
    (said : mentions? (some .clangd) owed words = some mentions) (notOwed : owed ≠ some .output)
    (ends : tail = [] ∨ tail = [separatorWord]) :
    ∃ others, toStdoutBehind (words ++ tail) = others ++ tail ∧
      mentions? (some .clangd) owed others = some (mentionStdout mentions) := by
  -- The parameter owed by the word before is never the output, whose value goes with it.
  induction words generalizing owed mentions with
  | nil =>
      cases owed with
      | some parameter => simp [mentions?] at said
      | none =>
          simp only [mentions?, Option.some.injEq] at said
          subst said
          have shape : Word.ofBytes separatorWord = .separator := rfl
          refine ⟨[stdoutWord], ?_, mentions_stdoutWord []⟩
          rcases ends with rfl | rfl
          · rfl
          · simp [toStdoutBehind, shape]
  | cons word rest ih =>
      cases owed with
      | some parameter =>
          simp only [mentions?] at said
          split at said
          · next plain =>
              obtain ⟨later, saidLater, rfl⟩ := Option.map_eq_some_iff.mp said
              obtain ⟨others, same, saidOthers⟩ := ih saidLater (by simp)
              refine ⟨word :: others, ?_, ?_⟩
              · simp [toStdoutBehind, plain, same]
              · rw [mentions?, if_pos plain, saidOthers, mentionStdout]
                · rfl
                · rintro bytes ⟨⟩
                  exact notOwed rfl
          · simp at said
      | none =>
          simp only [mentions?] at said
          split at said
          · simp at said
          · next first owed known =>
              obtain ⟨later, saidLater, rfl⟩ := Option.map_eq_some_iff.mp said
              cases turnsToStdout_of_mentions known with
              | unnamed noOutput notOwed stays =>
                  obtain ⟨others, same, saidOthers⟩ := ih saidLater notOwed
                  refine ⟨word :: others, by rw [List.cons_append, stays, same]; rfl, ?_⟩
                  rw [mentionStdout_append noOutput]
                  simp only [mentions?, known, saidOthers, Option.map_some]
              | @owing kept flags keeps comes =>
                  -- The next word is the output's value, and goes with it.
                  cases rest with
                  | nil => simp [mentions?] at saidLater
                  | cons value rest =>
                      simp only [mentions?] at saidLater
                      split at saidLater
                      · obtain ⟨last, saidLast, rfl⟩ := Option.map_eq_some_iff.mp saidLater
                        refine ⟨kept ++ stdoutWord :: rest, ?_, ?_⟩
                        · rw [List.cons_append, comes]
                          simp
                        · rw [keeps.mentioned, mentions_stdoutWord, saidLast,
                            mentionStdout_append keeps.noOutput]
                          rfl
                      · simp at saidLater
              | @named kept flags bytes keeps comes =>
                  refine ⟨kept ++ stdoutWord :: rest, ?_, ?_⟩
                  · rw [List.cons_append, comes]
                    simp
                  · rw [keeps.mentioned, mentions_stdoutWord, saidLater, List.append_assoc,
                      mentionStdout_append keeps.noOutput]
                    rfl

end

/-- **Printing instead.** Where the words of a command line save a document, the other
words print it and say the same of all else. -/
theorem read_toStdout {words : List Bytes} {arguments : Arguments} {output : Path}
    (accepted : read words = .ok arguments) (saves : arguments.order = .clangd (.file output)) :
    read (toStdout words) = .ok { arguments with order := .clangd .stdout } := by
  obtain ⟨front, command, behind, outer, inner, rfl, givesOuter, completes, rfl⟩ :=
    read_eq_ok_iff.mp accepted
  cases command with
  | settings => simp [combine] at saves
  | clangd =>
      have unprinted : inner.stdout = false := by
        cases printed : inner.stdout with
        | false => rfl
        | true => simp [combine, printed] at saves
      obtain ⟨⟨spoken, same, mentions, said, taken⟩, -⟩ := completes
      have ends : ∃ tail, behind = spoken ++ tail ∧ (tail = [] ∨ tail = [separatorWord]) := by
        rcases same with rfl | rfl
        · exact ⟨[], by simp, Or.inl rfl⟩
        · exact ⟨_, rfl, Or.inr rfl⟩
      obtain ⟨tail, rfl, ends⟩ := ends
      obtain ⟨others, sameOthers, saidOthers⟩ := mentions_toStdoutBehind said (by simp) ends
      have takenOthers := Given.takeAll_mentionStdout rfl taken unprinted
      have completesOthers : Completes .clangd (others ++ tail) inner.printing := by
        refine ⟨⟨others, ?_, _, saidOthers, takenOthers⟩, by simp [Given.printing]⟩
        rcases ends with rfl | rfl
        · exact Or.inl (by simp)
        · exact Or.inr rfl
      have wordsThere : toStdout (front ++ Command.clangd.word :: (spoken ++ tail)) =
          front ++ Command.clangd.word :: (others ++ tail) := by
        obtain ⟨last, readFront, switches, settled⟩ := gives_iff.mp givesOuter
        have upToCommand : ∀ before after : List Bytes,
            (before ++ after).take ((before ++ after).length - after.length) = before := by simp
        unfold toStdout
        have expects := Reading.expectsCommand_iff.mpr ⟨Reading.owed_of_settle settled, switches⟩
        rw [readOuter_append .clangd _ readFront expects]
        simp only [sameOthers]
        rw [List.append_cons, upToCommand, ← List.append_cons]
      rw [wordsThere, read_eq_ok_iff]
      refine ⟨front, .clangd, others ++ tail, outer, inner.printing, rfl, givesOuter,
        completesOthers, ?_⟩
      rfl

example : toStdout (["clangd", "-vox", "--"].map Utf8.encode) =
    ["clangd", "-v", "--stdout", "--"].map Utf8.encode := by cbv

end EditorFlags.CommandLine
