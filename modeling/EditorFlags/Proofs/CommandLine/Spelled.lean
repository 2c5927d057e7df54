import EditorFlags.Proofs.CommandLine.Accepted
import EditorFlags.Proofs.CommandLine.Tally
import EditorFlags.Proofs.Program

/-!
# Command lines that are spelled out

Every switch can be written in several ways: by its name or by its letter, with its value in the
same word or in the next one, and the letters of flags can share a word with a letter behind them.
`Spells` lists the ways, and what is written in any of them is mentioned when it is read
(`mentions_of_spelled`). The order of the switches on a level does not matter, so a command line
that spells out what is wanted comes to that job, however it is written.
-/

namespace EditorFlags

namespace CommandLine

/-! ## Ways to write a switch -/

/-- That a value can be a word of its own behind its switch: it does not begin with a dash, or it
is nothing else. -/
def Detachable (value : Bytes) : Prop :=
  value = [dash] ∨ value.head? ≠ some dash

/-- The letter of the flag for more output, so many times. -/
def verboseLetters (count : Nat) : Bytes :=
  List.replicate count 'v'.toUInt8

/-- The mentions of the flag for more output, so many times. -/
def verboseMentions (count : Nat) : List Mention :=
  List.replicate count (.flag .verbose)

/-- The words in which a switch that is known at a place can be written, with the letters of
other flags before its own. -/
inductive Spells (place : Option Command) : List Mention → List Bytes → Prop where
  /-- A name and the value behind an equals sign. -/
  | nameJoined {parameter : Parameter} (known : (Switch.parameter parameter).isKnown place = true)
      (value : Bytes) :
      Spells place [.value parameter value]
        [dash :: dash :: ((Switch.parameter parameter).longName ++ equals :: value)]
  /-- A name and the value in the next word. -/
  | nameApart {parameter : Parameter} (known : (Switch.parameter parameter).isKnown place = true)
      {value : Bytes} (detachable : Detachable value) :
      Spells place [.value parameter value]
        [dash :: dash :: (Switch.parameter parameter).longName, value]
  /-- A letter and the value behind an equals sign. -/
  | letterJoined {parameter : Parameter} (known : (Switch.parameter parameter).isKnown place = true)
      {letter : UInt8} (short : (Switch.parameter parameter).shortName? = some letter)
      (count : Nat) (value : Bytes) :
      Spells place (verboseMentions count ++ [.value parameter value])
        [dash :: (verboseLetters count ++ letter :: equals :: value)]
  /-- A letter and the value right behind it. -/
  | letterBare {parameter : Parameter} (known : (Switch.parameter parameter).isKnown place = true)
      {letter : UInt8} (short : (Switch.parameter parameter).shortName? = some letter)
      (count : Nat) {first : UInt8} (noEquals : first ≠ equals) (rest : Bytes) :
      Spells place (verboseMentions count ++ [.value parameter (first :: rest)])
        [dash :: (verboseLetters count ++ letter :: first :: rest)]
  /-- A letter and the value in the next word. -/
  | letterApart {parameter : Parameter} (known : (Switch.parameter parameter).isKnown place = true)
      {letter : UInt8} (short : (Switch.parameter parameter).shortName? = some letter)
      (count : Nat) {value : Bytes} (detachable : Detachable value) :
      Spells place (verboseMentions count ++ [.value parameter value])
        [dash :: (verboseLetters count ++ [letter]), value]
  /-- The name of a flag. -/
  | flagName {flag : Flag} (known : (Switch.flag flag).isKnown place = true) :
      Spells place [.flag flag] [dash :: dash :: (Switch.flag flag).longName]
  /-- The letter of the flag for more output, once or several times in a word. -/
  | flagLetters (count : Nat) :
      Spells place (verboseMentions (count + 1)) [dash :: verboseLetters (count + 1)]

/-- That words are those of some switches, one after the other. -/
inductive Spelled (place : Option Command) : List Mention → List Bytes → Prop where
  | nil : Spelled place [] []
  | cons {first later : List Mention} {words more : List Bytes} (spells : Spells place first words)
      (rest : Spelled place later more) : Spelled place (first ++ later) (words ++ more)

/-! ## What the words look like -/

namespace Word

theorem ofBytes_of_detachable {value : Bytes} (detachable : Detachable value) :
    ofBytes value = .plain := by
  rcases detachable with rfl | other
  · rfl
  · match value with
    | [] => rfl
    | [first] => rfl
    | first :: second :: rest =>
        have noDash : first ≠ dash := by simpa using other
        simp [ofBytes, noDash]

theorem ofBytes_name {name : Bytes} (nonempty : name ≠ []) (whole : equals ∉ name) :
    ofBytes (dash :: dash :: name) = .long name none := by
  have all : name.dropWhile (· != equals) = [] := by
    rw [List.dropWhile_eq_nil_iff]
    intro letter member
    simpa using ne_of_mem_of_not_mem member whole
  simp [ofBytes, all, nonempty]

theorem ofBytes_name_value {name : Bytes} (whole : equals ∉ name) (value : Bytes) :
    ofBytes (dash :: dash :: (name ++ equals :: value)) = .long name (some value) := by
  have inName : ∀ letter ∈ name, (letter != equals) = true := by
    intro letter member
    simpa using ne_of_mem_of_not_mem member whole
  have dropped : (name ++ equals :: value).dropWhile (· != equals) = equals :: value := by
    rw [List.dropWhile_append_of_pos inName, List.dropWhile_cons_of_neg (by simp)]
  have taken : (name ++ equals :: value).takeWhile (· != equals) = name := by
    rw [List.takeWhile_append_of_pos inName, List.takeWhile_cons_of_neg (by simp),
      List.append_nil]
  simp [ofBytes, dropped, taken]

end Word

namespace Switch

variable {place : Option Command} {switch : Switch}

theorem mem_all (switch : Switch) : switch ∈ all := by
  rcases switch with parameter | flag
  · cases parameter <;> decide
  · cases flag <;> decide

theorem longName_inj {other : Switch} (same : other.longName = switch.longName) :
    other = switch := by
  have distinct : (all.map longName).Nodup := by decide
  exact List.inj_on_of_nodup_map distinct (mem_all other) (mem_all switch) same

theorem shortName_inj {other : Switch} {letter : UInt8} (short : other.shortName? = some letter)
    (shortToo : switch.shortName? = some letter) : other = switch := by
  have distinct : ∀ first ∈ all, ∀ second ∈ all,
      first.shortName? = second.shortName? → first = second ∨ first.shortName? = none := by decide
  rcases distinct other (mem_all other) switch (mem_all switch) (short.trans shortToo.symm) with
    same | unlettered
  · exact same
  · rw [short] at unlettered
    cases unlettered

/-- A switch is found at its place by its name. -/
theorem ofLong?_longName (known : switch.isKnown place = true) :
    ofLong? place switch.longName = some switch := by
  have found : (ofLong? place switch.longName).isSome = true :=
    List.find?_isSome.mpr ⟨switch, mem_all switch, by simp [known]⟩
  obtain ⟨other, same⟩ := Option.isSome_iff_exists.mp found
  have named := List.find?_some same
  rw [Bool.and_eq_true, beq_iff_eq] at named
  rw [same, longName_inj named.2]

/-- A switch is found at its place by its letter. -/
theorem ofShort?_of_shortName {letter : UInt8} (known : switch.isKnown place = true)
    (short : switch.shortName? = some letter) : ofShort? place letter = some switch := by
  have found : (ofShort? place letter).isSome = true :=
    List.find?_isSome.mpr ⟨switch, mem_all switch, by simp [known, short]⟩
  obtain ⟨other, same⟩ := Option.isSome_iff_exists.mp found
  have lettered := List.find?_some same
  rw [Bool.and_eq_true, beq_iff_eq] at lettered
  rw [same, shortName_inj lettered.2 short]

theorem longName_ne_nil (switch : Switch) : switch.longName ≠ [] := by
  have each : ∀ switch ∈ all, switch.longName ≠ [] := by decide
  exact each switch (mem_all switch)

theorem equals_not_mem_longName (switch : Switch) : equals ∉ switch.longName := by
  have each : ∀ switch ∈ all, equals ∉ switch.longName := by decide
  exact each switch (mem_all switch)

theorem ne_dash_of_shortName {letter : UInt8} (short : switch.shortName? = some letter) :
    letter ≠ dash := by
  have each : ∀ switch ∈ all, switch.shortName? ≠ some dash := by decide
  rintro rfl
  exact each switch (mem_all switch) short

end Switch

/-! ## What the words mention -/

variable {place : Option Command} {mentions : List Mention} {words : List Bytes}

/-- The letters of flags are mentioned before what is mentioned behind them. -/
theorem clusterMentions_verboseLetters (count : Nat) {rest : Bytes} {owed : Option Parameter}
    (said : clusterMentions? place rest = some (mentions, owed)) :
    clusterMentions? place (verboseLetters count ++ rest) =
      some (verboseMentions count ++ mentions, owed) := by
  induction count with
  | zero => exact said
  | succ count ih =>
      have letter : Switch.ofShort? place 'v'.toUInt8 = some (.flag .verbose) :=
        Switch.ofShort?_of_shortName rfl rfl
      rw [verboseLetters] at ih
      simp only [verboseLetters, verboseMentions, List.replicate_succ, List.cons_append,
        clusterMentions?, letter, ih, Option.map_some]

/-- A word of letters is one whose first letter is no dash. -/
theorem wordMentions_letters (count : Nat) {letter : UInt8} (noDash : letter ≠ dash)
    {rest : Bytes} {owed : Option Parameter}
    (said : clusterMentions? place (letter :: rest) = some (mentions, owed)) :
    wordMentions? place (dash :: (verboseLetters count ++ letter :: rest)) =
      some (verboseMentions count ++ mentions, owed) := by
  have cluster := clusterMentions_verboseLetters count said
  have shape : Word.ofBytes (dash :: (verboseLetters count ++ letter :: rest)) =
      .short (verboseLetters count ++ letter :: rest) := by
    cases count with
    | zero => exact Word.ofBytes_of_ne_dash noDash rest
    | succ count => exact Word.ofBytes_of_ne_dash (by decide) _
  simp only [wordMentions?, shape, cluster]

theorem mentions_of_word {word : Bytes} (said : wordMentions? place word = some (mentions, none)) :
    mentions? place none [word] = some mentions := by
  rw [mentions?, said]
  simp [mentions?]

/-- A word that lacks a value has the next one for it. -/
theorem mentions_of_word_value {word value : Bytes} {parameter : Parameter}
    (said : wordMentions? place word = some (mentions, some parameter))
    (detachable : Detachable value) :
    mentions? place none [word, value] = some (mentions ++ [.value parameter value]) := by
  have plain := Word.ofBytes_of_detachable detachable
  rw [mentions?, said]
  simp [mentions?, plain]

/-- Each way to write a switch mentions it. -/
theorem mentions_of_spells (spells : Spells place mentions words) :
    mentions? place none words = some mentions := by
  cases spells with
  | @nameJoined parameter known value =>
      have shape := Word.ofBytes_name_value (Switch.equals_not_mem_longName (.parameter parameter))
        value
      apply mentions_of_word
      simp only [wordMentions?, shape, Switch.ofLong?_longName known]
  | @nameApart parameter known value detachable =>
      have shape := Word.ofBytes_name (Switch.longName_ne_nil (.parameter parameter))
        (Switch.equals_not_mem_longName (.parameter parameter))
      have said : wordMentions? place (dash :: dash :: (Switch.parameter parameter).longName) =
          some ([], some parameter) := by
        simp only [wordMentions?, shape, Switch.ofLong?_longName known]
      exact mentions_of_word_value said detachable
  | letterJoined known short count value =>
      apply mentions_of_word
      apply wordMentions_letters count (Switch.ne_dash_of_shortName short)
      simp [clusterMentions?, Switch.ofShort?_of_shortName known short]
  | letterBare known short count noEquals rest =>
      apply mentions_of_word
      apply wordMentions_letters count (Switch.ne_dash_of_shortName short)
      simp [clusterMentions?, Switch.ofShort?_of_shortName known short, noEquals]
  | @letterApart parameter known letter short count value detachable =>
      have cluster : clusterMentions? place [letter] = some ([], some parameter) := by
        simp only [clusterMentions?, Switch.ofShort?_of_shortName known short]
      have said := wordMentions_letters count (Switch.ne_dash_of_shortName short) cluster
      rw [List.append_nil] at said
      exact mentions_of_word_value said detachable
  | @flagName flag known =>
      have shape := Word.ofBytes_name (Switch.longName_ne_nil (.flag flag))
        (Switch.equals_not_mem_longName (.flag flag))
      apply mentions_of_word
      simp only [wordMentions?, shape, Switch.ofLong?_longName known]
  | flagLetters count =>
      have cluster : clusterMentions? place [] = some ([], none) := rfl
      have said := clusterMentions_verboseLetters (count + 1) cluster
      rw [List.append_nil, List.append_nil] at said
      have shape : Word.ofBytes (dash :: verboseLetters (count + 1)) =
          .short (verboseLetters (count + 1)) := Word.ofBytes_of_ne_dash (by decide) _
      apply mentions_of_word
      simp only [wordMentions?, shape, said]

/-- What is spelled out is mentioned. -/
theorem mentions_of_spelled (spelled : Spelled place mentions words) :
    mentions? place none words = some mentions := by
  induction spelled with
  | nil => rfl
  | cons spells _ ih => rw [mentions_append (mentions_of_spells spells), ih, Option.map_some]

/-- That words of a level say all that is to be given, in some order and each in some way. -/
def Given.SpelledBy (place : Option Command) (given : Given) (words : List Bytes) : Prop :=
  ∃ order, order.Perm given.toMentions ∧ Spelled place order words

theorem gives_of_spelledBy {given : Given} (sound : given.Sound)
    (spelled : given.SpelledBy place words) : Gives place words given := by
  obtain ⟨order, perm, spelled⟩ := spelled
  exact ⟨order, mentions_of_spelled spelled, sound.takeAll_of_perm perm⟩

/-! ## What can be wanted -/

/-- A path that can be given: any but the empty one. -/
structure NamedPath where
  path : Path
  named : path.bytes ≠ []

/-- What can be given on either level. -/
structure Common where
  dir : Option NamedPath
  base : Option NamedPath
  extra : Option NamedPath
  verbose : Nat
  limited : verbose ≤ 255

/-- A request and a text for it. -/
structure SpokenRequest where
  text : String
  request : Request
  accepted : Request.ofJson text = .ok request

/-- What can be wanted of the program, with all that only its command knows. -/
inductive Wish where
  | settings (request : Option SpokenRequest)
  | printDocument
  | saveDocument (output : Option NamedPath)

/-- The command for a wish. -/
def Wish.command : Wish → Command
  | .settings _ => .settings
  | .printDocument => .clangd
  | .saveDocument _ => .clangd

/-- What is to come of a wish, in a directory. -/
def Wish.goal (directory : Path) : Wish → Goal
  | .settings none => .settings .anyFile
  | .settings (some spoken) => .settings spoken.request
  | .printDocument => .printDocument
  | .saveDocument none => .saveDocument (directory.join (.ofText ".clangd"))
  | .saveDocument (some output) => .saveDocument (directory.join output.path)

/-- The path that is given behind the command, or else the one before it, or else the usual one. -/
def chosen (behind before : Option NamedPath) (usual : Path) : Path :=
  match behind, before with
  | some path, _ => path.path
  | none, some path => path.path
  | none, none => usual

/-- The values of the parameters that are known everywhere. -/
def Common.value? (common : Common) : Parameter → Option Bytes
  | .dir => common.dir.map fun given => given.path.bytes
  | .base => common.base.map fun given => given.path.bytes
  | .extra => common.extra.map fun given => given.path.bytes
  | .request => none
  | .output => none

/-- The values of the parameters that only a command knows. -/
def Wish.value? : Wish → Parameter → Option Bytes
  | .settings request, .request => request.map fun spoken => Utf8.encode spoken.text
  | .saveDocument output, .output => output.map fun given => given.path.bytes
  | _, _ => none

/-- What is to be given before a command. -/
def Common.outer (common : Common) : Given :=
  ⟨common.value?, common.verbose, false⟩

/-- What is to be given behind a command. -/
def Common.inner (common : Common) (wish : Wish) : Given where
  value? := fun parameter => (common.value? parameter).or (wish.value? parameter)
  verbose := common.verbose
  stdout :=
    match wish with
    | .printDocument => true
    | _ => false

theorem Common.admits {common : Common} {parameter : Parameter} {value : Bytes}
    (given : common.value? parameter = some value) : Given.Admits parameter value := by
  have named (path? : Option NamedPath)
      (own : (path?.map fun given => given.path.bytes) = some value) : value ≠ [] := by
    obtain ⟨path, -, rfl⟩ := Option.map_eq_some_iff.mp own
    exact path.named
  cases parameter with
  | dir => exact named common.dir given
  | base => exact named common.base given
  | extra => exact named common.extra given
  | request => cases given
  | output => cases given

theorem Wish.admits {wish : Wish} {parameter : Parameter} {value : Bytes}
    (given : wish.value? parameter = some value) : Given.Admits parameter value := by
  unfold Wish.value? at given
  split at given
  · obtain ⟨spoken, -, rfl⟩ := Option.map_eq_some_iff.mp given
    simp [Given.Admits]
  · obtain ⟨path, -, rfl⟩ := Option.map_eq_some_iff.mp given
    exact path.named
  · cases given

theorem Common.sound_outer (common : Common) : common.outer.Sound :=
  ⟨fun _ _ given => Common.admits given, common.limited⟩

theorem Common.sound_inner (common : Common) (wish : Wish) : (common.inner wish).Sound := by
  refine ⟨?_, common.limited⟩
  intro parameter value given
  rcases Option.or_eq_some_iff.mp given with own | ⟨-, own⟩
  · exact Common.admits own
  · exact Wish.admits own

/-- What a command is told for a wish. -/
def Wish.order : Wish → Order
  | .settings request => .settings (request.map SpokenRequest.text)
  | .printDocument => .clangd .stdout
  | .saveDocument none => .clangd (.file documentName)
  | .saveDocument (some output) => .clangd (.file output.path)

theorem combine_common (before behind : Common) (wish : Wish) :
    combine wish.command before.outer (behind.inner wish) =
      { dir := chosen behind.dir before.dir hereName
        base := chosen behind.base before.base FlagFile.baseName
        extra := chosen behind.extra before.extra FlagFile.extraName
        verbose := if behind.verbose = 0 then before.verbose else behind.verbose
        order := wish.order } := by
  obtain ⟨noDir, noBase, noExtra⟩ : wish.value? .dir = none ∧ wish.value? .base = none ∧
      wish.value? .extra = none := by
    cases wish <;> exact ⟨rfl, rfl, rfl⟩
  simp only [combine, Common.outer, Common.inner, noDir, noBase, noExtra, Option.or_none,
    Common.value?, Arguments.mk.injEq]
  refine ⟨?_, ?_, ?_, rfl, ?_⟩
  · cases behind.dir <;> cases before.dir <;> rfl
  · cases behind.base <;> cases before.base <;> rfl
  · cases behind.extra <;> cases before.extra <;> rfl
  cases wish with
  | settings request => cases request <;> simp [Wish.command, Wish.value?, Wish.order]
  | printDocument => rfl
  | saveDocument output => cases output <;> rfl

/-- A document does not go to two places. -/
theorem Common.onePlace (common : Common) (wish : Wish) :
    ¬((common.inner wish).stdout = true ∧ ((common.inner wish).value? .output).isSome = true) := by
  cases wish <;> simp [inner, Common.value?, Wish.value?]

end CommandLine

namespace Job

open CommandLine

/-- The job of a wish, with what is given before and behind its command. -/
theorem ofArguments_combine (before behind : Common) (wish : Wish) :
    ofArguments (combine wish.command before.outer (behind.inner wish)) = .ok
      { directory := chosen behind.dir before.dir hereName
        sources :=
          [(chosen behind.dir before.dir hereName).join
              (chosen behind.base before.base FlagFile.baseName),
            (chosen behind.dir before.dir hereName).join
              (chosen behind.extra before.extra FlagFile.extraName)]
        goal := wish.goal (chosen behind.dir before.dir hereName)
        verbose := if behind.verbose = 0 then before.verbose else behind.verbose } := by
  rw [combine_common]
  refine ofArguments_eq_ok_iff.mpr ⟨_, ?_, rfl⟩
  cases wish with
  | settings request =>
      cases request with
      | none => rfl
      | some spoken => simp only [Wish.order, Option.map_some, goalOf, spoken.accepted, Wish.goal]
  | printDocument => rfl
  | saveDocument output => cases output <;> rfl

end Job

namespace Program

open CommandLine

/-- **Whatever way it is written, a command line comes to what it spells out.** There may be any
of the switches that are known everywhere before the command and behind it, once on each side, or
several times for more output, and those of the command behind it, in any order. A path that is
given on both sides is the one behind the command, and so is the number of times that more output
is asked for, if it is any. -/
theorem job_of_spelled (before behind : Common) (wish : Wish) (front back : List Bytes)
    (spelledFront : before.outer.SpelledBy none front)
    (spelledBack : (behind.inner wish).SpelledBy (some wish.command) back) :
    Program.job (front ++ wish.command.word :: back) = .ok
      { directory := chosen behind.dir before.dir (.ofText ".")
        sources :=
          [(chosen behind.dir before.dir (.ofText ".")).join
              (chosen behind.base before.base (.ofText "compiler_options.txt")),
            (chosen behind.dir before.dir (.ofText ".")).join
              (chosen behind.extra before.extra (.ofText "compiler_options_extra.txt"))]
        goal := wish.goal (chosen behind.dir before.dir (.ofText "."))
        verbose := if behind.verbose = 0 then before.verbose else behind.verbose } := by
  have gives := gives_of_spelledBy before.sound_outer spelledFront
  have givesBehind := gives_of_spelledBy (behind.sound_inner wish) spelledBack
  have completes : Completes wish.command back (behind.inner wish) :=
    ⟨⟨back, .inl rfl, givesBehind⟩, behind.onePlace wish⟩
  refine job_eq_ok_iff.mpr ⟨_, ?_, Job.ofArguments_combine before behind wish⟩
  exact read_eq_ok_iff.mpr ⟨front, wish.command, back, _, _, rfl, gives, completes, rfl⟩

/-- A path that is written down. -/
def written (text : String) (nonempty : (Path.ofText text).bytes ≠ []) : Option NamedPath :=
  some ⟨.ofText text, nonempty⟩

/-- What is given before the command. -/
def bundleBefore : Common :=
  ⟨written "clangd" (by decide), none, none, 2, by decide⟩

/-- What is given behind the command. -/
def bundleBehind : Common :=
  ⟨written "/p" (by decide), written "-b" (by decide), none, 2, by decide⟩

/-- A value can look like a command or like a switch, and share a word with other switches. -/
theorem job_of_spelled_bundle :
    bundleBefore.outer.SpelledBy none (["-vC", "clangd", "-v"].map Utf8.encode) ∧
      (bundleBehind.inner (.saveDocument (written "-" (by decide)))).SpelledBy (some .clangd)
        (["--base=-b", "-o", "-", "-vvC/p"].map Utf8.encode) ∧
      Program.job (["-vC", "clangd", "-v", "clangd", "--base=-b", "-o", "-", "-vvC/p"].map
          Utf8.encode) = .ok
        { directory := .ofText "/p"
          sources := [.ofText "/p/-b", .ofText "/p/compiler_options_extra.txt"]
          goal := .saveDocument (.ofText "/p/-")
          verbose := 2 } := by
  have front : bundleBefore.outer.SpelledBy none (["-vC", "clangd", "-v"].map Utf8.encode) := by
    refine ⟨verboseMentions 1 ++ [.value .dir (Utf8.encode "clangd")] ++ (verboseMentions 1 ++ []),
      by decide, ?_⟩
    exact .cons (.letterApart rfl rfl 1 (.inr (by decide))) (.cons (.flagLetters 0) .nil)
  have back : (bundleBehind.inner (.saveDocument (written "-" (by decide)))).SpelledBy
      (some .clangd) (["--base=-b", "-o", "-", "-vvC/p"].map Utf8.encode) := by
    refine ⟨[.value .base (Utf8.encode "-b")] ++ (verboseMentions 0 ++ [.value .output [dash]] ++
      (verboseMentions 2 ++ [.value .dir (Utf8.encode "/p")] ++ [])), by decide, ?_⟩
    exact .cons (.nameJoined rfl _) (.cons (.letterApart rfl rfl 0 (.inl rfl))
      (.cons (.letterBare rfl rfl 2 (by decide) _) .nil))
  refine ⟨front, back, ?_⟩
  have asked := job_of_spelled bundleBefore bundleBehind
    (.saveDocument (written "-" (by decide))) _ _ front back
  refine asked.trans (congrArg Except.ok ?_)
  decide

end Program

end EditorFlags
