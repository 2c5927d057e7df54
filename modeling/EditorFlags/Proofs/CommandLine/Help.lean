import EditorFlags.CommandLine.Help
import EditorFlags.Proofs.CommandLine.Accepted

/-!
# What help shows, and about what

A page shows just the switches that can be given at its place (`Switch.mem_shown_iff`), and the
explanations of a table stand below one another. What help is about depends on where the words
that ask for it stand: words that are read before them only lead there (`topicFrom_append`).
-/

namespace EditorFlags.CommandLine

open Reading

/-! ## Pages -/

namespace Switch

theorem mem_listed (switch : Switch) : switch ∈ listed := by
  cases switch with
  | parameter parameter => cases parameter <;> decide
  | flag flag => cases flag <;> decide

/-- A page shows what is known at its place, and nothing else. -/
theorem mem_shown_iff {place : Option Command} {switch : Switch} :
    switch ∈ shown place ↔ switch.isKnown place = true := by
  rw [shown, List.mem_filter, and_iff_right (mem_listed switch)]

example : (shown (some .clangd)).map entry =
    ["-C, --dir <DIR>", "-o, --output <OUTPUT>", "    --base <BASE>", "    --stdout",
      "    --extra <EXTRA>", "-v, --verbose...", "-h, --help"] := by cbv

/-- The value that is shown for a switch is the one that counts if it is not given. -/
theorem default_combine (command : Command) :
    let arguments := combine command .nothing .nothing
    default? (.parameter .dir) = some arguments.dir ∧
      default? (.parameter .base) = some arguments.base ∧
      default? (.parameter .extra) = some arguments.extra :=
  ⟨rfl, rfl, rfl⟩

end Switch

namespace Help

namespace Table

variable {table : Table} {row : String × String}

theorem length_le_width (member : row ∈ table.rows) : row.1.length ≤ table.width := by
  unfold width
  generalize table.rows = rows at member
  induction member with
  | head rest => exact Nat.le_max_left _ _
  | tail first _ ih => exact Nat.le_trans ih (Nat.le_max_right _ _)

theorem length_filled (member : row ∈ table.rows) :
    (table.filled row.1).length = table.width := by
  have fits := length_le_width member
  rw [filled, List.length_append, List.length_replicate, String.length_toList]
  omega

/-- In all lines of a table the explanation begins in the same column. -/
theorem drop_line (member : row ∈ table.rows) :
    (table.line row).toList.drop (table.width + 4) = row.2.toList ++ ['\n'] := by
  have filled := length_filled member
  have spaced : (table.line row).toList =
      ([' ', ' '] ++ table.filled row.1 ++ [' ', ' ']) ++ (row.2.toList ++ ['\n']) := by
    simp [line]
  rw [spaced, List.drop_left' (by simp [filled])]

end Table

/-! ## Topics -/

variable {reading last : Reading} {front : List Bytes}

/-- A word that is neither a command nor the word for help is read for what it is. -/
theorem topicFrom_cons {word : Bytes}
    (noCommand : ¬(reading.expectsCommand = true ∧ isCommandWord word = true))
    (more : List Bytes) :
    topicFrom reading (word :: more) =
      (reading.readWord none word).toOption.elim .program fun next => topicFrom next more := by
  rw [topicFrom]
  cases place : reading.expectsCommand with
  | false => cases reading.readWord none word <;> rfl
  | true =>
      simp only [place, true_and, isCommandWord, Bool.or_eq_true, not_or] at noCommand
      obtain ⟨noHelp, noCommand⟩ := noCommand
      rw [if_neg (by simp [noHelp]), if_pos rfl, Option.not_isSome_iff_eq_none.mp noCommand]
      cases reading.readWord none word <;> rfl

/-- Words that are read lead to what stands behind them. -/
theorem topicFrom_append (read : reading.readWords none front = .ok last) (rest : List Bytes) :
    topicFrom reading (front ++ rest) = topicFrom last rest := by
  induction front generalizing reading with
  | nil => rw [Except.ok.inj read, List.nil_append]
  | cons word front ih =>
      obtain ⟨next, step, read⟩ := bind_eq_ok_iff.mp read
      have noCommand : ¬(reading.expectsCommand = true ∧ isCommandWord word = true) := by
        rintro ⟨place, meant⟩
        exact readWord_ne_ok_of_isCommandWord place meant step
      rw [List.cons_append, topicFrom_cons noCommand, step]
      exact ih read

theorem topicFrom_command (expects : reading.expectsCommand = true) (command : Command)
    (behind : List Bytes) : topicFrom reading (command.word :: behind) = .of command := by
  have known : Command.ofWord? command.word = some command := by cases command <;> cbv
  have noHelp : (command.word == helpWord) = false := by cases command <;> cbv
  rw [topicFrom, if_neg (by simp [noHelp]), expects, if_pos rfl, known]

theorem topicFrom_helpWord (expects : reading.expectsCommand = true) (rest : List Bytes) :
    topicFrom reading (helpWord :: rest) = .ofWords rest := by
  rw [topicFrom, if_pos (by simp [expects])]

/-- Help is not taken in among other mentions. -/
theorem takeAll_ne_ok_of_help {given : Given} {mentions : List Mention}
    (asked : .flag .help ∈ mentions) (taken : Given) : given.takeAll mentions ≠ .ok taken := by
  induction mentions generalizing given with
  | nil => cases asked
  | cons mention rest ih =>
      intro all
      obtain ⟨next, step, later⟩ := bind_eq_ok_iff.mp all
      rcases List.mem_cons.mp asked with rfl | more
      · cases step
      · exact ih more later

theorem topicFrom_switch {word : Bytes} {mentions : List Mention} {owed : Option Parameter}
    (switches : reading.plainOnly = false)
    (said : wordMentions? none word = some (mentions, owed)) (asked : .flag .help ∈ mentions)
    (more : List Bytes) : topicFrom reading (word :: more) = .program := by
  have noCommand : ¬isCommandWord word = true := by
    intro meant
    simp [wordMentions?, plain_of_isCommandWord meant] at said
  rw [topicFrom_cons fun meant => noCommand meant.2, readWord_of_mentions switches said]
  cases settled : reading.settle with
  | error refusal => rfl
  | ok given =>
      show ((given.takeAll mentions).map (reading.after owed)).toOption.elim Topic.program _ = _
      cases taken : given.takeAll mentions with
      | error refusal => rfl
      | ok next => exact absurd taken (takeAll_ne_ok_of_help asked next)

/-- **Help is about what it is asked about.** Behind words that have been read it is about the
command that follows, wherever it is asked for behind that, or about what follows the word for
help. Asked for by a switch that stands before any command, it is about the program. -/
theorem answer_eq {outer : Given} (gives : Gives none front outer) :
    (∀ command behind,
      answer (front ++ command.word :: behind) = (Topic.of command).page.render) ∧
    (∀ rest, answer (front ++ helpWord :: rest) = (Topic.ofWords rest).page.render) ∧
    ∀ word mentions owed more, wordMentions? none word = some (mentions, owed) →
      .flag .help ∈ mentions → answer (front ++ word :: more) = Topic.program.page.render := by
  obtain ⟨last, read, switches, settled⟩ := gives_iff.mp gives
  have expects := expectsCommand_iff.mpr ⟨owed_of_settle settled, switches⟩
  simp only [answer, topicFrom_append read]
  refine ⟨fun command behind => ?_, fun rest => ?_, fun word mentions owed more said asked => ?_⟩
  · rw [topicFrom_command expects]
  · rw [topicFrom_helpWord expects]
  · rw [topicFrom_switch switches said asked]

end Help

end EditorFlags.CommandLine
