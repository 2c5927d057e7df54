import EditorFlags.Proofs.Clangd.Document

/-!
# Warnings about a document

While a line becomes an entry two things can be said of it: that the path of an include is no
text, and that several tokens have been put together. The second goes by what the entry has
counted; it comes to this, that the line has a space in it and is not an include in its plain
form (`endEvents_words`). A line that has been ended leaves an empty entry behind, so each line
is judged by itself (`log_render`).
-/

namespace EditorFlags.Clangd

open Lines

variable {base : Path}

/-! ## What is said of a path -/

/-- What is worth saying of a path that is put into a document: that it is no text. -/
def pathWarnings (path : Path) : List Event :=
  if path.text? = none then [.includeNotText path path.lossyText] else []

/-- What is said of the path of the include that a line is, if it is one. -/
def includeWarnings (base : Path) (line : String) : List Event :=
  match include? line with
  | some (operand, _) => pathWarnings (base.resolve (.ofText operand))
  | none => []

namespace Writer

variable {entry : Entry} {token : String} {tokens : List String}

theorem events_add_of_resolves (flag : entry.text = "-I")
    (dotted : token.toList.head? = some '.') :
    (entry.add base token).2 = pathWarnings (base.resolve (.ofText token)) := by
  have found := Entry.resolves_iff.mpr ⟨flag, dotted⟩
  simp only [Entry.add, found, if_true, pathWarnings, Option.isNone_iff_eq_none]

theorem events_add_of_not_resolves (plain : entry.text = "-I" → token.toList.head? ≠ some '.') :
    (entry.add base token).2 = [] := by
  have found : ¬ entry.resolves token = true := fun found =>
    plain (Entry.resolves_iff.mp found).1 (Entry.resolves_iff.mp found).2
  simp only [Entry.add, found, if_false, Bool.false_eq_true]

theorem tokenEvents_append (first second : List String) :
    tokenEvents base entry (first ++ second) =
      tokenEvents base entry first ++ tokenEvents base (entry.addAll base first) second := by
  induction first generalizing entry with
  | nil => rfl
  | cons token first ih =>
      rw [List.cons_append, tokenEvents, ih, tokenEvents, List.append_assoc, Entry.addAll_cons]

/-- Of tokens that are added as they are nothing is said. -/
theorem tokenEvents_plain (plain : Entry.Plain entry.text tokens) :
    tokenEvents base entry tokens = [] := by
  induction tokens generalizing entry with
  | nil => rfl
  | cons token tokens ih =>
      have added : (entry.add base token).1 = _ := Entry.add_of_not_resolves plain.first
      rw [tokenEvents, events_add_of_not_resolves plain.first, List.nil_append, added]
      exact ih plain.others

theorem tokenEvents_include (absolute : base.isAbsolute = true) {before after : List String}
    {operand : String} (flag : String.join before = "-I")
    (dotted : operand.toList.head? = some '.') :
    tokenEvents base .empty (before ++ operand :: after) =
      pathWarnings (base.resolve (.ofText operand)) := by
  have later : tokenEvents base (Entry.add base ⟨"-I", before.length, false⟩ operand).1 after =
      [] := by
    rw [Entry.add_of_resolves rfl dotted]
    exact tokenEvents_plain
      (Entry.plain_of_longer (Path.lossyText_resolve_ne_empty absolute _) after)
  rw [tokenEvents_append, tokenEvents_plain (Entry.plain_of_flag flag), Entry.addAll_flag flag,
    tokenEvents, events_add_of_resolves rfl dotted, later, List.nil_append, List.append_nil]

theorem tokenEvents_words (absolute : base.isAbsolute = true) (line : String) :
    tokenEvents base .empty (words line) = includeWarnings base line := by
  unfold includeWarnings
  split
  · next operand rest found =>
      have shape := isInclude_of_include? found
      obtain ⟨before, after, cut, flag, -⟩ := words_of_isInclude shape
      rw [cut, tokenEvents_include absolute flag shape.dotted]
  · next notFound => exact tokenEvents_plain (plain_words notFound)

end Writer

/-! ## What is said of a line -/

/-- That a line is the flag of an include, one space, and an operand that begins with a dot and
has no space in it. -/
def IsLoneInclude (line : String) : Prop :=
  ∃ operand : String, line = "-I " ++ operand ∧ operand.toList.head? = some '.' ∧
    ' ' ∉ operand.toList

/-- These are the includes with a single space. -/
theorem isLoneInclude_iff {line : String} :
    IsLoneInclude line ↔ (include? line).isSome ∧ line.toList.count ' ' = 1 := by
  have flag : "-I ".toList = ['-', 'I', ' '] := by decide
  constructor
  · rintro ⟨operand, rfl, dotted, spaceless⟩
    have shape : IsInclude ("-I " ++ operand) operand "" :=
      ⟨⟨0, 0, 0, by simp [flag]⟩, dotted, spaceless, .inl rfl⟩
    rw [include?_of_isInclude shape]
    refine ⟨rfl, ?_⟩
    rw [String.toList_append, List.count_append, List.count_eq_zero_of_not_mem spaceless, flag]
    rfl
  · rintro ⟨found, single⟩
    obtain ⟨⟨operand, rest⟩, found⟩ := Option.isSome_iff_exists.mp found
    have shape := isInclude_of_include? found
    obtain ⟨indent, gap, more, spelled⟩ := shape.spelled
    -- The space after the flag is the only one.
    have spaces : line.toList.count ' ' = indent + gap + (more + 1) + rest.toList.count ' ' := by
      rw [spelled]
      simp [List.count_eq_zero_of_not_mem shape.spaceless]
      omega
    obtain ⟨rfl, rfl, rfl, noSpace⟩ : indent = 0 ∧ gap = 0 ∧ more = 0 ∧
        rest.toList.count ' ' = 0 := by omega
    have nothing : rest = "" := by
      refine shape.apart.resolve_right fun spaced => ?_
      exact List.count_eq_zero.mp noSpace (List.mem_of_mem_head? spaced)
    refine ⟨operand, ?_, shape.dotted, shape.spaceless⟩
    rw [← String.toList_inj, spelled, nothing, String.toList_append, flag]
    simp

instance (line : String) : Decidable (IsLoneInclude line) :=
  decidable_of_iff _ isLoneInclude_iff.symm

/-- What is said of a line whose words have been put together. -/
def glueWarnings (base : Path) (line : String) : List Event :=
  if ' ' ∈ line.toList ∧ ¬IsLoneInclude line then
    [.gluedTokens (line.toList.count ' ' + 1) (lineEntry base line)]
  else []

theorem endEvents_words (absolute : base.isAbsolute = true) (line : String) :
    (Entry.empty.addAll base (words line)).endEvents = glueWarnings base line := by
  have glued : (Entry.mk (lineEntry base line) (line.toList.count ' ' + 1)
      (include? line).isSome).expected < line.toList.count ' ' + 1 ↔
      ' ' ∈ line.toList ∧ ¬IsLoneInclude line := by
    rw [isLoneInclude_iff, ← List.count_pos_iff]
    cases (include? line).isSome with
    | true =>
        simp only [Entry.expected, if_true, true_and]
        omega
    | false => simp [Entry.expected]
  rw [entry_words absolute, Entry.endEvents, glueWarnings]
  exact if_congr glued rfl rfl

/-! ## What is said of a document -/

theorem log_pushAll_groups {sink : Sink} (unlimited : sink.room = none)
    (groups : List (List String)) :
    (Writer.pushAll ⟨base, sink, .empty⟩ (Item.ofGroups groups [])).log =
      groups.flatMap fun tokens =>
        Writer.tokenEvents base .empty tokens ++ (Entry.empty.addAll base tokens).endEvents := by
  induction groups generalizing sink with
  | nil => rfl
  | cons tokens groups ih =>
      have stillUnlimited (bytes : Bytes) : (sink.append bytes).room = none := unlimited
      rw [Item.ofGroups_cons, @Writer.pushAll_group_of_ok ⟨base, sink, .empty⟩ _ _
        (Sink.write_unlimited unlimited), List.flatMap_cons, ← ih (stillUnlimited _),
        List.append_assoc]

theorem log_render (absolute : base.isAbsolute = true) (lines : List String) :
    (render base (lines.flatMap Item.ofLine)).log =
      lines.flatMap fun line => includeWarnings base line ++ glueWarnings base line := by
  have rendered (items : List Item) :
      (render base items).log = (write base items .unlimited).log := by
    unfold render
    dsimp only
    split <;> rfl
  have unlimited : (Sink.unlimited.append (Utf8.encode header)).room = none := rfl
  rw [rendered, Item.flatMap_ofLine_eq_ofGroups, write, Writer.start_unlimited,
    log_pushAll_groups unlimited, List.flatMap_map]
  apply List.flatMap_congr
  intro line _
  rw [Writer.tokenEvents_words absolute, endEvents_words absolute]

/-- A disk with one flag file, in which includes of all kinds and other lines follow each
other. -/
def warnedDisk : Disk :=
  ⟨⟨[([Utf8.encode "f"], .file (Utf8.encode "-I ./x\n -I ./x\n-c -g\n-I ../y\n-O2"))]⟩, []⟩

/-- A directory whose name is no text. -/
def brokenName : Path :=
  ⟨[Path.slash, 0xFF]⟩

end EditorFlags.Clangd
