import EditorFlags.Proofs.Clangd.Writer
import Mathlib

/-!
# Documents of any items

A list of items need not come from lines. Cut at the ends of line it is a number of groups of
tokens, which may be empty, and the tokens after the last end of line. The document has one
entry for each group, and nothing for those last tokens (`outcome_write_groups`). In a group at
most one token is resolved: the one before which the tokens spell exactly `-I`, if it begins with
a dot (`IncludesAt.unique`).
-/

namespace EditorFlags

namespace Item

/-- The items of some groups of tokens, each with its end of line, and of the tokens that come
after all of these. -/
def ofGroups (groups : List (List String)) (rest : List String) : List Item :=
  groups.flatMap (fun tokens => tokens.map .token ++ [.endOfLine]) ++ rest.map .token

theorem ofGroups_cons (tokens : List String) (groups : List (List String)) (rest : List String) :
    ofGroups (tokens :: groups) rest =
      tokens.map .token ++ .endOfLine :: ofGroups groups rest := by
  simp [ofGroups]

/-- The tokens before each end of line. -/
def ended : List Item → List (List String)
  | [] => []
  | .endOfLine :: rest => [] :: ended rest
  | .token text :: rest =>
      match ended rest with
      | [] => []
      | tokens :: others => (text :: tokens) :: others

/-- The tokens after the last end of line. -/
def unended : List Item → List String
  | [] => []
  | .endOfLine :: rest => unended rest
  | .token text :: rest =>
      match ended rest with
      | [] => text :: unended rest
      | _ :: _ => unended rest

/-- All items come in that way. -/
theorem ofGroups_ended (items : List Item) : ofGroups (ended items) (unended items) = items := by
  induction items with
  | nil => rfl
  | cons item items ih =>
      cases item with
      | endOfLine =>
          show ofGroups ([] :: ended items) (unended items) = _
          rw [ofGroups_cons, ih]
          rfl
      | token text =>
          rw [ended, unended]
          -- A token belongs to the first group, if there is one.
          cases groups : ended items with
          | nil =>
              rw [groups] at ih
              show .token text :: ofGroups [] (unended items) = _
              rw [ih]
          | cons tokens others =>
              rw [groups, ofGroups_cons] at ih
              show ofGroups ((text :: tokens) :: others) (unended items) = _
              rw [ofGroups_cons]
              show .token text :: (tokens.map .token ++ .endOfLine :: ofGroups others _) = _
              rw [ih]

theorem flatMap_ofLine_eq_ofGroups (lines : List String) :
    lines.flatMap ofLine = ofGroups (lines.map Lines.words) [] := by
  rw [ofGroups, List.flatMap_map, List.map_nil, List.append_nil]
  rfl

end Item

namespace Clangd

variable {base : Path}

/-! ## One entry for each group -/

/-- The lines of a document for some groups of tokens. -/
def groupLines (base : Path) (groups : List (List String)) : String :=
  String.join (groups.map fun tokens => (Entry.empty.addAll base tokens).line)

theorem groupLines_cons (base : Path) (tokens : List String) (groups : List (List String)) :
    groupLines base (tokens :: groups) =
      (Entry.empty.addAll base tokens).line ++ groupLines base groups := by
  simp [groupLines]

/-- The entries of some groups as they are written, one after the other. -/
def groupParts (base : Path) (groups : List (List String)) : List Bytes :=
  groups.map fun tokens => Utf8.encode (Entry.empty.addAll base tokens).line

theorem flatten_groupParts (base : Path) (groups : List (List String)) :
    (groupParts base groups).flatten = Utf8.encode (groupLines base groups) := by
  induction groups with
  | nil => rfl
  | cons tokens groups ih =>
      rw [groupLines_cons, Utf8.encode_append, ← ih]
      rfl

theorem pushAll_groups (sink : Sink) (groups : List (List String)) (rest : List String) :
    (Writer.pushAll ⟨base, sink, .empty⟩ (Item.ofGroups groups rest)).outcome =
      sink.deliver (groupParts base groups) := by
  induction groups generalizing sink with
  | nil =>
      have only : Item.ofGroups [] rest = rest.map .token ++ [] := by simp [Item.ofGroups]
      rw [only, Writer.pushAll_tokens]
      rfl
  | cons tokens groups ih =>
      rw [Item.ofGroups_cons]
      rcases written : sink.write (Utf8.encode (Entry.empty.addAll base tokens).line) with
        ⟨after, result⟩
      cases result with
      | ok =>
          -- The group leaves an empty entry behind, so the next one starts as this one did.
          rw [@Writer.pushAll_group_of_ok ⟨base, sink, .empty⟩ _ _ written]
          exact (ih after).trans (Sink.deliver_of_ok written _).symm
      | error fault =>
          rw [@Writer.pushAll_group_of_error ⟨base, sink, .empty⟩ _ _ _ written]
          exact (Sink.deliver_of_error written _).symm

/-- A document is written in one part for its header and one for each entry. -/
theorem outcome_write_groups (base : Path) (sink : Sink) (groups : List (List String))
    (rest : List String) :
    (write base (Item.ofGroups groups rest) sink).outcome =
      sink.deliver [Utf8.encode (header ++ groupLines base groups)] := by
  have parts : Utf8.encode (header ++ groupLines base groups) =
      (Utf8.encode header :: groupParts base groups).flatten := by
    rw [List.flatten_cons, flatten_groupParts, Utf8.encode_append]
  rw [parts, ← Sink.deliver_flatten, write, Writer.start]
  rcases written : sink.write (Utf8.encode header) with ⟨after, result⟩
  cases result with
  | ok =>
      rw [Sink.deliver_of_ok written]
      exact pushAll_groups after groups rest
  | error fault =>
      rw [Sink.deliver_of_error written]
      rfl

theorem write_groups {sink : Sink} (unlimited : sink.room = none) (groups : List (List String))
    (rest : List String) :
    (write base (Item.ofGroups groups rest) sink).sink.written =
        sink.written ++ Utf8.encode (header ++ groupLines base groups) ∧
      (write base (Item.ofGroups groups rest) sink).result = sink.flush := by
  have outcome := outcome_write_groups base sink groups rest
  rw [Sink.deliver_unlimited unlimited] at outcome
  obtain ⟨after, result⟩ := Prod.mk.inj outcome
  refine ⟨?_, result⟩
  rw [after, Sink.written_append, List.flatten_singleton]

/-- Rendering never fails. -/
theorem result_render_groups (base : Path) (groups : List (List String)) (rest : List String) :
    (render base (Item.ofGroups groups rest)).result = .ok (header ++ groupLines base groups) := by
  obtain ⟨written, flushed⟩ := @write_groups base .unlimited rfl groups rest
  have nothing : Sink.unlimited.written = [] := rfl
  have willing : Sink.unlimited.flush = .ok () := rfl
  rw [nothing, List.nil_append] at written
  rw [willing] at flushed
  simp only [render, written, flushed, Utf8.decode?_encode]

/-! ## The token that is resolved -/

/-- That the token at a place is the operand of an include: it begins with a dot, and the tokens
before it spell the flag. -/
structure IncludesAt (tokens : List String) (place : Nat) (operand : String) : Prop where
  there : tokens[place]? = some operand
  flag : String.join (tokens.take place) = "-I"
  dotted : operand.toList.head? = some '.'

theorem drop_of_getElem? {tokens : List String} {place : Nat} {token : String}
    (there : tokens[place]? = some token) :
    tokens.drop place = token :: tokens.drop (place + 1) := by
  obtain ⟨inside, rfl⟩ := List.getElem?_eq_some_iff.mp there
  exact List.drop_eq_getElem_cons inside

theorem eq_take_append {tokens : List String} {place : Nat} {token : String}
    (there : tokens[place]? = some token) :
    tokens = tokens.take place ++ token :: tokens.drop (place + 1) := by
  rw [← drop_of_getElem? there, List.take_append_drop]

theorem includesAt_length {before after : List String} {operand : String}
    (flag : String.join before = "-I") (dotted : operand.toList.head? = some '.') :
    IncludesAt (before ++ operand :: after) before.length operand := by
  refine ⟨by simp, ?_, dotted⟩
  rw [List.take_left, flag]

namespace IncludesAt

variable {tokens : List String} {place other : Nat} {operand operandToo : String}

/-- After the operand of an include the tokens no longer spell its flag. -/
theorem le_of_flag (includes : IncludesAt tokens place operand)
    (flag : String.join (tokens.take other) = "-I") : other ≤ place := by
  by_contra further
  obtain ⟨more, otherIs⟩ := Nat.exists_eq_add_of_lt (Nat.lt_of_not_le further)
  have longer : tokens.take other = tokens.take place ++
      operand :: (tokens.drop (place + 1)).take more := by
    rw [otherIs, Nat.add_assoc, List.take_add, drop_of_getElem? includes.there,
      List.take_succ_cons]
  have nothing : operand = "" := Entry.eq_empty_of_join includes.flag (longer ▸ flag)
  have dotted := includes.dotted
  rw [nothing] at dotted
  cases dotted

/-- There is one operand at most. -/
theorem unique (includes : IncludesAt tokens place operand)
    (includesToo : IncludesAt tokens other operandToo) : place = other :=
  Nat.le_antisymm (includesToo.le_of_flag includes.flag) (includes.le_of_flag includesToo.flag)

end IncludesAt

/-- How the tokens of a group come to the text of their entry. -/
structure Glues (base : Path) (tokens : List String) (text : String) : Prop where
  /-- The operand of an include is resolved, and what comes after it is added as it is. -/
  included : ∀ place operand, IncludesAt tokens place operand →
    text = "-I" ++ (base.resolve (.ofText operand)).lossyText ++
      String.join (tokens.drop (place + 1))
  /-- Where nothing is included all tokens are. -/
  plain : (¬∃ place operand, IncludesAt tokens place operand) → text = String.join tokens
  /-- A token is resolved when it comes if it is the operand of an include, and only then. -/
  resolved : ∀ place token, tokens[place]? = some token →
    ((Entry.empty.addAll base (tokens.take place)).resolves token = true ↔
      IncludesAt tokens place token)
  /-- So one token at most is resolved. -/
  once : ∀ place other operand operandToo, IncludesAt tokens place operand →
    IncludesAt tokens other operandToo → place = other

theorem text_addAll_of_includesAt (absolute : base.isAbsolute = true) {tokens : List String}
    {place : Nat} {operand : String} (includes : IncludesAt tokens place operand) :
    (Entry.empty.addAll base tokens).text =
      "-I" ++ (base.resolve (.ofText operand)).lossyText ++
        String.join (tokens.drop (place + 1)) := by
  have cut : Entry.empty.addAll base
      (tokens.take place ++ operand :: tokens.drop (place + 1)) = _ :=
    Entry.addAll_include absolute includes.flag includes.dotted
  rw [← eq_take_append includes.there] at cut
  rw [cut]

theorem text_addAll_of_plain {tokens : List String}
    (plain : ¬∃ place operand, IncludesAt tokens place operand) :
    (Entry.empty.addAll base tokens).text = String.join tokens := by
  have asTheyAre : Entry.Plain "" tokens := by
    intro before token after cut flag dotted
    rw [String.empty_append] at flag
    exact plain ⟨before.length, token, cut ▸ includesAt_length flag dotted⟩
  rw [Entry.addAll_plain asTheyAre]
  simp [Entry.empty]

/-- The text of an entry is the flag when the tokens spell it, and only then. -/
theorem text_addAll_eq_flag_iff (absolute : base.isAbsolute = true) (tokens : List String) :
    (Entry.empty.addAll base tokens).text = "-I" ↔ String.join tokens = "-I" := by
  by_cases included : ∃ place operand, IncludesAt tokens place operand
  · obtain ⟨place, operand, includes⟩ := included
    -- A path has been put after the flag, and tokens have followed the flag as well.
    refine iff_of_false ?_ ?_
    · intro same
      rw [text_addAll_of_includesAt absolute includes, String.append_assoc,
        String.append_eq_left_iff, String.append_eq_empty_iff] at same
      exact Path.lossyText_resolve_ne_empty absolute _ same.1
    · intro flag
      have inside := (List.getElem?_eq_some_iff.mp includes.there).1
      have whole : tokens.take tokens.length = tokens := List.take_length
      exact absurd (includes.le_of_flag (whole.symm ▸ flag)) (Nat.not_le.mpr inside)
  · rw [text_addAll_of_plain included]

theorem glues_addAll (absolute : base.isAbsolute = true) (tokens : List String) :
    Glues base tokens (Entry.empty.addAll base tokens).text := by
  refine ⟨fun _ _ => text_addAll_of_includesAt absolute, text_addAll_of_plain, ?_,
    fun _ _ _ _ => IncludesAt.unique⟩
  intro place token there
  rw [Entry.resolves_iff, text_addAll_eq_flag_iff absolute]
  constructor
  · rintro ⟨flag, dotted⟩
    exact ⟨there, flag, dotted⟩
  · intro includes
    exact ⟨includes.flag, includes.dotted⟩

/-- **The document of any items.** Written to a destination that takes everything, and rendered
as well, items come to the header and an entry for each end of line, whose text is glued from
the tokens before it; the tokens after the last end of line come to nothing. -/
theorem write_items (base : Path) (absolute : base.isAbsolute = true) (items : List Item)
    (sink : Sink) (unlimited : sink.room = none) (flushes : sink.flushes = true) :
    items = Item.ofGroups (Item.ended items) (Item.unended items) ∧
      ∃ texts document, List.Forall₂ (Glues base) (Item.ended items) texts ∧
        document = "CompileFlags:\n  Add:\n" ++
          String.join (texts.map fun text => "    - " ++ text ++ "\n") ∧
        (write base items sink).result = .ok () ∧
        (write base items sink).sink.written = sink.written ++ Utf8.encode document ∧
        (render base items).result = .ok document := by
  refine ⟨(Item.ofGroups_ended items).symm,
    (Item.ended items).map fun tokens => (Entry.empty.addAll base tokens).text,
    header ++ groupLines base (Item.ended items), ?_, ?_, ?_⟩
  · rw [List.forall₂_map_right_iff, List.forall₂_same]
    exact fun tokens _ => glues_addAll absolute tokens
  · rw [List.map_map]
    rfl
  · obtain ⟨written, flushed⟩ :=
      @write_groups base sink unlimited (Item.ended items) (Item.unended items)
    have rendered := result_render_groups base (Item.ended items) (Item.unended items)
    rw [Item.ofGroups_ended] at written flushed rendered
    refine ⟨?_, written, rendered⟩
    rw [flushed, Sink.flush, if_pos flushes]

/-- Items in which a flag is spelled by several tokens, two ends of line follow each other, and
the last token has no end of line. -/
def looseItems : List Item :=
  [.token "", .token "-", .token "I", .token "", .token ".", .token ".x", .endOfLine, .endOfLine,
    .token "-I", .token "-g", .token "./y", .endOfLine, .token "-c"]

/-- Of the two tokens behind the flag only the first is resolved, and the last token is
dropped. -/
theorem write_items_loose :
    (Path.ofText "/p").isAbsolute = true ∧
      Item.ended looseItems = [["", "-", "I", "", ".", ".x"], [], ["-I", "-g", "./y"]] ∧
      Item.unended looseItems = ["-c"] ∧
      (render (.ofText "/p") looseItems).result =
        .ok "CompileFlags:\n  Add:\n    - -I/p.x\n    - \n    - -I-g./y\n" := by
  have absolute : (Path.ofText "/p").isAbsolute = true := by cbv
  obtain ⟨-, texts, document, glued, rfl, -, -, rendered⟩ :=
    write_items (.ofText "/p") absolute looseItems .unlimited rfl rfl
  have groups : Item.ended looseItems =
      [["", "-", "I", "", ".", ".x"], [], ["-I", "-g", "./y"]] := rfl
  rw [groups, List.forall₂_cons_left_iff] at glued
  obtain ⟨first, _, glued, later, rfl⟩ := glued
  rw [List.forall₂_cons_left_iff] at later
  obtain ⟨second, _, gluedToo, later, rfl⟩ := later
  rw [List.forall₂_cons_left_iff] at later
  obtain ⟨third, _, gluedLast, later, rfl⟩ := later
  obtain rfl := List.forall₂_nil_left_iff.mp later
  have firstIs := glued.included 4 "." ⟨rfl, by cbv, by cbv⟩
  have secondIs := gluedToo.plain (by
    rintro ⟨place, operand, there, -, -⟩
    cases there)
  have thirdIs := gluedLast.plain (by
    rintro ⟨place, operand, there, flag, dotted⟩
    -- The flag is spelled by the first token, and the second one has no dot.
    rcases place with _ | _ | _ | place
    · exact absurd flag (by decide)
    · obtain rfl := Option.some.inj there
      exact absurd dotted (by decide)
    · exact absurd flag (by decide)
    · cases there)
  refine ⟨absolute, groups, rfl, ?_⟩
  rw [rendered, firstIs, secondIs, thirdIs]
  cbv

end Clangd

end EditorFlags
