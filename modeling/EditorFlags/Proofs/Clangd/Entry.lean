import EditorFlags.Clangd.Entry
import EditorFlags.Proofs.Path.Resolve

/-!
# Tokens put together

What becomes of an entry when the tokens of a line are added one after the
other. As long as none of them is resolved (`Plain`) the text grows by the tokens
as they are (`addAll_plain`). Where one is resolved, the tokens before it spell
exactly `-I`; since what an absolute base resolves to is never empty, the text
cannot be `-I` again, and what follows is added as it is (`addAll_include`).
-/

namespace EditorFlags.Clangd.Entry

/-- The entry with some more tokens, one after the other. -/
def addAll (base : Path) (entry : Entry) (tokens : List String) : Entry :=
  tokens.foldl (fun entry token => (entry.add base token).1) entry

variable {base : Path} {entry : Entry}

@[simp] theorem addAll_nil : entry.addAll base [] = entry := rfl

@[simp] theorem addAll_cons (token : String) (tokens : List String) :
    entry.addAll base (token :: tokens) = (entry.add base token).1.addAll base tokens := rfl

theorem addAll_append (first second : List String) :
    entry.addAll base (first ++ second) = (entry.addAll base first).addAll base second :=
  List.foldl_append

/-! ## One token -/

/-- A token is resolved if it begins with `.` and the text so far is `-I`. -/
theorem resolves_iff {token : String} :
    entry.resolves token = true ↔ entry.text = "-I" ∧ token.toList.head? = some '.' := by
  simp [resolves, includeFlag]

theorem add_of_resolves {token : String} (flag : entry.text = "-I")
    (dotted : token.toList.head? = some '.') :
    (entry.add base token).1 =
      ⟨"-I" ++ (base.resolve (.ofText token)).lossyText, entry.tokens + 1, true⟩ := by
  have found := resolves_iff.mpr ⟨flag, dotted⟩
  simp only [add, found, if_true, flag]

theorem add_of_not_resolves {token : String}
    (plain : entry.text = "-I" → token.toList.head? ≠ some '.') :
    (entry.add base token).1 = ⟨entry.text ++ token, entry.tokens + 1, entry.resolved⟩ := by
  have found : ¬ entry.resolves token = true := fun found =>
    plain (resolves_iff.mp found).1 (resolves_iff.mp found).2
  simp only [add, found, if_false, Bool.false_eq_true]

/-! ## Tokens that are added as they are -/

/-- That none of some tokens is resolved when they are added to a text: a token before which
they and the text spell the flag has no dot at its beginning. -/
def Plain (text : String) (tokens : List String) : Prop :=
  ∀ before token after, tokens = before ++ token :: after →
    text ++ String.join before = "-I" → token.toList.head? ≠ some '.'

theorem Plain.first {text token : String} {tokens : List String}
    (plain : Plain text (token :: tokens)) : text = "-I" → token.toList.head? ≠ some '.' := by
  intro flag
  exact plain [] token tokens rfl (by simpa using flag)

theorem Plain.others {text token : String} {tokens : List String}
    (plain : Plain text (token :: tokens)) : Plain (text ++ token) tokens := by
  intro before next after cut flag
  apply plain (token :: before) next after (by rw [cut, List.cons_append])
  simpa [String.append_assoc] using flag

/-- A text that goes on after the flag is not the flag again. -/
theorem plain_of_longer {operand : String} (nonempty : operand ≠ "") (tokens : List String) :
    Plain ("-I" ++ operand) tokens := by
  intro before token after _ flag
  rw [String.append_assoc, String.append_eq_left_iff] at flag
  exact absurd (String.append_eq_empty_iff.mp flag).1 nonempty

/-- Once tokens spell a text, what follows while they spell it is empty. -/
theorem eq_empty_of_join {before rest : List String} {token text : String}
    (spelled : String.join before = text)
    (still : String.join (before ++ token :: rest) = text) : token = "" := by
  rw [String.join_append, String.join_cons, spelled, String.append_eq_left_iff] at still
  exact (String.append_eq_empty_iff.mp still).1

/-- What is left of tokens that spell the flag is empty, and so not dotted. -/
theorem plain_of_flag {tokens : List String} (flag : String.join tokens = "-I") :
    Plain "" tokens := by
  intro before token after cut spelled
  rw [String.empty_append] at spelled
  have nothing : token = "" := eq_empty_of_join spelled (cut ▸ flag)
  simp [nothing]

theorem addAll_plain {tokens : List String} (plain : Plain entry.text tokens) :
    entry.addAll base tokens =
      ⟨entry.text ++ String.join tokens, entry.tokens + tokens.length, entry.resolved⟩ := by
  induction tokens generalizing entry with
  | nil => simp
  | cons token tokens ih =>
      have added : (entry.add base token).1 = _ := add_of_not_resolves plain.first
      rw [addAll_cons, added, ih plain.others]
      simp [String.append_assoc, Nat.add_assoc, Nat.add_comm 1]

/-! ## All tokens of a line -/

/-- The tokens before the operand of an include spell its flag. -/
theorem addAll_flag {before : List String} (flag : String.join before = "-I") :
    empty.addAll base before = ⟨"-I", before.length, false⟩ := by
  rw [addAll_plain (plain_of_flag flag), flag]
  simp [empty]

theorem addAll_include (absolute : base.isAbsolute = true) {before after : List String}
    {operand : String} (flag : String.join before = "-I")
    (dotted : operand.toList.head? = some '.') :
    empty.addAll base (before ++ operand :: after) =
      ⟨"-I" ++ (base.resolve (.ofText operand)).lossyText ++ String.join after,
        before.length + 1 + after.length, true⟩ := by
  rw [addAll_append, addAll_flag flag, addAll_cons, add_of_resolves rfl dotted,
    addAll_plain (plain_of_longer (Path.lossyText_resolve_ne_empty absolute _) after)]

end EditorFlags.Clangd.Entry
