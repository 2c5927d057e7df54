import EditorFlags.Proofs.Path.Resolve
import EditorFlags.Proofs.Text.Lossy

/-!
# Normal paths

What is resolved against an absolute base is a normal path, and it still is one after what is
no text in it has been replaced: replacing is done name by name (`mend_spell`), and gives a
name that is neither empty nor a directory's own name nor its parent's, for these are text
already (`isName_mend`).
-/

namespace EditorFlags.Path

/-- That a path begins at the root and, unless it is the root, goes on with names only. -/
structure IsNormal (path : Path) : Prop where
  absolute : path.isAbsolute = true
  named : path.bytes = [slash] ∨ ∀ piece ∈ path.pieces.tail, IsName piece

theorem isNormal_spell {names : List Bytes} (proper : ∀ name ∈ names, IsName name ∧ slash ∉ name) :
    IsNormal (spell true names) := by
  refine ⟨rfl, ?_⟩
  by_cases root : names = []
  · subst root
    exact Or.inl rfl
  · refine Or.inr fun piece member => ?_
    rw [pieces_spell_true (apart_of_isName proper) root] at member
    exact (proper piece member).1

/-! ## Paths shown as text -/

theorem ofText_lossyText (path : Path) : ofText path.lossyText = ⟨Utf8.mend path.bytes⟩ := rfl

theorem ofText_of_text? {path : Path} {text : String} (isText : path.text? = some text) :
    ofText text = path := by
  rw [ofText, Utf8.encode_of_decode? isText]

theorem lossyText_of_text? {path : Path} {text : String} (isText : path.text? = some text) :
    path.lossyText = text := by
  rw [← ofText_of_text? isText, lossyText, ofText, Utf8.lossy_encode]

theorem mend_intercalate (names : List Bytes) :
    Utf8.mend ([slash].intercalate names) = [slash].intercalate (names.map Utf8.mend) := by
  have ascii : slash.toNat < 0x80 := by decide
  induction names with
  | nil => simp [List.intercalate_nil]
  | cons name others ih =>
      by_cases last : others = []
      · subst last
        simp [List.intercalate_singleton]
      · rw [List.intercalate_cons_of_ne_nil last, List.append_assoc, List.singleton_append,
          Utf8.mend_append_ascii ascii, ih, List.map_cons,
          List.intercalate_cons_of_ne_nil (by simpa using last), List.append_assoc,
          List.singleton_append]

theorem mend_spell (rooted : Bool) (names : List Bytes) :
    Utf8.mend (spell rooted names).bytes = (spell rooted (names.map Utf8.mend)).bytes := by
  cases rooted with
  | false => exact mend_intercalate names
  | true =>
      have spelled (names : List Bytes) :
          (spell true names).bytes = [] ++ slash :: [slash].intercalate names := rfl
      rw [spelled, spelled, Utf8.mend_append_ascii (by decide), mend_intercalate, Utf8.mend_nil]

theorem slash_not_mem_mend {piece : Bytes} (whole : slash ∉ piece) : slash ∉ Utf8.mend piece :=
  fun member => whole (Utf8.mem_of_mem_mend (by decide) member)

theorem mend_eq_self_iff {piece : Bytes} : Utf8.mend piece = self ↔ piece = self :=
  Utf8.mend_eq_iff_of_ascii (by simp [self])

theorem mend_eq_parent_iff {piece : Bytes} : Utf8.mend piece = parent ↔ piece = parent :=
  Utf8.mend_eq_iff_of_ascii (by simp [parent])

theorem isName_mend_iff {piece : Bytes} : IsName (Utf8.mend piece) ↔ IsName piece := by
  have parts (piece : Bytes) :
      IsName piece ↔ piece ≠ [] ∧ piece ≠ self ∧ piece ≠ parent :=
    ⟨fun proper => ⟨proper.nonempty, proper.notSelf, proper.notParent⟩,
      fun ⟨nonempty, notSelf, notParent⟩ => ⟨nonempty, notSelf, notParent⟩⟩
  simp only [parts, ne_eq, Utf8.mend_eq_nil_iff, mend_eq_self_iff, mend_eq_parent_iff]

theorem isName_mend {name : Bytes} (proper : IsName name ∧ slash ∉ name) :
    IsName (Utf8.mend name) ∧ slash ∉ Utf8.mend name :=
  ⟨isName_mend_iff.mpr proper.1, slash_not_mem_mend proper.2⟩

/-- Shown as text, a resolved path spells the names of its stack, mended one by one. -/
theorem ofText_lossyText_resolve (base path : Path) :
    ofText (base.resolve path).lossyText =
      spell (base.join path).isAbsolute ((base.join path).settled.map Utf8.mend) := by
  rw [ofText_lossyText, resolve_eq_spell, mend_spell]

theorem isName_of_mem_mended {path : Path} {name : Bytes}
    (member : name ∈ path.settled.map Utf8.mend) : IsName name ∧ slash ∉ name := by
  obtain ⟨original, found, rfl⟩ := List.mem_map.mp member
  exact isName_mend (isName_of_mem_settled found)

/-- Resolved paths are shown as normal paths if they are joined to absolute ones, and only
then. -/
theorem isNormal_lossyText_resolve_iff {base path : Path} :
    IsNormal (ofText (base.resolve path).lossyText) ↔ (base.join path).isAbsolute = true := by
  rw [ofText_lossyText_resolve]
  constructor
  · intro normal
    have absolute := normal.absolute
    rwa [isAbsolute_spell (apart_of_isName fun _ => isName_of_mem_mended)] at absolute
  · intro rooted
    rw [rooted]
    exact isNormal_spell fun _ => isName_of_mem_mended

end EditorFlags.Path
