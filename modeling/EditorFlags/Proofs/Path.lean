import EditorFlags.Path
import EditorFlags.Proofs.Text.Utf8

/-!
# Absolute paths stay absolute

Joining takes the root away from no absolute path, so what is seen from an absolute
directory and what is made absolute is absolute.
-/

namespace EditorFlags.Path

/-- An absolute path is the root separator and what follows it. -/
theorem isAbsolute_iff {path : Path} :
    path.isAbsolute = true ↔ ∃ rest, path.bytes = slash :: rest := by
  cases h : path.bytes with
  | nil => simp [isAbsolute, h]
  | cons first rest => simp [isAbsolute, h]

theorem isAbsolute_join {left : Path} (absolute : left.isAbsolute = true) (right : Path) :
    (left.join right).isAbsolute = true := by
  obtain ⟨rest, spelled⟩ := isAbsolute_iff.mp absolute
  unfold join
  split
  · assumption
  · split
    · exact isAbsolute_iff.mpr ⟨rest ++ right.bytes, by rw [spelled, List.cons_append]⟩
    · exact isAbsolute_iff.mpr ⟨rest ++ slash :: right.bytes, by rw [spelled, List.cons_append]⟩

/-- Joining a relative path does not change whether a path begins at the root. -/
theorem isAbsolute_join_relative {right : Path} (relative : right.isAbsolute = false)
    (left : Path) : (left.join right).isAbsolute = left.isAbsolute := by
  rw [join, if_neg (by simp [relative])]
  cases spelled : left.bytes with
  | nil =>
      have nothing : left.isAbsolute = false := by simp [isAbsolute, spelled]
      simpa [nothing] using relative
  | cons first rest =>
      split <;> simp [isAbsolute, spelled]

/-- A text that begins with a dot spells a relative path. -/
theorem isAbsolute_ofText_of_dot {text : String} (dotted : text.toList.head? = some '.') :
    (ofText text).isAbsolute = false := by
  cases chars : text.toList with
  | nil => simp [chars] at dotted
  | cons dot rest =>
      obtain rfl : dot = '.' := by simpa [chars] using dotted
      have first : String.utf8EncodeChar '.' = [0x2E] := by decide
      simp [isAbsolute, ofText, Utf8.encode, chars, first, slash]

namespace Trail

theorem isAbsolute_extend (steps : List Component) {trail : Trail}
    (absolute : trail.path.isAbsolute = true) : (trail.extend steps).path.isAbsolute = true := by
  induction steps generalizing trail with
  | nil => exact absolute
  | cons step steps ih => exact ih (by simpa using isAbsolute_join absolute step.spelling)

end Trail

/-- Only the empty path cannot be made absolute. -/
theorem isSome_absolute? (workingDirectory : Path) {path : Path} (named : path.bytes ≠ []) :
    (absolute? workingDirectory path).isSome := by
  rw [absolute?, if_neg (by simpa using named)]
  rfl

/-- What is made absolute is absolute, seen from an absolute working directory. -/
theorem isAbsolute_of_absolute? {workingDirectory path base : Path}
    (absolute : workingDirectory.isAbsolute = true)
    (made : absolute? workingDirectory path = some base) : base.isAbsolute = true := by
  unfold absolute? at made
  split at made
  · simp at made
  · obtain rfl := Option.some.inj made
    have whole :
        (if path.hasDoubleRoot then (Trail.mk [slash, slash]).extend (path.components.drop 1)
        else if path.isAbsolute then (Trail.mk []).extend path.components
        else (Trail.ofPath workingDirectory).extend path.components).path.isAbsolute = true := by
      split
      · exact Trail.isAbsolute_extend _ rfl
      · split
        · next rooted =>
            rw [components, if_pos rooted]
            have fromRoot : (Trail.mk [slash]).path.isAbsolute = true := rfl
            exact Trail.isAbsolute_extend (path.pieces.filterMap Component.ofPiece?) fromRoot
        · exact Trail.isAbsolute_extend _ (by simpa using absolute)
    split
    · simpa using isAbsolute_join whole ⟨[]⟩
    · exact whole

end EditorFlags.Path
