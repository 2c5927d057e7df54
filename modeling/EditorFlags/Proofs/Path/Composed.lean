import EditorFlags.Proofs.Path.Moves
import EditorFlags.Proofs.Path.Normal
import Mathlib

/-!
# Resolving what has been resolved

A resolved path spells the names that are left on the stack. These are its moves, so a path
that is resolved against it goes on with the same stack (`settled_resolve`). Joining is
associative (`join_assoc`), so resolving twice comes to resolving what is joined
(`resolve_resolve`), and an absolute path that has been resolved stays as it is
(`resolve_of_resolved`). Going up takes names from the stack as long as there are any; at the
root there are none, and going up from there leads nowhere else (`resolve_climb`).
-/

namespace EditorFlags.Path

/-! ## Joining -/

/-- What a relative path is put after when it is joined: the left path, with a separator at its
end if it needs one. -/
def stem (left : Path) : Bytes :=
  if left.bytes.isEmpty || left.endsInSlash then left.bytes else left.bytes ++ [slash]

theorem join_of_absolute {right : Path} (absolute : right.isAbsolute = true) (left : Path) :
    left.join right = right :=
  if_pos absolute

theorem join_of_relative {right : Path} (relative : right.isAbsolute = false) (left : Path) :
    left.join right = ⟨left.stem ++ right.bytes⟩ := by
  rw [join, if_neg (by simp [relative]), stem]
  split
  · rfl
  · rw [List.append_assoc, List.singleton_append]

/-- The end of a path decides whether it needs a separator. -/
theorem stem_append {last : Bytes} (some : last ≠ []) (front : Bytes) :
    stem ⟨front ++ last⟩ = front ++ stem ⟨last⟩ := by
  have ends : endsInSlash ⟨front ++ last⟩ = endsInSlash ⟨last⟩ := by
    rw [endsInSlash, List.getLast?_append_of_ne_nil _ some, endsInSlash]
  simp only [stem, ends]
  by_cases stop : endsInSlash ⟨last⟩ = true
  · simp [stop]
  · simp [stop, some]

theorem stem_stem (left : Path) : stem ⟨left.stem⟩ = left.stem := by
  by_cases stop : (left.bytes.isEmpty || left.endsInSlash) = true
  · have own : left.stem = left.bytes := if_pos stop
    rw [own, own]
  · have separated : left.stem = left.bytes ++ [slash] := if_neg stop
    rw [separated, stem_append (List.cons_ne_nil slash [])]
    rfl

theorem join_assoc (first second third : Path) :
    (first.join second).join third = first.join (second.join third) := by
  cases last : third.isAbsolute with
  | true => rw [join_of_absolute last, join_of_absolute last, join_of_absolute last]
  | false =>
      cases middle : second.isAbsolute with
      | true => rw [join_of_absolute middle, join_of_absolute (isAbsolute_join middle third)]
      | false =>
          have joined : (second.join third).isAbsolute = false := by
            rw [isAbsolute_join_relative last, middle]
          rw [join_of_relative last, join_of_relative middle, join_of_relative joined,
            join_of_relative last]
          -- The empty path asks for no separator, but it comes after one.
          by_cases empty : second.bytes = []
          · have nothing : second.stem = [] := by simp [stem, empty]
            rw [empty, nothing, List.append_nil, List.nil_append, stem_stem]
          · rw [stem_append empty, List.append_assoc]

/-- The empty path stands for the place where it is joined. -/
theorem empty_join (path : Path) : (ofText "").join path = path := by
  cases rooted : path.isAbsolute with
  | true => exact join_of_absolute rooted _
  | false =>
      have nothing : stem (ofText "") = [] := by decide
      rw [join_of_relative rooted, nothing, List.nil_append]

/-! ## Going on with a stack -/

/-- Names are put on the stack as they are. -/
theorem foldl_settle_names {names : List Bytes} (proper : ∀ name ∈ names, IsName name)
    (stack : List Bytes) : names.foldl settle stack = stack ++ names := by
  induction names generalizing stack with
  | nil => simp
  | cons name others ih =>
      obtain ⟨isName, properOthers⟩ := List.forall_mem_cons.mp proper
      rw [List.foldl_cons, settle_of_isName isName, ih properOthers, List.append_assoc,
        List.singleton_append]

/-- The moves of a path that spells names are these names. -/
theorem moves_spell {rooted : Bool} {names : List Bytes}
    (proper : ∀ name ∈ names, IsName name ∧ slash ∉ name) : (spell rooted names).moves = names := by
  induction names using List.reverseRecOn with
  | nil => cases rooted <;> decide
  | append_singleton others last ih =>
      have properOthers : ∀ name ∈ others, IsName name ∧ slash ∉ name := fun name member =>
        proper name (by simp [member])
      obtain ⟨isName, whole⟩ := proper last (by simp)
      have relative : isAbsolute ⟨last⟩ = false := by
        simpa [isAbsolute] using head?_ne_slash whole
      rw [← join_spell (apart_of_isName properOthers) whole, moves_join relative, ih properOthers,
        moves_of_whole whole (by simp [isName.nonempty, isName.notSelf])]

section
variable (base path : Path)

theorem isAbsolute_resolve_eq :
    (base.resolve path).isAbsolute = (base.join path).isAbsolute := by
  rw [resolve_eq_spell, isAbsolute_spell (apart_settled _)]

/-- A resolved path comes to the names that it spells. -/
theorem settled_resolve : (base.resolve path).settled = (base.join path).settled := by
  rw [settled_eq_foldl_moves, resolve_eq_spell, moves_spell fun _ => isName_of_mem_settled,
    foldl_settle_names (fun _ member => (isName_of_mem_settled member).1), List.nil_append]

end

theorem resolve_resolve (base path further : Path) :
    (base.resolve path).resolve further = base.resolve (path.join further) := by
  cases rooted : further.isAbsolute with
  | true =>
      apply resolve_congr_join <;>
        rw [← join_assoc, join_of_absolute rooted, join_of_absolute rooted]
  | false =>
      apply resolve_congr_join
      · rw [← join_assoc, isAbsolute_join_relative rooted, isAbsolute_join_relative rooted,
          isAbsolute_resolve_eq]
      · rw [← join_assoc, settled_join rooted, settled_join rooted, settled_resolve]

theorem resolve_of_resolved {base path : Path} (absolute : (base.resolve path).isAbsolute = true)
    (other : Path) : other.resolve (base.resolve path) = base.resolve path := by
  rw [resolve_eq_spell other, join_of_absolute absolute, settled_resolve, isAbsolute_resolve_eq,
    ← resolve_eq_spell]

/-- **Resolving composes.** What is resolved against a resolved path is what is resolved when the
two paths are joined. So a base may be cleaned before it is used, and an absolute path that has
been resolved and is text is what it resolves to, from wherever it is seen. -/
theorem resolve_composes (base : Path) :
    (∀ path further, (base.resolve path).resolve further = base.resolve (path.join further)) ∧
      (∀ further, (base.resolve (ofText "")).resolve further = base.resolve further) ∧
      ∀ path text, (base.resolve path).isAbsolute = true →
        (base.resolve path).text? = some text →
        ∀ other, resolve other (ofText text) = base.resolve path := by
  refine ⟨resolve_resolve base, ?_, ?_⟩
  · intro further
    rw [resolve_resolve, empty_join]
  · intro path text absolute isText other
    rw [ofText_of_text? isText]
    exact resolve_of_resolved absolute other

/-- A relative base is left by a path that goes up more often than there are names, and what
comes after it begins anew; an absolute path that has been resolved is found again from there. -/
theorem resolve_composes_left :
    ((ofText "a/b").resolve (ofText "../../../c/..")).resolve (ofText "./d") = ofText "d" ∧
      (ofText "/a").resolve (ofText "..//b/./c/") = ofText "/b/c" ∧
      (ofText "/b/c").isAbsolute = true ∧ (ofText "/b/c").text? = some "/b/c" ∧
      (ofText "a/b").resolve (ofText "/b/c") = ofText "/b/c" := by
  have resolved : (ofText "/a").resolve (ofText "..//b/./c/") = ofText "/b/c" := by cbv
  have absolute : (ofText "/b/c").isAbsolute = true := by cbv
  have isText : (ofText "/b/c").text? = some "/b/c" := by cbv
  obtain ⟨composes, -, -⟩ := resolve_composes (ofText "a/b")
  obtain ⟨-, -, stays⟩ := resolve_composes (ofText "/a")
  have again := stays (ofText "..//b/./c/") "/b/c"
  rw [resolved] at again
  refine ⟨?_, resolved, absolute, isText, again absolute isText (ofText "a/b")⟩
  rw [composes]
  cbv

/-! ## Going up -/

/-- A path that goes up some times before it goes on. -/
def climb : Nat → Path → Path
  | 0, path => path
  | ups + 1, path => join ⟨parent⟩ (climb ups path)

section
variable {base : Path} (absolute : base.isAbsolute = true)
include absolute

theorem resolve_of_settled_nil (nowhere : base.settled = []) (path : Path) :
    base.resolve path = resolve ⟨[slash]⟩ path := by
  cases rooted : path.isAbsolute with
  | true => apply resolve_congr_join <;> rw [join_of_absolute rooted, join_of_absolute rooted]
  | false =>
      apply resolve_congr_join
      · rw [isAbsolute_join_relative rooted, isAbsolute_join_relative rooted, absolute]
        rfl
      · have root : settled ⟨[slash]⟩ = [] := by decide
        rw [settled_join rooted, settled_join rooted, nowhere, root]

/-- Going up as often as a directory has names, or more often, leads to the root. -/
theorem resolve_climb {ups : Nat} (enough : base.settled.length ≤ ups) (path : Path) :
    base.resolve (climb ups path) = resolve ⟨[slash]⟩ path := by
  induction ups generalizing base with
  | zero =>
      have nowhere : base.settled = [] := List.length_eq_zero_iff.mp (Nat.le_zero.mp enough)
      exact resolve_of_settled_nil absolute nowhere path
  | succ ups ih =>
      have above : (base.resolve ⟨parent⟩).settled = base.settled.dropLast := by
        have up : moves ⟨parent⟩ = [parent] := by decide
        rw [settled_resolve, settled_join (by decide), up]
        simp
      rw [climb, ← resolve_resolve]
      apply ih (isAbsolute_resolve absolute _)
      rw [above, List.length_dropLast]
      omega

end

/-- **Resolving is going through the pieces with a stack.** The path is joined to the base and
cut at its separators. Pieces that name nothing are passed over, a parent takes the last name
away if there is one, and the names that are left are spelled with single separators, from the
root if the joined path begins there. From an absolute base this gives a path from the root
without any piece that is no name, which ends in a separator only if it is the root; and going
up too often leads to the root and no further. -/
theorem resolve_stack (base path : Path) :
    base.resolve path =
        ⟨(if (base.join path).isAbsolute then [slash] else []) ++
          [slash].intercalate (((base.join path).bytes.splitOn slash).foldl settle [])⟩ ∧
      (base.isAbsolute = true →
        (base.resolve path).IsNormal ∧ (base.resolve path).bytes ≠ [] ∧
          ((base.resolve path).endsInSlash = true → base.resolve path = ⟨[slash]⟩) ∧
          ∀ ups further, base.settled.length ≤ ups →
            base.resolve (climb ups further) = resolve ⟨[slash]⟩ further) := by
  refine ⟨resolve_eq_spell base path, ?_⟩
  intro absolute
  have spelled := resolve_of_isAbsolute absolute path
  refine ⟨?_, ?_, ?_, fun ups further enough => resolve_climb absolute enough further⟩
  · rw [spelled]
    exact isNormal_spell fun _ => isName_of_mem_settled
  · obtain ⟨rest, rooted⟩ := isAbsolute_iff.mp (isAbsolute_resolve absolute path)
    rw [rooted]
    exact List.cons_ne_nil slash rest
  · intro ends
    by_cases root : (base.join path).settled = []
    · rw [spelled, root]
      rfl
    · rw [spelled, endsInSlash_spell (apart_settled _) root] at ends
      cases ends

/-- A path that goes up and on to a name of dots, and one that goes up too often. -/
theorem resolve_stack_dotted :
    (ofText "/work/proj").isAbsolute = true ∧
      (ofText "/work/proj").resolve (ofText "..//./.../x/") = ofText "/work/.../x" ∧
      (ofText "/work/.../x").IsNormal ∧
      (ofText "/work/proj").settled.length ≤ 3 ∧
      (ofText "/work/proj").resolve (ofText "../../../x") = resolve ⟨[slash]⟩ (ofText "x") := by
  have absolute : (ofText "/work/proj").isAbsolute = true := by cbv
  have enough : (ofText "/work/proj").settled.length ≤ 3 := by decide
  obtain ⟨spelled, rooted⟩ := resolve_stack (ofText "/work/proj") (ofText "..//./.../x/")
  have resolved : (ofText "/work/proj").resolve (ofText "..//./.../x/") = ofText "/work/.../x" := by
    rw [spelled]
    cbv
  obtain ⟨normal, -, -, climbs⟩ := rooted absolute
  have climbed := climbs 3 (ofText "x") enough
  have climbing : climb 3 (ofText "x") = ofText "../../../x" := by cbv
  rw [resolved] at normal
  rw [climbing] at climbed
  exact ⟨absolute, resolved, normal, enough, climbed⟩

end EditorFlags.Path
