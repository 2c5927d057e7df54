import EditorFlags.Json.Literal
import EditorFlags.Json.Number

/-!
# Values that are passed over

`skipValue` passes over one value of any kind and any depth, checking its shape.
It walks with a list of the containers that are open, one step at a time: before
a value the step is `enter`, after a value it is `leave`. Nothing but the shape
counts here: numbers may be of any size, and escapes spell what they like. A
number that breaks off is as wrong at the end of the input as anywhere else.
-/

namespace EditorFlags.Json

open RequestFault

/-! ## Between values -/

/-- Whether a character may stand between the parts of a value. -/
def isBlank (c : Char) : Bool :=
  c == ' ' || c == '\t' || c == '\n' || c == '\r'

/-- The input from its first character that is not blank. -/
def dropBlanks (input : List Char) : List Char :=
  input.dropWhile isBlank

/-- What is left after the letters of a keyword. -/
def skipLetters : List Char → List Char → Except RequestFault (List Char)
  | [], input => .ok input
  | _ :: _, [] => .error truncated
  | letter :: letters, c :: rest =>
      if c = letter then skipLetters letters rest else .error malformed

/-- What is left after the colon between a key and its value. -/
def skipColon (input : List Char) : Except RequestFault (List Char) :=
  match dropBlanks input with
  | [] => .error truncated
  | ':' :: rest => .ok rest
  | _ => .error malformed

/-! ## Passing over -/

/-- What is left after a number. -/
def skipNumber (input : List Char) : Except RequestFault (List Char) :=
  match Numeral.read input with
  | .error _ => .error malformed
  | .ok (_, rest) => .ok rest

/-- What is left after a value that is not a container. -/
def skipScalar (input : List Char) : Except RequestFault (List Char) :=
  match input with
  | [] => .error truncated
  | '"' :: rest => skip rest
  | 'n' :: rest => skipLetters ['u', 'l', 'l'] rest
  | 't' :: rest => skipLetters ['r', 'u', 'e'] rest
  | 'f' :: rest => skipLetters ['a', 'l', 's', 'e'] rest
  | c :: _ => if c = '-' ∨ c.isDigit then skipNumber input else .error malformed

/-- What is left after a key of which only the shape matters, and its colon. -/
def skipKey (input : List Char) : Except RequestFault (List Char) :=
  match dropBlanks input with
  | [] => .error truncated
  | '"' :: rest =>
      match skip rest with
      | .error fault => .error fault
      | .ok left => skipColon left
  | _ => .error malformed

/-! ## What is left is less -/

theorem length_dropBlanks_le (input : List Char) : (dropBlanks input).length ≤ input.length := by
  have total := congrArg List.length (List.takeWhile_append_dropWhile
    (p := isBlank) (l := input))
  simp only [List.length_append] at total
  unfold dropBlanks
  omega

theorem length_skipLetters_le {letters input left : List Char}
    (h : skipLetters letters input = .ok left) : left.length ≤ input.length := by
  fun_induction skipLetters letters input with
  | case1 => simp_all
  | case2 => simp at h
  | case3 _ _ _ ih =>
      have := ih h
      simp only [List.length_cons]
      omega
  | case4 => simp at h

theorem length_skipColon {input left : List Char}
    (h : skipColon input = .ok left) : left.length < input.length := by
  have blanks := length_dropBlanks_le input
  unfold skipColon at h
  split at h
  · simp at h
  · next rest found =>
      rw [found] at blanks
      simp only [Except.ok.injEq] at h
      simp only [List.length_cons] at blanks
      rw [← h]
      omega
  · simp at h

theorem length_skipScalar {input left : List Char}
    (h : skipScalar input = .ok left) : left.length < input.length := by
  unfold skipScalar at h
  split at h
  · simp at h
  · have := length_skip h
    simp only [List.length_cons]
    omega
  · have := length_skipLetters_le h
    simp only [List.length_cons]
    omega
  · have := length_skipLetters_le h
    simp only [List.length_cons]
    omega
  · have := length_skipLetters_le h
    simp only [List.length_cons]
    omega
  · split at h
    · unfold skipNumber at h
      split at h
      · simp at h
      · next numeral rest numberRead =>
          have shorter := Numeral.length_read numberRead
          simp only [Except.ok.injEq] at h
          rw [← h]
          exact shorter
    · simp at h

theorem length_skipKey {input left : List Char}
    (h : skipKey input = .ok left) : left.length < input.length := by
  have blanks := length_dropBlanks_le input
  unfold skipKey at h
  split at h
  · simp at h
  · next rest found =>
      rw [found] at blanks
      simp only [List.length_cons] at blanks
      split at h
      · simp at h
      · next middle passed =>
          have shorter := length_skip passed
          have shorter' := length_skipColon h
          omega
  · simp at h

/-! ## Containers -/

/-- A container that is open. -/
inductive Container where
  | array
  | object
deriving DecidableEq, Repr

/-- Where a walk over a value is: before a value or after one, and inside which
containers, innermost first. -/
inductive Place where
  | before (containers : List Container)
  | after (containers : List Container)
deriving DecidableEq, Repr

/-- One step of a walk before a value: over the whole value, or into it. -/
def enter (containers : List Container) (input : List Char) :
    Except RequestFault (Place × List Char) :=
  match dropBlanks input with
  | '[' :: rest =>
      match dropBlanks rest with
      | ']' :: left => .ok (.after containers, left)
      | _ => .ok (.before (.array :: containers), rest)
  | '{' :: rest =>
      match dropBlanks rest with
      | '}' :: left => .ok (.after containers, left)
      | _ =>
          match skipKey rest with
          | .error fault => .error fault
          | .ok left => .ok (.before (.object :: containers), left)
  | other =>
      match skipScalar other with
      | .error fault => .error fault
      | .ok left => .ok (.after containers, left)

/-- One step of a walk after a value in a container: on to the next value, or
out of the container. -/
def leave (container : Container) (outer : List Container) (input : List Char) :
    Except RequestFault (Place × List Char) :=
  match container, dropBlanks input with
  | _, [] => .error truncated
  | .array, ',' :: left => .ok (.before (.array :: outer), left)
  | .array, ']' :: left => .ok (.after outer, left)
  | .object, ',' :: rest =>
      match skipKey rest with
      | .error fault => .error fault
      | .ok left => .ok (.before (.object :: outer), left)
  | .object, '}' :: left => .ok (.after outer, left)
  | _, _ :: _ => .error malformed

theorem length_enter {containers : List Container} {input left : List Char} {place : Place}
    (h : enter containers input = .ok (place, left)) : left.length < input.length := by
  have blanks := length_dropBlanks_le input
  unfold enter at h
  split at h
  · next rest found =>
      rw [found] at blanks
      simp only [List.length_cons] at blanks
      have blanks' := length_dropBlanks_le rest
      split at h
      · next closing =>
          rw [closing] at blanks'
          simp only [Except.ok.injEq, Prod.mk.injEq] at h
          simp only [List.length_cons] at blanks'
          rw [← h.2]
          omega
      · simp only [Except.ok.injEq, Prod.mk.injEq] at h
        rw [← h.2]
        omega
  · next rest found =>
      rw [found] at blanks
      simp only [List.length_cons] at blanks
      have blanks' := length_dropBlanks_le rest
      split at h
      · next closing =>
          rw [closing] at blanks'
          simp only [Except.ok.injEq, Prod.mk.injEq] at h
          simp only [List.length_cons] at blanks'
          rw [← h.2]
          omega
      · split at h
        · simp at h
        · next keyRead =>
            have shorter := length_skipKey keyRead
            simp only [Except.ok.injEq, Prod.mk.injEq] at h
            rw [← h.2]
            omega
  · split at h
    · simp at h
    · next scalarRead =>
        have shorter := length_skipScalar scalarRead
        simp only [Except.ok.injEq, Prod.mk.injEq] at h
        rw [← h.2]
        omega

theorem length_leave {container : Container} {outer : List Container} {input left : List Char}
    {place : Place} (h : leave container outer input = .ok (place, left)) :
    left.length < input.length := by
  have blanks := length_dropBlanks_le input
  unfold leave at h
  split at h
  · simp at h
  · next found =>
      rw [found] at blanks
      simp only [Except.ok.injEq, Prod.mk.injEq] at h
      simp only [List.length_cons] at blanks
      rw [← h.2]
      omega
  · next found =>
      rw [found] at blanks
      simp only [Except.ok.injEq, Prod.mk.injEq] at h
      simp only [List.length_cons] at blanks
      rw [← h.2]
      omega
  · next rest found =>
      rw [found] at blanks
      simp only [List.length_cons] at blanks
      split at h
      · simp at h
      · next keyRead =>
          have shorter := length_skipKey keyRead
          simp only [Except.ok.injEq, Prod.mk.injEq] at h
          rw [← h.2]
          omega
  · next found =>
      rw [found] at blanks
      simp only [Except.ok.injEq, Prod.mk.injEq] at h
      simp only [List.length_cons] at blanks
      rw [← h.2]
      omega
  · simp at h

/-- Walks on from a place to the end of the outermost value, and answers what is
left after it. -/
def skipFrom (place : Place) (input : List Char) : Except RequestFault (List Char) :=
  match place with
  | .after [] => .ok input
  | .before containers =>
      match _step : enter containers input with
      | .error fault => .error fault
      | .ok (next, left) => skipFrom next left
  | .after (container :: outer) =>
      match _step : leave container outer input with
      | .error fault => .error fault
      | .ok (next, left) => skipFrom next left
termination_by input.length
decreasing_by
  · exact length_enter _step
  · exact length_leave _step

/-- What is left after one value of any kind. -/
def skipValue (input : List Char) : Except RequestFault (List Char) :=
  skipFrom (.before []) input

theorem length_skipFrom_le {place : Place} {input left : List Char}
    (h : skipFrom place input = .ok left) : left.length ≤ input.length := by
  fun_induction skipFrom place input with
  | case1 => simp_all
  | case2 => simp at h
  | case3 _ _ _ _ step ih =>
      have shorter := length_enter step
      have := ih h
      omega
  | case4 => simp at h
  | case5 _ _ _ _ _ step ih =>
      have shorter := length_leave step
      have := ih h
      omega

end EditorFlags.Json
