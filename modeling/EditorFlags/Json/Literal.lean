import EditorFlags.Failure
import EditorFlags.Text.Digits

/-!
# String literals

A string literal is written by `quote`, which escapes what has to be: the quote,
the backslash and the characters below U+0020. There are two ways of reading
one, both from just after its opening quote. `read` gives the text, and refuses
escapes that spell half a surrogate pair; `skip` looks at the shape only, so any
four hexadecimal digits will do for it. Both give what is left of the input, and
`length_read`, `length_skip` say that this is less than there was.
-/

namespace EditorFlags.Json

open RequestFault

/-! ## Writing -/

/-- What stands for one character in a literal. -/
def escapeChar (c : Char) : List Char :=
  if c = '"' then ['\\', '"']
  else if c = '\\' then ['\\', '\\']
  else if c = '\x08' then ['\\', 'b']
  else if c = '\x0c' then ['\\', 'f']
  else if c = '\n' then ['\\', 'n']
  else if c = '\r' then ['\\', 'r']
  else if c = '\t' then ['\\', 't']
  else if c.toNat < 0x20 then
    ['\\', 'u', '0', '0', Nat.digitChar (c.toNat / 16), Nat.digitChar (c.toNat % 16)]
  else [c]

/-- The literal of a text. -/
def quote (text : String) : String :=
  String.ofList ('"' :: text.toList.flatMap escapeChar ++ ['"'])

/-! ## Escapes -/

/-- The number that four hexadecimal digits spell. The input is too short for
them if it has fewer than four bytes, whatever these are. -/
def hexFour (input : List Char) : Except RequestFault (Nat × List Char) :=
  match input with
  | a :: b :: c :: d :: rest =>
      match Digits.hexValue? a, Digits.hexValue? b, Digits.hexValue? c, Digits.hexValue? d with
      | some a, some b, some c, some d => .ok (((a * 16 + b) * 16 + c) * 16 + d, rest)
      | _, _, _, _ => .error malformed
  | short => .error (if Utf8.size short < 4 then truncated else malformed)

/-- The character that a letter stands for after a backslash. -/
def shortEscape? (c : Char) : Option Char :=
  if c = '"' ∨ c = '\\' ∨ c = '/' then some c
  else if c = 'b' then some '\x08'
  else if c = 'f' then some '\x0c'
  else if c = 'n' then some '\n'
  else if c = 'r' then some '\r'
  else if c = 't' then some '\t'
  else none

/-- The second half of a surrogate pair, from its backslash on. -/
def lowSurrogate : List Char → Except RequestFault (Nat × List Char)
  | [] => .error truncated
  | ['\\'] => .error truncated
  | '\\' :: 'u' :: rest =>
      match hexFour rest with
      | .error fault => .error fault
      | .ok (low, rest) =>
          if 0xDC00 ≤ low ∧ low ≤ 0xDFFF then .ok (low - 0xDC00, rest) else .error malformed
  | _ => .error malformed

/-- The character spelled after `\u`, by one group of digits or, outside the
basic plane, by two. -/
def unicodeEscape (input : List Char) : Except RequestFault (Char × List Char) :=
  match hexFour input with
  | .error fault => .error fault
  | .ok (unit, rest) =>
      if 0xDC00 ≤ unit ∧ unit ≤ 0xDFFF then .error malformed
      else if 0xD800 ≤ unit ∧ unit ≤ 0xDBFF then
        match lowSurrogate rest with
        | .error fault => .error fault
        | .ok (low, rest) => .ok (Char.ofNat (0x10000 + (unit - 0xD800) * 0x400 + low), rest)
      else .ok (Char.ofNat unit, rest)

/-- The character spelled after a backslash. -/
def escape : List Char → Except RequestFault (Char × List Char)
  | [] => .error truncated
  | letter :: rest =>
      match shortEscape? letter with
      | some c => .ok (c, rest)
      | none => if letter = 'u' then unicodeEscape rest else .error malformed

/-- What is left after an escape of which only the shape matters. -/
def skipEscape : List Char → Except RequestFault (List Char)
  | [] => .error truncated
  | letter :: rest =>
      match shortEscape? letter with
      | some _ => .ok rest
      | none =>
          if letter = 'u' then
            match hexFour rest with
            | .error fault => .error fault
            | .ok (_, rest) => .ok rest
          else .error malformed

theorem length_hexFour {input rest : List Char} {value : Nat}
    (h : hexFour input = .ok (value, rest)) : rest.length < input.length := by
  unfold hexFour at h
  split at h
  · split at h
    · simp only [Except.ok.injEq, Prod.mk.injEq] at h
      simp only [← h.2, List.length_cons]
      omega
    · simp at h
  · simp at h

theorem length_lowSurrogate {input rest : List Char} {low : Nat}
    (h : lowSurrogate input = .ok (low, rest)) : rest.length < input.length := by
  unfold lowSurrogate at h
  split at h
  · simp at h
  · simp at h
  · next digits =>
      split at h
      · simp at h
      · next unit left digitsRead =>
          have shorter := length_hexFour digitsRead
          split at h
          · simp only [Except.ok.injEq, Prod.mk.injEq] at h
            simp only [← h.2, List.length_cons]
            omega
          · simp at h
  · simp at h

theorem length_escape {input rest : List Char} {c : Char}
    (h : escape input = .ok (c, rest)) : rest.length < input.length := by
  unfold escape at h
  split at h
  · simp at h
  · next letter digits =>
      split at h
      · simp only [Except.ok.injEq, Prod.mk.injEq] at h
        simp [← h.2]
      · split at h
        · unfold unicodeEscape at h
          split at h
          · simp at h
          · next unit left digitsRead =>
              have shorter := length_hexFour digitsRead
              split at h
              · simp at h
              · split at h
                · split at h
                  · simp at h
                  · next low left' lowRead =>
                      have shorter' := length_lowSurrogate lowRead
                      simp only [Except.ok.injEq, Prod.mk.injEq] at h
                      simp only [← h.2, List.length_cons]
                      omega
                · simp only [Except.ok.injEq, Prod.mk.injEq] at h
                  simp only [← h.2, List.length_cons]
                  omega
        · simp at h

theorem length_skipEscape {input rest : List Char}
    (h : skipEscape input = .ok rest) : rest.length < input.length := by
  unfold skipEscape at h
  split at h
  · simp at h
  · next letter digits =>
      split at h
      · simp only [Except.ok.injEq] at h
        simp [← h]
      · split at h
        · split at h
          · simp at h
          · next unit left digitsRead =>
              have shorter := length_hexFour digitsRead
              simp only [Except.ok.injEq] at h
              simp only [← h, List.length_cons]
              omega
        · simp at h

/-! ## Reading -/

/-- The text of a literal and what is left after its closing quote. -/
def read : List Char → Except RequestFault (List Char × List Char)
  | [] => .error truncated
  | c :: rest =>
      if c = '"' then .ok ([], rest)
      else if c = '\\' then
        match _spelled : escape rest with
        | .error fault => .error fault
        | .ok (value, left) =>
            match read left with
            | .error fault => .error fault
            | .ok (text, left) => .ok (value :: text, left)
      else if c.toNat < 0x20 then .error malformed
      else
        match read rest with
        | .error fault => .error fault
        | .ok (text, left) => .ok (c :: text, left)
termination_by input => input.length
decreasing_by
  · have := length_escape _spelled
    simp only [List.length_cons]
    omega
  · simp

/-- What is left after a literal of which only the shape matters. -/
def skip : List Char → Except RequestFault (List Char)
  | [] => .error truncated
  | c :: rest =>
      if c = '"' then .ok rest
      else if c = '\\' then
        match _passed : skipEscape rest with
        | .error fault => .error fault
        | .ok left => skip left
      else if c.toNat < 0x20 then .error malformed
      else skip rest
termination_by input => input.length
decreasing_by
  · have := length_skipEscape _passed
    simp only [List.length_cons]
    omega
  · simp

theorem length_read {input left : List Char} {text : List Char}
    (h : read input = .ok (text, left)) : left.length < input.length := by
  fun_induction read input generalizing text left with
  | case1 => simp at h
  | case2 => simp_all
  | case3 => simp at h
  | case4 => simp at h
  | case5 rest value middle spelled _ _ tailRead _ ih =>
      have shorter := length_escape spelled
      have shorter' := ih tailRead
      simp only [Except.ok.injEq, Prod.mk.injEq] at h
      simp only [← h.2, List.length_cons]
      omega
  | case6 => simp at h
  | case7 => simp at h
  | case8 c rest _ _ _ _ _ tailRead ih =>
      have shorter := ih tailRead
      simp only [Except.ok.injEq, Prod.mk.injEq] at h
      simp only [← h.2, List.length_cons]
      omega

theorem length_skip {input left : List Char}
    (h : skip input = .ok left) : left.length < input.length := by
  fun_induction skip input with
  | case1 => simp at h
  | case2 => simp_all
  | case3 => simp at h
  | case4 rest middle passed _ ih =>
      have shorter := length_skipEscape passed
      have shorter' := ih h
      simp only [List.length_cons]
      omega
  | case5 => simp at h
  | case6 c rest _ _ _ ih =>
      have shorter := ih h
      simp only [List.length_cons]
      omega

end EditorFlags.Json
