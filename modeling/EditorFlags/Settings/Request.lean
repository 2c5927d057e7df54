import EditorFlags.Settings
import EditorFlags.Json.Value

/-!
# Requests for settings

An editor may say for which file it wants settings. The request is a JSON object
in which only the member `filename` counts, or an array with the file name as
its only element. A file name is a string or null, which is the same as none at
all. What comes first in the text decides how a text is wrong: where a value of
another type stands in the place of the file name, or of the request itself, it
is first read as what it is, except that the inside of a container is not looked
at.
-/

namespace EditorFlags

/-- A request for settings. -/
structure Request where
  filename : Option Path
deriving DecidableEq, Repr, Inhabited

namespace Request

open Json RequestFault

/-- The request that names no file. -/
def anyFile : Request :=
  ⟨none⟩

/-- What a request is worth saying to whom it is made: for which file it is, if it
names one. -/
def events (provider : Provider) (request : Request) : List Event :=
  request.filename.toList.map (.settingsRequested provider)

/-- The key of the member that counts. -/
def filenameKey : List Char :=
  "filename".toList

/-- What is wrong with a value that has been read although another type is
wanted: how it could not be read, or else its type. -/
def unwanted {α : Type} : Except RequestFault α → RequestFault
  | .error fault => fault
  | .ok _ => mismatched

/-- What is wrong with a value of some other type than the one wanted. -/
def mismatch (input : List Char) : RequestFault :=
  match input with
  | [] => truncated
  | '[' :: _ => mismatched
  | '{' :: _ => mismatched
  | '"' :: rest => unwanted (Json.read rest)
  | 'n' :: rest => unwanted (skipLetters ['u', 'l', 'l'] rest)
  | 't' :: rest => unwanted (skipLetters ['r', 'u', 'e'] rest)
  | 'f' :: rest => unwanted (skipLetters ['a', 'l', 's', 'e'] rest)
  | c :: _ =>
      if c = '-' ∨ c.isDigit then
        match Numeral.read input with
        | .error fault => fault
        | .ok (numeral, _) => if numeral.isFinite then mismatched else malformed
      else malformed

/-- The file name that the input begins with, and what is left. -/
def readFilename (input : List Char) : Except RequestFault (Option Path × List Char) :=
  match dropBlanks input with
  | 'n' :: rest =>
      match skipLetters ['u', 'l', 'l'] rest with
      | .error fault => .error fault
      | .ok left => .ok (none, left)
  | '"' :: rest =>
      match Json.read rest with
      | .error fault => .error fault
      | .ok (text, left) => .ok (some (.ofText (String.ofList text)), left)
  | other => .error (mismatch other)

/-! ## Objects -/

/-- The members of an object that have been read: whether the file name was
among them, and which it was. -/
abbrev Members := Option (Option Path)

/-- One member, from after the opening quote of its key. A file name that comes
a second time is an error before its value is looked at. -/
def readMember (members : Members) (input : List Char) :
    Except RequestFault (Members × List Char) :=
  match Json.read input with
  | .error fault => .error fault
  | .ok (key, rest) =>
      if key = filenameKey then
        if members.isSome then .error mismatched
        else
          match skipColon rest with
          | .error fault => .error fault
          | .ok rest =>
              match readFilename rest with
              | .error fault => .error fault
              | .ok (filename, left) => .ok (some filename, left)
      else
        match skipColon rest with
        | .error fault => .error fault
        | .ok rest =>
            match skipValue rest with
            | .error fault => .error fault
            | .ok left => .ok (members, left)

theorem length_readFilename {input left : List Char} {filename : Option Path}
    (h : readFilename input = .ok (filename, left)) : left.length ≤ input.length := by
  have blanks := length_dropBlanks_le input
  unfold readFilename at h
  split at h
  · next rest found =>
      rw [found] at blanks
      simp only [List.length_cons] at blanks
      split at h
      · simp at h
      · next lettersRead =>
          have shorter := length_skipLetters_le lettersRead
          simp only [Except.ok.injEq, Prod.mk.injEq] at h
          rw [← h.2]
          omega
  · next rest found =>
      rw [found] at blanks
      simp only [List.length_cons] at blanks
      split at h
      · simp at h
      · next literalRead =>
          have shorter := length_read literalRead
          simp only [Except.ok.injEq, Prod.mk.injEq] at h
          rw [← h.2]
          omega
  · simp at h

theorem length_readMember {members after : Members} {input left : List Char}
    (h : readMember members input = .ok (after, left)) : left.length < input.length := by
  unfold readMember at h
  split at h
  · simp at h
  · next key rest keyRead =>
      have shorter := length_read keyRead
      split at h
      · split at h
        · simp at h
        · split at h
          · simp at h
          · next colonRead =>
              have shorter' := length_skipColon colonRead
              split at h
              · simp at h
              · next filenameRead =>
                  have shorter'' := length_readFilename filenameRead
                  simp only [Except.ok.injEq, Prod.mk.injEq] at h
                  rw [← h.2]
                  omega
      · split at h
        · simp at h
        · next colonRead =>
            have shorter' := length_skipColon colonRead
            split at h
            · simp at h
            · next valuePassed =>
                have shorter'' := length_skipFrom_le valuePassed
                simp only [Except.ok.injEq, Prod.mk.injEq] at h
                rw [← h.2]
                omega

/-- What follows a member: another one, from after the opening quote of its key,
or nothing but the closing brace, which is passed over. -/
def following (input : List Char) : Except RequestFault (Bool × List Char) :=
  match dropBlanks input with
  | [] => .error truncated
  | '}' :: left => .ok (false, left)
  | ',' :: rest =>
      match dropBlanks rest with
      | [] => .error truncated
      | '"' :: left => .ok (true, left)
      | _ => .error malformed
  | _ => .error malformed

theorem length_following {input left : List Char} {more : Bool}
    (h : following input = .ok (more, left)) : left.length < input.length := by
  have blanks := length_dropBlanks_le input
  unfold following at h
  split at h
  · simp at h
  · next found =>
      rw [found] at blanks
      simp only [Except.ok.injEq, Prod.mk.injEq] at h
      simp only [List.length_cons] at blanks
      rw [← h.2]
      omega
  · next rest found =>
      rw [found] at blanks
      simp only [List.length_cons] at blanks
      have blanks' := length_dropBlanks_le rest
      split at h
      · simp at h
      · next found' =>
          rw [found'] at blanks'
          simp only [Except.ok.injEq, Prod.mk.injEq] at h
          simp only [List.length_cons] at blanks'
          rw [← h.2]
          omega
      · simp at h
  · simp at h

/-- The members that follow a member, up to and with the closing brace. -/
def readMembers (members : Members) (input : List Char) :
    Except RequestFault (Members × List Char) :=
  match _next : following input with
  | .error fault => .error fault
  | .ok (false, left) => .ok (members, left)
  | .ok (true, rest) =>
      match _member : readMember members rest with
      | .error fault => .error fault
      | .ok (members, left) => readMembers members left
termination_by input.length
decreasing_by
  have shorter := length_following _next
  have shorter' := length_readMember _member
  omega

/-- An object, from after its opening brace. -/
def readObject (input : List Char) : Except RequestFault (Members × List Char) :=
  match dropBlanks input with
  | [] => .error truncated
  | '}' :: left => .ok (none, left)
  | '"' :: rest =>
      match readMember none rest with
      | .error fault => .error fault
      | .ok (members, left) => readMembers members left
  | _ => .error malformed

/-! ## Requests -/

/-- An array, from after its opening bracket. -/
def readArray (input : List Char) : Except RequestFault (Option Path × List Char) :=
  match dropBlanks input with
  | [] => .error truncated
  | ']' :: left => .ok (none, left)
  | other =>
      match readFilename other with
      | .error fault => .error fault
      | .ok (filename, rest) =>
          match dropBlanks rest with
          | [] => .error truncated
          | ']' :: left => .ok (filename, left)
          | _ => .error malformed

/-- A request, and what is left. -/
def read (input : List Char) : Except RequestFault (Request × List Char) :=
  match dropBlanks input with
  | '[' :: rest =>
      match readArray rest with
      | .error fault => .error fault
      | .ok (filename, left) => .ok (⟨filename⟩, left)
  | '{' :: rest =>
      match readObject rest with
      | .error fault => .error fault
      | .ok (members, left) => .ok (⟨members.join⟩, left)
  | other => .error (mismatch other)

/-- The request that a text is. -/
def ofJson (text : String) : Except RequestFault Request :=
  match read text.toList with
  | .error fault => .error fault
  | .ok (request, rest) => if (dropBlanks rest).isEmpty then .ok request else .error malformed

end Request

/-- The settings that a request gets from some flag files. The request itself has
no part in them. -/
def Settings.ofSources (read? : Path → Option Bytes) (sources : List Path) (request : Request) :
    Logged Settings := do
  Logged.sayAll (request.events .files)
  return Settings.ofItems (← FlagFile.extract read? sources)

end EditorFlags
