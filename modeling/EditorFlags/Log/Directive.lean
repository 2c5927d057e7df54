import EditorFlags.Log
import EditorFlags.Pattern
import EditorFlags.Text.Blank

/-!
# Directives of log filters

A directive is a level, a target, or a target with its level. Behind the target
there may be more to ask for between brackets: the name of a span that the event
has to be in, or between braces a field that it has to have, or one with a
value. No event of a run is in a span, and the only field is the message.

The parts of a directive are found in its text without the blanks around it, but
they are cut from the text as it is, at the same distances in bytes from its
beginning. So blanks at the end belong to the last part, and blanks at the
beginning shift all parts, which may put a cut inside of a character.
-/

namespace EditorFlags

/-- What a directive asks of an event besides its speaker. -/
inductive Condition where
  | none
  | hasField (name : String)
  | inSpan
deriving DecidableEq, Repr

/-- Whether the events of a run meet a condition: all of them do or none. -/
def Condition.isMet : Condition → Bool
  | .none => true
  | .hasField name => name == Event.field
  | .inSpan => false

/-- A limit for the events of some speakers; without a level none is shown. -/
structure Directive where
  target : String
  condition : Condition
  limit : Option Level
deriving DecidableEq, Repr

/-- Why a text is not read as a directive: it is none, or it would be cut inside
of a character. -/
inductive DirectiveFault where
  | malformed
  | torn
deriving DecidableEq, Repr

namespace Directive

open DirectiveFault

/-! ## Levels -/

/-- The level that a number stands for; `some none` is the number for none at
all. -/
def numberedLevel? : Nat → Option (Option Level)
  | 0 => some none
  | 1 => some (some .error)
  | 2 => some (some .warn)
  | 3 => some (some .info)
  | 4 => some (some .debug)
  | 5 => some (some .trace)
  | _ => none

/-- The level that a name stands for, in letters of either case. -/
def namedLevel? (word : String) : Option (Option Level) :=
  let word := word.toLower
  if word == "off" then some none
  else if word == "error" then some (some .error)
  else if word == "warn" then some (some .warn)
  else if word == "info" then some (some .info)
  else if word == "debug" then some (some .debug)
  else if word == "trace" then some (some .trace)
  else none

/-- The digits of a number that may have a plus sign. -/
def digits? (word : String) : Option (List Char) :=
  let digits := if word.toList.head? = some '+' then word.toList.drop 1 else word.toList
  if digits.isEmpty || !digits.all Char.isDigit then none else some digits

/-- The level that a word stands for, by number or by name. -/
def level? (word : String) : Option (Option Level) :=
  match digits? word with
  | some digits => numberedLevel? (Digits.value digits)
  | none => namedLevel? word

/-! ## Conditions -/

/-- Whether a text with a plus sign before it is a number. -/
def isUnsigned (text : List Char) : Bool :=
  let rest := text.dropWhile Char.isDigit
  let fraction := if rest.head? = some '.' then rest.drop 1 else []
  let exponent := if rest.head? = some '.' then fraction.dropWhile Char.isDigit else rest
  (text.head?.any Char.isDigit || fraction.head?.any Char.isDigit) &&
    match exponent with
    | [] => true
    | letter :: power =>
        let digits := if "+-".toList.any (power.head? == some ·) then power.drop 1 else power
        (letter == 'e' || letter == 'E') && !digits.isEmpty && digits.all Char.isDigit

/-- The names of numbers that have no digits. -/
def numberNames : List String :=
  ["inf", "infinity", "nan"]

/-- Whether a text can be the value of a field: a pattern, or a number, which is
one too unless it begins with a plus sign. -/
def isValue (text : List Char) : Bool :=
  match text with
  | '+' :: rest => isUnsigned rest || numberNames.contains (String.ofList rest).toLower
  | _ => Pattern.isPattern text

/-- What a field asks for, which may be followed by its value. Only spans have
values. -/
def fieldCondition? (field : String) : Option Condition :=
  match field.toList.splitOn '=' with
  | _ :: value :: _ => if isValue value then some .inSpan else none
  | _ => if field.isEmpty then none else some (.hasField field)

/-! ## Reading -/

/-- The part of a text between two distances from its beginning. -/
def part (text : Bytes) (start stop : Nat) : Except DirectiveFault String :=
  match Utf8.slice? text start stop with
  | none => .error torn
  | some part => .ok part

/-- The level from a distance to the end. Without one everything is shown. -/
def readLevel (text : Bytes) (start : Nat) : Except DirectiveFault (Option Level) := do
  let word ← part text start text.length
  if word.isEmpty then .ok (some .trace)
  else
    match level? word with
    | none => .error malformed
    | some limit => .ok limit

/-- What stands behind the closing bracket: a level or nothing. -/
def readLimit (text : Bytes) (start : Nat) (rest : List Char) :
    Except DirectiveFault (Option Level) :=
  match rest with
  | [] => .ok (some .trace)
  | '=' :: _ => readLevel text (start + 1)
  | _ => .error malformed

/-- A field, from after its opening brace, and the limit of the directive. -/
def readField (text : Bytes) (start : Nat) (rest : List Char) :
    Except DirectiveFault (Condition × Option Level) := do
  let inside := rest.takeWhile (· != '}')
  let stop := start + Utf8.size inside
  match rest.dropWhile (· != '}') with
  | [] => .error malformed
  | _ :: after =>
      match fieldCondition? (← part text start stop), after with
      | some condition, ']' :: after => return (condition, ← readLimit text (stop + 2) after)
      | _, _ => .error malformed

/-- What is asked for between brackets, from after the opening one, and the limit
of the directive. -/
def readCondition (text : Bytes) (start : Nat) (rest : List Char) :
    Except DirectiveFault (Condition × Option Level) := do
  let name := rest.takeWhile fun c => c != ']' && c != '{'
  let stop := start + Utf8.size name
  match rest.dropWhile fun c => c != ']' && c != '{' with
  | [] => .error malformed
  | ']' :: after =>
      let _ ← part text start stop
      return (.inSpan, ← readLimit text (stop + 1) after)
  | _ :: after =>
      let span ← part text start stop
      let (condition, limit) ← readField text (stop + 1) after
      return (if span.isEmpty then condition else .inSpan, limit)

/-- Whether a target or a level may begin with a character. -/
def beginsWord (c : Char) : Bool :=
  Alphanumeric.isAlphanumeric c || c == '-' || c == ':' || c == '_'

/-- A text that is a level, or else a target of which everything is shown. -/
def ofWord (word : String) : Directive :=
  match level? word with
  | some limit => ⟨"", .none, limit⟩
  | none => ⟨word, .none, some .trace⟩

/-- The directive that a text is. -/
def parse (text : String) : Except DirectiveFault Directive := do
  let bytes := Utf8.encode text
  let trimmed := Blank.trim text.toList
  let word := trimmed.takeWhile fun c => c != '=' && c != '['
  let stop := Utf8.size word
  if word.head?.any beginsWord then
    match trimmed.dropWhile fun c => c != '=' && c != '[' with
    | [] => return ofWord text
    | '=' :: _ =>
        let target ← part bytes 0 stop
        return ⟨target, .none, ← readLevel bytes (stop + 1)⟩
    | _ :: rest =>
        let target ← part bytes 0 stop
        let (condition, limit) ← readCondition bytes (stop + 1) rest
        return ⟨target, condition, limit⟩
  else
    match trimmed with
    | '[' :: rest =>
        let (condition, limit) ← readCondition bytes 1 rest
        return ⟨"", condition, limit⟩
    | _ => .error malformed

/-! ## Deciding -/

/-- Whether a directive applies to an event. -/
def applies (directive : Directive) (event : Event) : Bool :=
  directive.target.toList.isPrefixOf event.speaker.toList && directive.condition.isMet

/-- Whether a directive lets an event through. -/
def admits (directive : Directive) (event : Event) : Bool :=
  match directive.limit with
  | none => false
  | some limit => event.level.rank ≤ limit.rank

/-- How closely a directive looks: at more of the speaker, and of the same at a
field too. -/
def closeness (directive : Directive) : Nat :=
  2 * directive.target.length + if directive.condition = .none then 0 else 1

end Directive

end EditorFlags
