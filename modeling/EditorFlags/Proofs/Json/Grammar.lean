import EditorFlags.Json.Value
import EditorFlags.Text.Digits

/-!
# What JSON texts denote

The grammar of JSON, said of whole texts and without a word on how they are read. A string
denotes the UTF-16 code units that it spells, so that an escape may spell half a surrogate
pair; it is the string of a text only if the units are those of the text. Of a number only
the spelling is kept.
-/

namespace EditorFlags.Json

/-! ## Code units -/

/-- The UTF-16 code units of a character: two outside of the basic plane. -/
def unitsOf (c : Char) : List Nat :=
  if c.toNat < 0x10000 then [c.toNat]
  else [0xD800 + (c.toNat - 0x10000) / 0x400, 0xDC00 + (c.toNat - 0x10000) % 0x400]

/-- The UTF-16 code units of a text. -/
def units (text : List Char) : List Nat :=
  text.flatMap unitsOf

/-! ## Values -/

/-- A value. -/
inductive Tree where
  | null
  | bool (value : Bool)
  | number (spelling : List Char)
  | string (units : List Nat)
  | array (items : List Tree)
  | object (members : List (List Nat × Tree))

/-- What a text may denote: a value, or what stands between the brackets of a container that
is not empty. -/
inductive Part where
  | value (tree : Tree)
  | items (trees : List Tree)
  | members (members : List (List Nat × Tree))

/-! ## Literals -/

/-- The letters that may follow a backslash, each with what it stands for. -/
def shortEscapes : List (Char × Char) :=
  [('"', '"'), ('\\', '\\'), ('/', '/'), ('b', '\x08'), ('f', '\x0c'), ('n', '\n'), ('r', '\r'),
    ('t', '\t')]

/-- Four hexadecimal digits and the code unit that they spell. -/
inductive IsUnit : List Char → Nat → Prop where
  | digits {a b c d : Char} {x y z w : Nat} (first : Digits.hexValue? a = some x)
      (second : Digits.hexValue? b = some y) (third : Digits.hexValue? c = some z)
      (fourth : Digits.hexValue? d = some w) :
      IsUnit [a, b, c, d] (((x * 16 + y) * 16 + z) * 16 + w)

/-- What follows a backslash, and the code units that it spells. -/
inductive IsEscape : List Char → List Nat → Prop where
  | short {letter c : Char} (known : (letter, c) ∈ shortEscapes) : IsEscape [letter] (unitsOf c)
  | unit {digits : List Char} {unit : Nat} (spelled : IsUnit digits unit) :
      IsEscape ('u' :: digits) [unit]

/-- What stands between the quotes of a literal, and the code units that it spells. -/
inductive Spells : List Char → List Nat → Prop where
  | nil : Spells [] []
  | plain {c : Char} {body : List Char} {later : List Nat} (noQuote : c ≠ '"')
      (noEscape : c ≠ '\\') (visible : 0x20 ≤ c.toNat) (rest : Spells body later) :
      Spells (c :: body) (unitsOf c ++ later)
  | escape {escaped body : List Char} {spelled later : List Nat}
      (escapes : IsEscape escaped spelled) (rest : Spells body later) :
      Spells ('\\' :: (escaped ++ body)) (spelled ++ later)

/-! ## Numbers -/

/-- That there are only decimal digits, and one of them at least. -/
structure IsDigits (digits : List Char) : Prop where
  nonempty : digits ≠ []
  decimal : ∀ c ∈ digits, c.isDigit = true

/-- Digits before a point: a zero comes first only if it is alone. -/
def IsWhole (digits : List Char) : Prop :=
  digits = ['0'] ∨ IsDigits digits ∧ digits.head? ≠ some '0'

/-- A point and digits, or nothing. -/
def IsFraction (chars : List Char) : Prop :=
  chars = [] ∨ ∃ digits, chars = '.' :: digits ∧ IsDigits digits

/-- A power of ten, with or without a sign, or nothing. -/
def IsExponent (chars : List Char) : Prop :=
  chars = [] ∨ ∃ letter sign digits, chars = letter :: (sign ++ digits) ∧
    (letter = 'e' ∨ letter = 'E') ∧ (sign = [] ∨ sign = ['+'] ∨ sign = ['-']) ∧ IsDigits digits

/-- That some characters spell a number. -/
inductive IsNumber : List Char → Prop where
  | parts {sign whole fraction exponent : List Char} (signed : sign = [] ∨ sign = ['-'])
      (isWhole : IsWhole whole) (isFraction : IsFraction fraction)
      (isExponent : IsExponent exponent) :
      IsNumber (sign ++ (whole ++ (fraction ++ exponent)))

/-! ## Texts -/

/-- Characters that may stand between the parts of a text. -/
def Blank (chars : List Char) : Prop :=
  ∀ c ∈ chars, c = ' ' ∨ c = '\t' ∨ c = '\n' ∨ c = '\r'

/-- A key up to its colon, and the code units that it spells. -/
inductive IsKey : List Char → List Nat → Prop where
  | key {before body after : List Char} {name : List Nat} (blank : Blank before)
      (spells : Spells body name) (blankToo : Blank after) :
      IsKey (before ++ '"' :: (body ++ '"' :: (after ++ [':']))) name

/-- What a text denotes. Blanks belong to the container whose parts they stand between. -/
inductive Denotes : List Char → Part → Prop where
  | nullWord : Denotes ['n', 'u', 'l', 'l'] (.value .null)
  | trueWord : Denotes ['t', 'r', 'u', 'e'] (.value (.bool true))
  | falseWord : Denotes ['f', 'a', 'l', 's', 'e'] (.value (.bool false))
  | number {spelling : List Char} (spelled : IsNumber spelling) :
      Denotes spelling (.value (.number spelling))
  | string {body : List Char} {units : List Nat} (spells : Spells body units) :
      Denotes ('"' :: (body ++ ['"'])) (.value (.string units))
  | noItems {blanks : List Char} (blank : Blank blanks) :
      Denotes ('[' :: (blanks ++ [']'])) (.value (.array []))
  | array {inner : List Char} {trees : List Tree} (inside : Denotes inner (.items trees)) :
      Denotes ('[' :: (inner ++ [']'])) (.value (.array trees))
  | noMembers {blanks : List Char} (blank : Blank blanks) :
      Denotes ('{' :: (blanks ++ ['}'])) (.value (.object []))
  | object {inner : List Char} {members : List (List Nat × Tree)}
      (inside : Denotes inner (.members members)) :
      Denotes ('{' :: (inner ++ ['}'])) (.value (.object members))
  | lastItem {before text after : List Char} {tree : Tree} (blank : Blank before)
      (item : Denotes text (.value tree)) (blankToo : Blank after) :
      Denotes (before ++ (text ++ after)) (.items [tree])
  | item {before text after rest : List Char} {tree : Tree} {trees : List Tree}
      (blank : Blank before) (item : Denotes text (.value tree)) (blankToo : Blank after)
      (more : Denotes rest (.items trees)) :
      Denotes (before ++ (text ++ (after ++ ',' :: rest))) (.items (tree :: trees))
  | lastMember {key before text after : List Char} {name : List Nat} {tree : Tree}
      (isKey : IsKey key name) (blank : Blank before) (item : Denotes text (.value tree))
      (blankToo : Blank after) :
      Denotes (key ++ (before ++ (text ++ after))) (.members [(name, tree)])
  | member {key before text after rest : List Char} {name : List Nat} {tree : Tree}
      {members : List (List Nat × Tree)} (isKey : IsKey key name) (blank : Blank before)
      (item : Denotes text (.value tree)) (blankToo : Blank after)
      (more : Denotes rest (.members members)) :
      Denotes (key ++ (before ++ (text ++ (after ++ ',' :: rest))))
        (.members ((name, tree) :: members))

/-- That a whole text is JSON for a value, with nothing around it but blanks. -/
def IsText (text : List Char) (tree : Tree) : Prop :=
  ∃ before inner after, text = before ++ (inner ++ after) ∧ Blank before ∧
    Denotes inner (.value tree) ∧ Blank after

end EditorFlags.Json
