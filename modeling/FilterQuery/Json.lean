/-
# FilterQuery.Json -- JSON trees and their compact text

A JSON tree keeps what a text says and in which order: numbers as they are written, and objects
with all their fields, also those that repeat a name. `Json.write` gives the text without any
blanks.

One kind of tree is only there to be passed over. JSON text can name half of a surrogate pair;
such a text is well formed, but no string. It becomes `unreadable`, and so does an object in which
such a text is a name.
-/

import FilterQuery.Text.Reader

namespace FilterQuery

open Text

/-- A JSON tree. A number is kept as it is written and an object with its fields in order. Strings
that name half of a surrogate pair are unreadable, and so are objects with such a name. -/
inductive Json where
  | null
  | bool (b : Bool)
  | number (text : String)
  | string (s : String)
  | array (items : List Json)
  | object (fields : List (String × Json))
  | unreadable
  deriving Repr

namespace Json

/-! ## Writing -/

/-- A hexadecimal digit in lower case. -/
def hexDigit (n : Nat) : Char := Nat.digitChar n

/-- A character in a string. -/
def escapeChar (c : Char) : List Char :=
  if c = '"' then ['\\', '"']
  else if c = '\\' then ['\\', '\\']
  else if c = '\x08' then ['\\', 'b']
  else if c = '\t' then ['\\', 't']
  else if c = '\n' then ['\\', 'n']
  else if c = '\x0c' then ['\\', 'f']
  else if c = '\r' then ['\\', 'r']
  else if c.toNat < 0x20 then
    ['\\', 'u', '0', '0', hexDigit (c.toNat / 16), hexDigit (c.toNat % 16)]
  else [c]

/-- A string with its quotes. -/
def writeString (s : String) : List Char := '"' :: s.toList.flatMap escapeChar ++ ['"']

mutual

/-- The characters of the compact text. -/
def chars : Json → List Char
  | null => "null".toList
  | bool true => "true".toList
  | bool false => "false".toList
  | number text => text.toList
  | string s => writeString s
  | array [] => ['[', ']']
  | array (v :: r) => '[' :: chars v ++ itemChars r ++ [']']
  | object [] => ['\x7b', '\x7d']
  | object ((k, v) :: r) => '\x7b' :: writeString k ++ ':' :: chars v ++ fieldChars r ++ ['\x7d']
  | unreadable => "null".toList

/-- Further items, a comma before each. -/
def itemChars : List Json → List Char
  | [] => []
  | v :: r => ',' :: chars v ++ itemChars r

/-- Further fields, a comma before each. -/
def fieldChars : List (String × Json) → List Char
  | [] => []
  | (k, v) :: r => ',' :: writeString k ++ ':' :: chars v ++ fieldChars r

end

/-- The compact text. -/
def write (j : Json) : String := String.ofList j.chars

/-- An integer. -/
def ofInt (n : Int) : Json :=
  .number (String.ofList
    (if n < 0 then '-' :: digitsOfNat n.natAbs else digitsOfNat n.natAbs))

/-- A value that may be missing; `null` stands for none. -/
def ofOption {α : Type} (f : α → Json) : Option α → Json
  | none => null
  | some a => f a

/-! ## Taking trees apart -/

/-- The string. -/
def string? : Json → Option String
  | string s => some s
  | _ => none

/-- The truth value. -/
def bool? : Json → Option Bool
  | bool b => some b
  | _ => none

/-- The integer that a number writes without point and exponent. Minus zero is none. -/
def int? : Json → Option Int
  | number text =>
    match text.toList with
    | '-' :: ds =>
      if ds.all isDigit ∧ natOfDigits ds ≠ 0 then some (-natOfDigits ds) else none
    | ds => if ds.all isDigit ∧ ds ≠ [] then some (natOfDigits ds) else none
  | _ => none

/-- The items of an array, each taken apart. -/
def list? {α : Type} (f : Json → Option α) : Json → Option (List α)
  | array items => items.mapM f
  | _ => none

/-- The values of all fields with a name. -/
def fieldValues (name : String) (fields : List (String × Json)) : List Json :=
  (fields.filter fun f => f.1 == name).map (·.2)

/-- The value of the last field with a name. -/
def field? (j : Json) (name : String) : Option Json :=
  match j with
  | object fields => (fieldValues name fields).getLast?
  | _ => none

/-- The value of the only field with a name, if there is one. A repeated field is refused. -/
def uniqueField (fields : List (String × Json)) (name : String) : Option (Option Json) :=
  match fieldValues name fields with
  | [] => some none
  | [v] => some (some v)
  | _ => none

/-- The values of the named fields of a record. A record is an object, in which other fields are
passed over and the named ones may be missing, or an array of all values in their order. -/
def record? (names : List String) : Json → Option (List (Option Json))
  | object fields => names.mapM (uniqueField fields)
  | array items => if items.length = names.length then some (items.map some) else none
  | _ => none

/-- The tag of a tagged value and what it carries. A tag alone is a string; a tag that carries
something is the name of the only field of an object. -/
def tagged? : Json → Option (String × Option Json)
  | string tag => some (tag, none)
  | object [(tag, v)] => some (tag, some v)
  | _ => none

/-- Whether nothing is carried: there is no value, or it is `null`. -/
def carriesNothing : Option Json → Bool
  | none | some null => true
  | _ => false

end Json

end FilterQuery
