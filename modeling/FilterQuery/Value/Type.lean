/-
# FilterQuery.Value.Type -- the types of attributes

Each attribute has a type, and the arguments compared with it are read as texts of that type.
Besides scalars there are enumerations, which list their variants, entities, which a selector can
go on into, and custom types, which only a registered converter can read.
-/

import FilterQuery.Value.Integer
import FilterQuery.Value.BinaryFloat

namespace FilterQuery

/-- An enumeration: its name and the names of its variants. -/
structure EnumType where
  name : String
  variants : List String
  deriving Repr, DecidableEq

/-- Whether two texts are equal when the case of ASCII letters is disregarded. -/
def Text.equalIgnoringCase (s t : String) : Bool :=
  s.toList.map Char.toLower == t.toList.map Char.toLower

/-- The variant that `s` names: the one of that very name, or else the first whose name differs
only in the case of ASCII letters. -/
def EnumType.variant? (e : EnumType) (s : String) : Option String :=
  match e.variants.find? (· == s) with
  | some v => some v
  | none => e.variants.find? (Text.equalIgnoringCase · s)

/-- The type of an attribute. Entities and types of the application are known by name. -/
inductive ValueType where
  | bool
  | int (t : IntType)
  | float (t : FloatType)
  | char
  | string
  | uuid
  | date
  | time
  | dateTime
  | offsetDateTime
  | enum (e : EnumType)
  | entity (name : String)
  | custom (name : String)
  deriving Repr, DecidableEq

/-- The name of a type in messages. -/
def ValueType.name : ValueType → String
  | bool => "bool"
  | int t => t.name
  | float t => t.name
  | char => "char"
  | string => "String"
  | uuid => "Uuid"
  | date => "NaiveDate"
  | time => "NaiveTime"
  | dateTime => "NaiveDateTime"
  | offsetDateTime => "DateTime"
  | enum e => e.name
  | entity n => n
  | custom n => n

end FilterQuery
