/-
# FilterQuery.Value -- typed arguments

A value is an argument that has been read as a text of some type, or the null value, which stands
in for an argument that could not be read. Integers and floating point numbers carry their type.
-/

import FilterQuery.Calendar.DateTime
import FilterQuery.Value.Shortest
import FilterQuery.Value.Type
import FilterQuery.Value.Uuid

namespace FilterQuery

/-- A typed argument. Variants of enumerations and values of the application are known by the names
of their types. -/
inductive Value where
  | null
  | bool (b : Bool)
  | int (n : Integer)
  | float (t : FloatType) (x : BinaryFloat)
  | char (c : Char)
  | string (s : String)
  | uuid (u : Uuid)
  | date (d : Date)
  | time (t : Time)
  | dateTime (dt : DateTime)
  | offsetDateTime (dt : OffsetDateTime)
  | enum (typeName variant : String)
  | custom (typeName value : String)
  deriving Repr

namespace Value

/-- The type of a value. A variant of an enumeration knows the name of its type but not the other
variants, so it is the only one of the type given here. -/
def type? : Value → Option ValueType
  | null => none
  | bool _ => some .bool
  | int n => some (.int n.type)
  | float t _ => some (.float t)
  | char _ => some .char
  | string _ => some .string
  | uuid _ => some .uuid
  | date _ => some .date
  | time _ => some .time
  | dateTime _ => some .dateTime
  | offsetDateTime _ => some .offsetDateTime
  | enum typeName variant => some (.enum ⟨typeName, [variant]⟩)
  | custom typeName _ => some (.custom typeName)

/-- Whether there is no value. -/
def isNull : Value → Bool
  | null => true
  | _ => false

/-- The truth value. -/
def bool? : Value → Option Bool
  | bool b => some b
  | _ => none

/-- The text. -/
def string? : Value → Option String
  | string s => some s
  | _ => none

/-- The integer, if 64 bits with a sign hold it. -/
def int64? : Value → Option Integer
  | int n => n.cast? .i64
  | _ => none

/-- The number in double precision, rounded if it must be. -/
def double? : Value → Option BinaryFloat
  | float _ x => some (x.cast .f64)
  | int n => some (.ofInt .f64 n.val)
  | _ => none

/-- The identifier. -/
def uuid? : Value → Option Uuid
  | uuid u => some u
  | _ => none

/-- Whether two values are equal: of the same type, numbers as numbers (so `nan` differs from
itself and both zeros are equal), and date-times with offsets as instants. -/
def same : Value → Value → Bool
  | null, null => true
  | bool a, bool b => a == b
  | int a, int b => a == b
  | float t x, float u y => t == u && x.numEq y
  | char a, char b => a == b
  | string a, string b => a == b
  | uuid a, uuid b => a == b
  | date a, date b => a == b
  | time a, time b => a == b
  | dateTime a, dateTime b => a == b
  | offsetDateTime a, offsetDateTime b => a.sameInstant b
  | enum s v, enum t w => s == t && v == w
  | custom s v, custom t w => s == t && v == w
  | _, _ => false

instance : BEq Value := ⟨same⟩

/-- The text of a value. -/
def render : Value → String
  | null => "null"
  | bool true => "true"
  | bool false => "false"
  | int n => String.ofList n.render
  | float t x => String.ofList (FloatStyle.plain.render t x)
  | char c => String.ofList ['\'', c, '\'']
  | string s => "\"" ++ s ++ "\""
  | uuid u => String.ofList u.render
  | date d => String.ofList d.render
  | time t => String.ofList t.render
  | dateTime dt => String.ofList dt.render
  | offsetDateTime dt => String.ofList dt.render
  | enum typeName variant => typeName ++ "::" ++ variant
  | custom typeName value => typeName ++ "(" ++ value ++ ")"

end Value

end FilterQuery
