/-
# FilterQuery.Value.Convert -- from raw arguments to values

`Value.read?` reads a text at a type. Three of the types are read in several formats, tried one
after the other: a day also from the texts of a date-time, of which it takes the day; a time also
from an hour and a minute alone; a date-time also from a timestamp, which it turns to UTC, and from
a day, which it takes at midnight.

Applications can register converters for a type. A registered converter is asked first; when it
refuses a text, that is read as if there were none.
-/

import FilterQuery.Calendar.Rfc3339
import FilterQuery.Table
import FilterQuery.Value

namespace FilterQuery

open Text

namespace Value

/-- A truth value: a word in any case, or a digit. -/
def readBool? (s : String) : Option Bool :=
  if equalIgnoringCase s "true" || s == "1" then some true
  else if equalIgnoringCase s "false" || s == "0" then some false
  else none

/-- A text of one character. -/
def readChar? (s : String) : Option Char :=
  match s.toList with
  | [c] => some c
  | _ => none

/-- A day, or the day of a date-time. -/
def readDate? (s : String) : Option Date :=
  match Item.date? s with
  | some d => some d
  | none =>
    match Item.dateTime? s with
    | some dt => some dt.date
    | none => (Rfc3339.dateTime? s).map fun dt => dt.wall.date

/-- A time of day, or an hour and a minute alone. -/
def readTime? (s : String) : Option Time :=
  match Item.time? s with
  | some t => some t
  | none => Item.clock? s

/-- A date-time, a timestamp turned to UTC, or a day at midnight. -/
def readDateTime? (s : String) : Option DateTime :=
  match Item.dateTime? s with
  | some dt => some dt
  | none =>
    match Rfc3339.dateTime? s with
    | some dt => some dt.utc
    | none => (Item.date? s).map fun d => ⟨d, .midnight⟩

/-- The value that `s` writes at a type. Entities and custom types have no texts of their own. -/
def read? (s : String) : ValueType → Option Value
  | .bool => (readBool? s).map .bool
  | .int t => (Integer.read? t s.toList).map .int
  | .float t => (BinaryFloat.read? t s).map (.float t)
  | .char => (readChar? s).map .char
  | .string => some (.string s)
  | .uuid => (Uuid.read? s.toList).map .uuid
  | .date => (readDate? s).map .date
  | .time => (readTime? s).map .time
  | .dateTime => (readDateTime? s).map .dateTime
  | .offsetDateTime => (Rfc3339.dateTime? s).map .offsetDateTime
  | .enum e => (e.variant? s).map (.enum e.name)
  | .entity _ => none
  | .custom _ => none

end Value

/-- A converter of an application. -/
abbrev Converter := String → Option Value

/-- The registered converters by type. -/
structure Converters where
  table : Table ValueType Converter

namespace Converters

/-- No converters. -/
def empty : Converters := ⟨.empty⟩

/-- The converters with one for `t`, in place of any before it. -/
def register (c : Converters) (t : ValueType) (f : Converter) : Converters := ⟨c.table.put t f⟩

/-- Whether there is a converter for `t`. -/
def has (c : Converters) (t : ValueType) : Bool := c.table.contains t

/-- Removes the converter for `t`; gives whether there was one, and what is left. -/
def unregister (c : Converters) (t : ValueType) : Bool × Converters := (c.has t, ⟨c.table.erase t⟩)

/-- The value of `s` at a type: by the registered converter, or as the type reads it. -/
def convert (c : Converters) (s : String) (t : ValueType) : Option Value :=
  match (c.table.get? t).bind (· s) with
  | some v => some v
  | none => Value.read? s t

end Converters

end FilterQuery
