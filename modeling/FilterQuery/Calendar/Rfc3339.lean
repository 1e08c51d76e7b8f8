/-
# FilterQuery.Calendar.Rfc3339 -- internet date-times

The fixed format of internet timestamps: four digits of the year, two of every other number, one
of `T`, `t` or a space between date and time, a fraction that may be missing, and an offset.
Nothing may stand between the parts.
-/

import FilterQuery.Calendar.Item

namespace FilterQuery

open Text

namespace Rfc3339

/-- A date of fixed width. -/
def date : Reader Date := do
  let y ← Reader.fixedNumber 4
  Reader.literal '-'
  let m ← Reader.fixedNumber 2
  Reader.literal '-'
  let d ← Reader.fixedNumber 2
  match Date.make? y m d with
  | some date => return date
  | none => Reader.refuse

/-- A time of fixed width with its fraction. -/
def time : Reader Time := do
  let h ← Reader.fixedNumber 2
  Reader.literal ':'
  let m ← Reader.fixedNumber 2
  Reader.literal ':'
  let s ← Reader.fixedNumber 2
  let f ← Item.fraction
  Item.timeOf (h, m) (s, f)

/-- Reads a timestamp. -/
def dateTime? (s : String) : Option OffsetDateTime := do
  let (dt, o) ← Reader.readAll (do
    let d ← date
    let _ ← Reader.char Item.isBetween
    let t ← time
    let o ← Item.offset (Reader.literal ':')
    pure ((⟨d, t⟩ : DateTime), o)) s
  OffsetDateTime.make? dt o

end Rfc3339

end FilterQuery
