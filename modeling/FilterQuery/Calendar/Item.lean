/-
# FilterQuery.Calendar.Item -- dates and times from loosely spaced items

In this grammar a date is a year, a month and a day with hyphens between them, a time has two or
three items with colons between them, and a date-time has a `T` between its parts. Blanks may
stand before each number, before each hyphen, colon and `T`, and at the end.

A year has up to four digits, or any number of digits behind a sign. All other items have one or
two digits. A fraction follows its second directly; its digits behind the ninth are dropped.
-/

import FilterQuery.Calendar.DateTime

namespace FilterQuery

open Text

namespace Item

/-- Blanks, then a character. -/
def mark (c : Char) : Reader Unit := do
  Reader.blanks
  Reader.literal c

/-- Blanks, then a number of one or two digits. -/
def short : Reader Nat := do
  Reader.blanks
  Reader.number 2

/-- Blanks, then a year. -/
def year : Reader Int := do
  Reader.blanks
  match ← Reader.peek with
  | some '+' =>
    Reader.literal '+'
    return (← Reader.anyNumber)
  | some '-' =>
    Reader.literal '-'
    return -(← Reader.anyNumber)
  | _ => return (← Reader.number 4)

/-- Nanoseconds from the digits of a fraction. -/
def nanoOfDigits (ds : List Char) : Nat :=
  let kept := ds.take 9
  natOfDigits kept * Nat.pow 10 (9 - kept.length)

/-- A fraction of a second, if there is a point; then there must be a digit behind it. -/
def fraction : Reader Nat := do
  match ← Reader.peek with
  | some '.' =>
    Reader.literal '.'
    match ← Reader.takeWhile isDigit with
    | [] => Reader.refuse
    | ds => return nanoOfDigits ds
  | _ => return 0

/-- The items of a date. -/
def date : Reader Date := do
  let y ← year
  mark '-'
  let m ← short
  mark '-'
  let d ← short
  match Date.make? y m d with
  | some date => return date
  | none => Reader.refuse

/-- Hour and minute. -/
def hourMinute : Reader (Nat × Nat) := do
  let h ← short
  mark ':'
  let m ← short
  return (h, m)

/-- Hour and minute with the colon right behind the hour. -/
def clock : Reader (Nat × Nat) := do
  let h ← short
  Reader.literal ':'
  let m ← short
  return (h, m)

/-- A colon, a second and a fraction. -/
def second : Reader (Nat × Nat) := do
  mark ':'
  let s ← short
  let f ← fraction
  return (s, f)

/-- The time with the given parts, if they are in their ranges. -/
def timeOf (hm : Nat × Nat) (sf : Nat × Nat) : Reader Time :=
  match Time.make? hm.1 hm.2 sf.1 sf.2 with
  | some t => pure t
  | none => Reader.refuse

/-- The items of a time, the second among them. -/
def time : Reader Time := do
  let hm ← hourMinute
  let sf ← second
  timeOf hm sf

/-- The items of a time; the second may be missing. -/
def looseTime : Reader Time := do
  let hm ← hourMinute
  Reader.blanks
  match ← Reader.peek with
  | some _ => do
    let sf ← second
    timeOf hm sf
  | none => timeOf hm (0, 0)

/-- Reads a date. -/
def date? (s : String) : Option Date := Reader.readAll (do let d ← date; Reader.blanks; pure d) s

/-- Reads a time of day; the second may be missing. -/
def time? (s : String) : Option Time :=
  Reader.readAll (do let t ← looseTime; Reader.blanks; pure t) s

/-- Reads an hour and a minute alone. -/
def clock? (s : String) : Option Time := Reader.readAll (do timeOf (← clock) (0, 0)) s

/-- Reads a date-time. -/
def dateTime? (s : String) : Option DateTime :=
  Reader.readAll (do
    let d ← date
    mark 'T'
    let t ← time
    Reader.blanks
    pure ⟨d, t⟩) s

/-! ## Date-times with an offset -/

/-- Whether `c` is a sign of an offset: a plus, a hyphen or the minus sign. -/
def isSign (c : Char) : Bool := c == '+' || c == '-' || c == '−'

/-- An offset in minutes: a sign, two digits for the hours, what `between` reads, and two digits
for the minutes, which are below 60. -/
def signedOffset (between : Reader Unit) : Reader Int := do
  let sign ← Reader.char isSign
  let h ← Reader.fixedNumber 2
  between
  let m ← Reader.fixedNumber 2
  if m < 60 then
    let minutes : Int := h * 60 + m
    return if sign == '+' then minutes else -minutes
  else Reader.refuse

/-- An offset: `Z` in any case, or a sign with hours and minutes. -/
def offset (between : Reader Unit) : Reader Int := do
  match ← Reader.peek with
  | some 'Z' =>
    Reader.literal 'Z'
    return 0
  | some 'z' =>
    Reader.literal 'z'
    return 0
  | _ => signedOffset between

/-- The word `UTC` in any case. -/
def utcWord : Reader Unit := do
  let _ ← Reader.char fun c => c == 'U' || c == 'u'
  let _ ← Reader.char fun c => c == 'T' || c == 't'
  let _ ← Reader.char fun c => c == 'C' || c == 'c'

/-- An offset or the word `UTC`; colons and blanks may stand between hours and minutes. -/
def looseOffset : Reader Int := fun cs =>
  match utcWord.run cs with
  | some ((), r) => some (0, r)
  | none => offset (do let _ ← Reader.takeWhile fun c => c == ':' || isBlank c) cs

/-- Whether `c` may stand between a date and a time that has an offset. -/
def isBetween (c : Char) : Bool := c == 'T' || c == 't' || c == ' '

/-- Reads a date-time with an offset, loosely spaced. One character stands between date and time:
a `T` of any case or a space. -/
def offsetDateTime? (s : String) : Option OffsetDateTime := do
  let (dt, o) ← Reader.readAll (do
    let d ← date
    let _ ← Reader.char isBetween
    let t ← time
    Reader.blanks
    let o ← looseOffset
    Reader.blanks
    pure ((⟨d, t⟩ : DateTime), o)) s
  OffsetDateTime.make? dt o

end Item

end FilterQuery
