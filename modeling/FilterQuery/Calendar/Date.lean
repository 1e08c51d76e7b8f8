/-
# FilterQuery.Calendar.Date -- days of the Gregorian calendar

Dates of the Gregorian calendar, carried on into the past, with the year 0 before the year 1.
They run from 1 January of the year -262143 to 31 December of the year 262142. A date is valid by
its type: its month has that day.
-/

import FilterQuery.Text.Reader

namespace FilterQuery

open Text

/-- Whether a year has 366 days. -/
def isLeapYear (y : Int) : Bool := y % 4 = 0 ∧ (y % 100 ≠ 0 ∨ y % 400 = 0)

/-- The number of days of a month; there are none in a month that does not exist. -/
def daysInMonth (y : Int) (m : Nat) : Nat :=
  match m with
  | 1 | 3 | 5 | 7 | 8 | 10 | 12 => 31
  | 4 | 6 | 9 | 11 => 30
  | 2 => if isLeapYear y then 29 else 28
  | _ => 0

/-- Whether there is a day with this year, month and day. -/
def isDay (y : Int) (m d : Nat) : Bool :=
  -262143 ≤ y ∧ y ≤ 262142 ∧ 1 ≤ d ∧ d ≤ daysInMonth y m

/-- A day. The year before 1 is 0; months, and the days of a month, count from 1. -/
structure Date where
  year : Int
  month : Nat
  day : Nat
  valid : isDay year month day = true
  deriving Repr, DecidableEq

namespace Date

/-- The day with the given year, month and day, if there is one. -/
def make? (y : Int) (m d : Nat) : Option Date :=
  if h : isDay y m d = true then some ⟨y, m, d, h⟩ else none

theorem make?_eq_some_iff {y : Int} {m d : Nat} {e : Date} :
    make? y m d = some e ↔ e.year = y ∧ e.month = m ∧ e.day = d := by
  unfold make?
  constructor
  · intro h
    split at h
    · cases h
      exact ⟨rfl, rfl, rfl⟩
    · cases h
  · rintro ⟨rfl, rfl, rfl⟩
    exact dif_pos e.valid

/-- The day after, but for the last. -/
def next? (d : Date) : Option Date :=
  if d.day < daysInMonth d.year d.month then make? d.year d.month (d.day + 1)
  else if d.month < 12 then make? d.year (d.month + 1) 1
  else make? (d.year + 1) 1 1

/-- The day before, but for the first. -/
def previous? (d : Date) : Option Date :=
  if 1 < d.day then make? d.year d.month (d.day - 1)
  else if 1 < d.month then make? d.year (d.month - 1) (daysInMonth d.year (d.month - 1))
  else make? (d.year - 1) 12 31

/-- A year: four digits from 0 to 9999, else a sign and at least four digits. -/
def renderYear (y : Int) : List Char :=
  if 0 ≤ y ∧ y ≤ 9999 then paddedDigits 4 y.natAbs
  else (if y < 0 then '-' else '+') :: paddedDigits 4 y.natAbs

/-- Year, month and day with hyphens. -/
def render (d : Date) : List Char :=
  renderYear d.year ++ '-' :: paddedDigits 2 d.month ++ '-' :: paddedDigits 2 d.day

end Date

end FilterQuery
