/-
# FilterQuery.Calendar.Time -- times of day

A time of day has hours, minutes, seconds and nanoseconds. Any minute may have a second numbered
60, a leap second. Fractions are written with 3, 6 or 9 digits, the fewest that are exact, and
not at all when they are zero.
-/

import FilterQuery.Text.Reader

namespace FilterQuery

open Text

/-- A time of day. In a leap second the second is 60. -/
structure Time where
  hour : Nat
  minute : Nat
  second : Nat
  nano : Nat
  valid : hour < 24 ∧ minute < 60 ∧ second ≤ 60 ∧ nano < 1000000000
  deriving Repr, DecidableEq

namespace Time

/-- The time with the given parts, if they are in their ranges. -/
def make? (hour minute second nano : Nat) : Option Time :=
  if h : hour < 24 ∧ minute < 60 ∧ second ≤ 60 ∧ nano < 1000000000 then
    some ⟨hour, minute, second, nano, h⟩
  else none

theorem make?_eq_some_iff {hour minute second nano : Nat} {t : Time} :
    make? hour minute second nano = some t ↔
      t.hour = hour ∧ t.minute = minute ∧ t.second = second ∧ t.nano = nano := by
  unfold make?
  constructor
  · intro h
    split at h
    · cases h
      exact ⟨rfl, rfl, rfl, rfl⟩
    · cases h
  · rintro ⟨rfl, rfl, rfl, rfl⟩
    exact dif_pos t.valid

/-- The start of a day. -/
def midnight : Time := ⟨0, 0, 0, 0, by decide⟩

/-- The minutes since the start of the day. -/
def minutes (t : Time) : Nat := t.hour * 60 + t.minute

/-- The time with its hour and minute replaced by those of minute number `m` of a day, of which
whole days are left out; the second stays. -/
def withMinutes (t : Time) (m : Nat) : Time where
  hour := m % 1440 / 60
  minute := m % 60
  second := t.second
  nano := t.nano
  valid := ⟨by omega, by omega, t.valid.2.2.1, t.valid.2.2.2⟩

/-- A fraction of a second. -/
def renderFraction (nano : Nat) : List Char :=
  if nano = 0 then []
  else if nano % 1000000 = 0 then '.' :: paddedDigits 3 (nano / 1000000)
  else if nano % 1000 = 0 then '.' :: paddedDigits 6 (nano / 1000)
  else '.' :: paddedDigits 9 nano

/-- Hours, minutes and seconds with colons, then the fraction. -/
def render (t : Time) : List Char :=
  paddedDigits 2 t.hour ++ ':' :: paddedDigits 2 t.minute ++ ':' :: paddedDigits 2 t.second ++
    renderFraction t.nano

end Time

end FilterQuery
