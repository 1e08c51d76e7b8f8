/-
# FilterQuery.Calendar.DateTime -- dates with times

A date-time is a day and a time of day on some unnamed clock. An offset date-time adds how many
minutes that clock is ahead of UTC. Its time in UTC must exist, that is lie in the range of
dates, and is kept with it. Two offset date-times name the same instant when their times in UTC
are equal.
-/

import FilterQuery.Calendar.Date
import FilterQuery.Calendar.Time

namespace FilterQuery

open Text

/-- A day and a time of day. -/
structure DateTime where
  date : Date
  time : Time
  deriving Repr, DecidableEq

namespace DateTime

/-- The date-time some minutes later, or earlier if they are negative; they must be less than a
day. A leap second stays one. -/
def shift? (dt : DateTime) (minutes : Int) : Option DateTime :=
  let m := dt.time.minutes + minutes
  if m < 0 then dt.date.previous?.map fun d => ⟨d, dt.time.withMinutes (m + 1440).toNat⟩
  else if m < 1440 then some ⟨dt.date, dt.time.withMinutes m.toNat⟩
  else dt.date.next?.map fun d => ⟨d, dt.time.withMinutes (m - 1440).toNat⟩

/-- Date and time with a `T` between them. -/
def render (dt : DateTime) : List Char := dt.date.render ++ 'T' :: dt.time.render

end DateTime

/-- A date-time on a clock on the wall that is ahead of UTC by an offset, in minutes. It is kept
with what a clock at UTC shows; clocks differ by less than a day. -/
structure OffsetDateTime where
  wall : DateTime
  offset : Int
  utc : DateTime
  offset_lt : offset.natAbs < 1440
  utc_eq : wall.shift? (-offset) = some utc
  deriving Repr, DecidableEq

namespace OffsetDateTime

/-- The date-time with the given clock, if it exists in UTC. -/
def make? (clock : DateTime) (offset : Int) : Option OffsetDateTime :=
  if ho : offset.natAbs < 1440 then
    match h : clock.shift? (-offset) with
    | some utc => some ⟨clock, offset, utc, ho, h⟩
    | none => none
  else none

theorem make?_eq_some_iff {clock : DateTime} {offset : Int} {z : OffsetDateTime} :
    make? clock offset = some z ↔ z.wall = clock ∧ z.offset = offset := by
  unfold make?
  constructor
  · intro h
    split at h
    · split at h
      · cases h
        exact ⟨rfl, rfl⟩
      · cases h
    · cases h
  · rintro ⟨rfl, rfl⟩
    rw [dif_pos z.offset_lt]
    split
    · rename_i utc hutc
      obtain rfl : z.utc = utc := Option.some.inj (z.utc_eq.symm.trans hutc)
      rfl
    · rename_i hnone
      cases hnone.symm.trans z.utc_eq

/-- Whether two date-times name the same instant. -/
def sameInstant (a b : OffsetDateTime) : Bool := a.utc == b.utc

/-- The offset: a sign, hours and minutes. -/
def renderOffset (minutes : Int) : List Char :=
  (if minutes < 0 then '-' else '+') ::
    paddedDigits 2 (minutes.natAbs / 60) ++ ':' :: paddedDigits 2 (minutes.natAbs % 60)

/-- Date, time and offset. -/
def render (dt : OffsetDateTime) : List Char := dt.wall.render ++ renderOffset dt.offset

/-- Date, time and offset, with `Z` for no offset. -/
def renderZulu (dt : OffsetDateTime) : List Char :=
  dt.wall.render ++ (if dt.offset = 0 then ['Z'] else renderOffset dt.offset)

end OffsetDateTime

end FilterQuery
