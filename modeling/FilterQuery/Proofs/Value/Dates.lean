/-
# FilterQuery.Proofs.Value.Dates -- days and date-times are read from the same texts

A day and a date-time are read in three formats each, the day first as a day and the date-time
first as a date-time. No text is in two of the formats, so the order makes no difference: both types
read the same texts, and read a text in the same format (`Value.dates_agree`). From a timestamp the
day is the one on the wall and the date-time the one at UTC, which can lie in another year.
-/

import FilterQuery.Proofs.Calendar.Days
import FilterQuery.Proofs.Calendar.Formats
import FilterQuery.Value.Convert

namespace FilterQuery

namespace Value

variable {raw : String} {d : Date} {dt : DateTime} {z : OffsetDateTime}

/-! ## One format -/

theorem readDate?_of_timestamp (h : Rfc3339.dateTime? raw = some z) :
    readDate? raw = some z.wall.date := by
  rw [readDate?, Rfc3339.date?_eq_none h, Rfc3339.dateTime?_eq_none h, h]
  rfl

theorem readDateTime?_of_timestamp (h : Rfc3339.dateTime? raw = some z) :
    readDateTime? raw = some z.utc := by
  rw [readDateTime?, Rfc3339.dateTime?_eq_none h, h]

theorem readDateTime?_of_dateTime? (h : Item.dateTime? raw = some dt) :
    readDateTime? raw = some dt := by
  rw [readDateTime?, h]

theorem readDateTime?_of_date? (hnone : Rfc3339.dateTime? raw = none)
    (h : Item.date? raw = some d) : readDateTime? raw = some ⟨d, .midnight⟩ := by
  have hdateTime : Item.dateTime? raw = none := by
    cases hdt : Item.dateTime? raw with
    | none => rfl
    | some dt => cases h.symm.trans (Item.date?_eq_none_of_dateTime? hdt)
  rw [readDateTime?, hdateTime, hnone, h]
  rfl

/-- A day that is read from a text that is no timestamp is the day of the date-time that is read
from the text; this is at midnight if the text has no time part. -/
theorem exists_readDateTime?_of_readDate? (hnone : Rfc3339.dateTime? raw = none)
    (h : readDate? raw = some d) :
    ∃ dt, readDateTime? raw = some dt ∧ dt.date = d ∧ (¬HasTimePart raw → dt.time = .midnight) := by
  unfold readDate? at h
  split at h
  · rename_i hdate
    cases h
    exact ⟨_, readDateTime?_of_date? hnone hdate, rfl, fun _ => rfl⟩
  · split at h
    · rename_i dt hdateTime
      cases h
      exact ⟨dt, readDateTime?_of_dateTime? hdateTime, rfl,
        fun hpart => absurd (hasTimePart_of_dateTime? hdateTime) hpart⟩
    · rw [hnone] at h
      cases h

/-- A text is refused just if none of the three formats reads it. -/
theorem isSome_readDate?_iff :
    (readDate? raw).isSome = true ↔ (readDateTime? raw).isSome = true := by
  unfold readDate? readDateTime?
  cases Item.date? raw <;> cases Item.dateTime? raw <;> cases Rfc3339.dateTime? raw <;> simp

/-! ## Both types -/

theorem read?_date_eq_some_iff : read? raw .date = some (.date d) ↔ readDate? raw = some d := by
  show (readDate? raw).map Value.date = some (.date d) ↔ _
  simp

theorem read?_dateTime_eq_some_iff :
    read? raw .dateTime = some (.dateTime dt) ↔ readDateTime? raw = some dt := by
  show (readDateTime? raw).map Value.dateTime = some (.dateTime dt) ↔ _
  simp

theorem read?_offsetDateTime_eq_some_iff :
    read? raw .offsetDateTime = some (.offsetDateTime z) ↔ Rfc3339.dateTime? raw = some z := by
  show (Rfc3339.dateTime? raw).map Value.offsetDateTime = some (.offsetDateTime z) ↔ _
  simp

/-- Days and date-times are read from the same texts, and timestamps are among these. From a
timestamp the day is that of its wall clock, and the date-time is the one that is by the offset
earlier than its wall clock. From any other text that gives a day, the date-time is on that day, at
midnight if the text has no time part. -/
theorem dates_agree (raw : String) :
    ((read? raw .date).isSome = true ↔ (read? raw .dateTime).isSome = true) ∧
      ((read? raw .offsetDateTime).isSome = true →
        (read? raw .date).isSome = true ∧ (read? raw .dateTime).isSome = true) ∧
      (∀ z, read? raw .offsetDateTime = some (.offsetDateTime z) →
        read? raw .date = some (.date z.wall.date) ∧
          ∀ u, read? raw .dateTime = some (.dateTime u) ↔ z.wall.After (-z.offset) u) ∧
      (read? raw .offsetDateTime = none → ∀ d, read? raw .date = some (.date d) →
        ∃ dt, read? raw .dateTime = some (.dateTime dt) ∧ dt.date = d ∧
          (¬HasTimePart raw → dt.time = .midnight)) := by
  have hsame : (read? raw .date).isSome = true ↔ (read? raw .dateTime).isSome = true := by
    show ((readDate? raw).map Value.date).isSome = true ↔
      ((readDateTime? raw).map Value.dateTime).isSome = true
    rw [Option.isSome_map, Option.isSome_map]
    exact isSome_readDate?_iff
  refine ⟨hsame, ?_, ?_, ?_⟩
  · intro htimestamp
    obtain ⟨v, hv⟩ := Option.isSome_iff_exists.1 htimestamp
    obtain ⟨z, hz, -⟩ := Option.map_eq_some_iff.1 hv
    have hdate : (read? raw .date).isSome = true := by
      rw [read?_date_eq_some_iff.2 (readDate?_of_timestamp hz)]
      rfl
    exact ⟨hdate, hsame.1 hdate⟩
  · intro z htimestamp
    have hz := read?_offsetDateTime_eq_some_iff.1 htimestamp
    refine ⟨read?_date_eq_some_iff.2 (readDate?_of_timestamp hz), fun u => ?_⟩
    rw [read?_dateTime_eq_some_iff, readDateTime?_of_timestamp hz]
    constructor
    · rintro ⟨⟩
      exact z.after_utc
    · intro hu
      rw [z.after_utc.unique hu]
  · intro hother d hdate
    have hnone : Rfc3339.dateTime? raw = none := Option.map_eq_none_iff.1 hother
    obtain ⟨dt, hdt, hday, hmidnight⟩ :=
      exists_readDateTime?_of_readDate? hnone (read?_date_eq_some_iff.1 hdate)
    exact ⟨dt, read?_dateTime_eq_some_iff.2 hdt, hday, hmidnight⟩

/-- At the start of the year 0 an hour ahead of UTC the date-time lies in the year before. A day
alone, here with blanks around its hyphens, is taken at midnight. -/
theorem dates_agree_year_start :
    read? "0000-01-01T00:30:00+01:00" .date = some (.date ⟨0, 1, 1, by decide⟩) ∧
      read? "0000-01-01T00:30:00+01:00" .dateTime =
        some (.dateTime ⟨⟨-1, 12, 31, by decide⟩, ⟨23, 30, 0, 0, by decide⟩⟩) ∧
      ∃ dt, read? "+2024 - 2-29 " .dateTime = some (.dateTime dt) ∧
        dt.date = ⟨2024, 2, 29, by decide⟩ ∧ dt.time = .midnight := by
  have hstamp : read? "0000-01-01T00:30:00+01:00" .offsetDateTime = some (.offsetDateTime
      { wall := ⟨⟨0, 1, 1, by decide⟩, ⟨0, 30, 0, 0, by decide⟩⟩
        offset := 60
        utc := ⟨⟨-1, 12, 31, by decide⟩, ⟨23, 30, 0, 0, by decide⟩⟩
        offset_lt := by decide
        utc_eq := rfl }) := rfl
  have hday : read? "+2024 - 2-29 " .date = some (.date ⟨2024, 2, 29, by decide⟩) := rfl
  have halone : Item.date? "+2024 - 2-29 " = some ⟨2024, 2, 29, by decide⟩ := rfl
  obtain ⟨-, -, htimestamp, -⟩ := dates_agree "0000-01-01T00:30:00+01:00"
  obtain ⟨hdate, hdateTime⟩ := htimestamp _ hstamp
  obtain ⟨-, -, -, hother⟩ := dates_agree "+2024 - 2-29 "
  obtain ⟨dt, hdt, hdtDate, hmidnight⟩ := hother rfl _ hday
  exact ⟨hdate, (hdateTime _).2 ⟨by decide, rfl, rfl⟩, dt, hdt, hdtDate,
    hmidnight (not_hasTimePart_of_date? halone)⟩

end Value

end FilterQuery
