/-
# FilterQuery.Proofs.Calendar.RoundTrip -- written dates and times are read back

Days, times of day and date-times are written with numbers of fixed width, so the readers of fixed
width take them apart, and the loosely spaced items, which these refine, read the same. Only a year
before 0 or behind 9999 is read by the items alone: it stands behind a sign, and its digits end at
the hyphen. A fraction of a second is written with 3, 6 or 9 digits and counts the same in each
(`Item.nanoOfDigits_paddedDigits`); digits or a point must not follow it.

So each day, time and date-time is read back, and a timestamp is read back if its year has four
digits. This is no restriction on timestamps that were read (`Rfc3339.year_of_dateTime?`).
-/

import FilterQuery.Proofs.Calendar.Days
import FilterQuery.Proofs.Calendar.Formats

namespace FilterQuery

open Text Reader

variable {rest : List Char} {n w : Nat}

/-- What may stand behind a second: neither a digit nor a point. -/
def EndsSecond (rest : List Char) : Prop := ∀ c ∈ rest.head?, isDigit c = false ∧ c ≠ '.'

/-! ## Days -/

namespace Date

theorem render_eq (d : Date) :
    d.render = renderYear d.year ++
      '-' :: (paddedDigits 2 d.month ++ '-' :: paddedDigits 2 d.day) := by
  simp only [render, List.append_assoc, List.cons_append]

end Date

namespace Rfc3339

/-- The month and the day of a written date. -/
theorem reads_monthDay (d : Date) (rest : List Char) :
    Reads (monthDay d.year) ('-' :: (paddedDigits 2 d.month ++ '-' :: paddedDigits 2 d.day)) d
      rest := by
  have hmonth : d.month < 100 := by
    have hle := d.month_le
    omega
  have hday : d.day < 100 := by
    have hle := d.day_le_thirtyOne
    omega
  have hmake : Date.make? d.year d.month d.day = some d := Date.make?_eq_some_iff.2 ⟨rfl, rfl, rfl⟩
  refine .literal_bind ((reads_fixedNumber (by decide) hmonth _).bind (.literal_bind ?_))
  refine (reads_fixedNumber (by decide) hday rest).bind_last ?_
  rw [hmake]
  exact .pure d rest

/-- A year of four digits. -/
theorem reads_year {y : Int} (hlow : 0 ≤ y) (hhigh : y ≤ 9999) (rest : List Char) :
    Reads ((fun n : Nat => (n : Int)) <$> fixedNumber 4) (Date.renderYear y) y rest := by
  have hy : ((y.natAbs : Nat) : Int) = y := by omega
  have hlt : y.natAbs < 10000 := by omega
  rw [Date.renderYear, if_pos ⟨hlow, hhigh⟩, map_eq_pure_bind]
  refine (reads_fixedNumber (by decide) hlt rest).bind_last ?_
  rw [hy]
  exact .pure y rest

theorem reads_date {d : Date} (hlow : 0 ≤ d.year) (hhigh : d.year ≤ 9999) (rest : List Char) :
    Reads date d.render d rest := by
  rw [date_eq, d.render_eq]
  exact (reads_year hlow hhigh _).bind (reads_monthDay d rest)

end Rfc3339

namespace Item

/-- The digits of a year behind its sign end at the hyphen. -/
theorem reads_digits_year (n : Nat) (rest : List Char) :
    Reads anyNumber (paddedDigits 4 n) n ('-' :: rest) := by
  have hhyphen : ∀ c ∈ ('-' :: rest).head?, isDigit c = false := by
    rintro c ⟨⟩
    rfl
  have hread := reads_anyNumber (paddedDigits_ne_nil 4 n) (all_isDigit_paddedDigits 4 n) hhyphen
  rw [natOfDigits_paddedDigits] at hread
  exact hread

theorem reads_year (y : Int) (rest : List Char) :
    Reads year (Date.renderYear y) y ('-' :: rest) := by
  by_cases hfour : 0 ≤ y ∧ y ≤ 9999
  · exact (Rfc3339.reads_year hfour.1 hfour.2 _).refines fixedNumber_refines_year
  · rw [Date.renderYear, if_neg hfour]
    have hdigits := reads_digits_year y.natAbs rest
    split
    · have hy : -((y.natAbs : Nat) : Int) = y := by omega
      refine .blanks_bind (by decide) (.peek_bind (.literal_bind (hdigits.bind_last ?_)))
      rw [hy]
      exact .pure y _
    · have hy : ((y.natAbs : Nat) : Int) = y := by omega
      refine .blanks_bind (by decide) (.peek_bind (.literal_bind (hdigits.bind_last ?_)))
      rw [hy]
      exact .pure y _

theorem reads_date (d : Date) (rest : List Char) : Reads date d.render d rest := by
  rw [date_eq, d.render_eq]
  exact (reads_year d.year _).bind
    ((Rfc3339.reads_monthDay d rest).refines (Rfc3339.monthDay_refines d.year))

end Item

/-! ## Times -/

namespace Item

/-- Digits of a fraction count the more nanoseconds the fewer they are. -/
theorem nanoOfDigits_paddedDigits (hpos : 0 < w) (hw : w ≤ 9) (hn : n < Nat.pow 10 w) :
    nanoOfDigits (paddedDigits w n) = n * Nat.pow 10 (9 - w) := by
  have hlength := length_paddedDigits hpos hn
  have htake : (paddedDigits w n).take 9 = paddedDigits w n :=
    List.take_of_length_le (by omega)
  rw [nanoOfDigits, htake, natOfDigits_paddedDigits, hlength]

/-- So many digits are enough for the nanoseconds of a second in units of the last of them. -/
theorem nano_div_lt {nano unit : Nat} (hw : w ≤ 9) (hunit : Nat.pow 10 (9 - w) = unit)
    (hnano : nano < 1000000000) : nano / unit < Nat.pow 10 w := by
  have hsplit : unit * Nat.pow 10 w = 1000000000 := by
    rw [← hunit, Nat.pow_eq, Nat.pow_eq, ← Nat.pow_add, Nat.sub_add_cancel hw]
  apply Nat.div_lt_of_lt_mul
  rw [hsplit]
  exact hnano

/-- A point and the digits of nanoseconds that so many digits write exactly. -/
theorem reads_point {nano unit : Nat} (hpos : 0 < w) (hw : w ≤ 9)
    (hunit : Nat.pow 10 (9 - w) = unit) (hnano : nano < 1000000000) (hexact : nano % unit = 0)
    (hrest : EndsSecond rest) :
    Reads fraction ('.' :: paddedDigits w (nano / unit)) nano rest := by
  have hn := nano_div_lt hw hunit hnano
  have hvalue : nanoOfDigits (paddedDigits w (nano / unit)) = nano := by
    rw [nanoOfDigits_paddedDigits hpos hw hn, hunit]
    exact Nat.div_mul_cancel (Nat.dvd_of_mod_eq_zero hexact)
  have hdigits := reads_digits (all_isDigit_paddedDigits w (nano / unit)) fun c hc => (hrest c hc).1
  have hne := paddedDigits_ne_nil w (nano / unit)
  generalize paddedDigits w (nano / unit) = ds at hvalue hdigits hne
  refine .peek_bind (.literal_bind (hdigits.bind_last ?_))
  cases ds with
  | nil => exact absurd rfl hne
  | cons d ds =>
    rw [← hvalue]
    exact .pure _ rest

/-- Without a point there is no fraction. -/
theorem reads_no_fraction (hrest : EndsSecond rest) : Reads fraction [] 0 rest := by
  cases rest with
  | nil => rfl
  | cons c rest =>
    have hc := (hrest c rfl).2
    refine run_bind_eq_some_iff.2 ⟨some c, c :: rest, rfl, ?_⟩
    split
    · rename_i heq
      exact absurd (Option.some.inj heq) hc
    · rfl

/-- A fraction is written with the fewest digits that are exact. -/
theorem reads_fraction {nano : Nat} (hnano : nano < 1000000000) (hrest : EndsSecond rest) :
    Reads fraction (Time.renderFraction nano) nano rest := by
  unfold Time.renderFraction
  split
  · rename_i hzero
    rw [hzero]
    exact reads_no_fraction hrest
  · split
    · rename_i hmilli
      exact reads_point (by decide) (by decide) rfl hnano hmilli hrest
    · split
      · rename_i hmicro
        exact reads_point (by decide) (by decide) rfl hnano hmicro hrest
      · have hread : Reads fraction ('.' :: paddedDigits 9 (nano / 1)) nano rest :=
          reads_point (by decide) (by decide) rfl hnano (Nat.mod_one nano) hrest
        rw [Nat.div_one] at hread
        exact hread

end Item

namespace Time

theorem render_eq (t : Time) :
    t.render = paddedDigits 2 t.hour ++ ':' :: (paddedDigits 2 t.minute ++
      ':' :: (paddedDigits 2 t.second ++ renderFraction t.nano)) := by
  simp only [render, List.append_assoc, List.cons_append]

end Time

namespace Rfc3339

theorem reads_time (t : Time) (hrest : EndsSecond rest) : Reads time t.render t rest := by
  obtain ⟨hhour, hminute, hsecond, hnano⟩ := t.valid
  have hmake : Time.make? t.hour t.minute t.second t.nano = some t :=
    Time.make?_eq_some_iff.2 ⟨rfl, rfl, rfl, rfl⟩
  have htime : Reads (Item.timeOf (t.hour, t.minute) (t.second, t.nano)) [] t rest := by
    unfold Item.timeOf
    dsimp only
    rw [hmake]
    exact .pure t rest
  rw [t.render_eq]
  refine (reads_fixedNumber (by decide) (show _ < 100 by omega) _).bind (.literal_bind ?_)
  refine (reads_fixedNumber (by decide) (show _ < 100 by omega) _).bind (.literal_bind ?_)
  refine (reads_fixedNumber (by decide) (show _ < 100 by omega) _).bind ?_
  exact (Item.reads_fraction hnano hrest).bind_last htime

end Rfc3339

namespace Item

theorem reads_time (t : Time) (hrest : EndsSecond rest) : Reads time t.render t rest :=
  (Rfc3339.reads_time t hrest).refines Rfc3339.time_refines

end Item

/-! ## Offsets -/

namespace Item

/-- Hours and minutes behind a sign. -/
theorem reads_signedOffset (sign : Char) {hours minutes : Nat} (hsign : isSign sign = true)
    (hhours : hours < 100) (hminutes : minutes < 60) (rest : List Char) :
    Reads (signedOffset (literal ':'))
      (sign :: (paddedDigits 2 hours ++ ':' :: paddedDigits 2 minutes))
      (if sign == '+' then (hours * 60 + minutes : Int) else -(hours * 60 + minutes : Int))
      rest := by
  refine (reads_char hsign _).bind ((reads_fixedNumber (by decide) hhours _).bind ?_)
  refine .literal_bind ((reads_fixedNumber (by decide) (show _ < 100 by omega) _).bind_last ?_)
  rw [if_pos hminutes]
  exact .pure _ rest

theorem reads_offset {o : Int} (ho : o.natAbs < 1440) (rest : List Char) :
    Reads (offset (literal ':')) (OffsetDateTime.renderOffset o) o rest := by
  have hhours : o.natAbs / 60 < 100 := by omega
  have hminutes : o.natAbs % 60 < 60 := by omega
  unfold OffsetDateTime.renderOffset
  split
  · have hread := reads_signedOffset '-' rfl hhours hminutes rest
    have hvalue : -((o.natAbs / 60 : Nat) * 60 + (o.natAbs % 60 : Nat) : Int) = o := by omega
    rw [if_neg (by decide), hvalue] at hread
    exact .peek_bind hread
  · have hread := reads_signedOffset '+' rfl hhours hminutes rest
    have hvalue : ((o.natAbs / 60 : Nat) * 60 + (o.natAbs % 60 : Nat) : Int) = o := by omega
    rw [if_pos (by decide), hvalue] at hread
    exact .peek_bind hread

/-- The sign of an offset ends the second before it. -/
theorem endsSecond_renderOffset (o : Int) (rest : List Char) :
    EndsSecond (OffsetDateTime.renderOffset o ++ rest) := by
  rintro c ⟨⟩
  split <;> decide

end Item

/-! ## Whole texts -/

theorem EndsSecond.nil : EndsSecond [] := nofun

namespace Item

theorem date?_render (d : Date) : date? (String.ofList d.render) = some d := by
  rw [date?_eq_some_iff, String.toList_ofList]
  exact ⟨[], (reads_date d []).run_eq, rfl⟩

/-- The second is written also where it may be missing. -/
theorem time?_render (t : Time) : time? (String.ofList t.render) = some t := by
  have hread := (reads_time t .nil).refines time_refines_looseTime
  rw [time?, readAll_eq_some_iff, String.toList_ofList]
  exact run_bind_eq_some_iff.2 ⟨t, [], hread.run_eq, rfl⟩

theorem dateTime?_render (dt : DateTime) : dateTime? (String.ofList dt.render) = some dt := by
  rw [dateTime?_eq_some_iff, String.toList_ofList]
  exact ⟨'T' :: dt.time.render, dt.time.render, [], reads_date dt.date _,
    skipBlanks_cons (by decide) _, (reads_time dt.time .nil).run_eq, rfl⟩

end Item

namespace Rfc3339

theorem dateTime?_render {z : OffsetDateTime} (hlow : 0 ≤ z.wall.date.year)
    (hhigh : z.wall.date.year ≤ 9999) : dateTime? (String.ofList z.render) = some z := by
  have hrender : z.render = z.wall.date.render ++
      'T' :: (z.wall.time.render ++ OffsetDateTime.renderOffset z.offset) := by
    simp only [OffsetDateTime.render, DateTime.render, List.append_assoc, List.cons_append]
  have hoffset := Item.endsSecond_renderOffset z.offset []
  rw [List.append_nil] at hoffset
  rw [dateTime?_eq_some_iff, String.toList_ofList, hrender]
  exact ⟨'T', _, _, reads_date hlow hhigh _, rfl, reads_time z.wall.time hoffset,
    (Item.reads_offset z.offset_lt []).run_eq⟩

/-- The year behind which month and day are read is the year of the date. -/
theorem year_of_run_monthDay {y : Int} {cs : List Char} {d : Date}
    (h : (monthDay y).run cs = some (d, rest)) : d.year = y := by
  obtain ⟨-, _, -, h⟩ := run_bind_eq_some_iff.1 h
  obtain ⟨m, _, -, h⟩ := run_bind_eq_some_iff.1 h
  obtain ⟨-, _, -, h⟩ := run_bind_eq_some_iff.1 h
  obtain ⟨day, _, -, h⟩ := run_bind_eq_some_iff.1 h
  split at h
  · rename_i hmake
    obtain ⟨rfl, -⟩ := run_pure_eq_some_iff.1 h
    exact (Date.make?_eq_some_iff.1 hmake).1
  · cases h

/-- The year of a timestamp has four digits. -/
theorem year_of_dateTime? {s : String} {z : OffsetDateTime} (h : dateTime? s = some z) :
    0 ≤ z.wall.date.year ∧ z.wall.date.year ≤ 9999 := by
  obtain ⟨c, mid, behind, hdate, -⟩ := dateTime?_eq_some_iff.1 h
  obtain ⟨n, mid', hyear, hmonthDay⟩ := run_bind_eq_some_iff.1 hdate
  have hlt : n < 10000 := lt_of_run_fixedNumber hyear
  rw [year_of_run_monthDay hmonthDay]
  omega

end Rfc3339

end FilterQuery
