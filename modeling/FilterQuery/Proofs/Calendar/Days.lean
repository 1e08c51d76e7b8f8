/-
# FilterQuery.Proofs.Calendar.Days -- days and minutes in a row

The days of the calendar are numbered one after the other (`Date.number`): the day after a day has
the next number, the day before the one before, and no two days have the same. The year 0 begins
behind the number 0. That the numbers of a year go on where those of the year before end is the rule
of leap years (`daysBeforeYear_succ`).

With it the minutes of all days are in a row too, and a clock that is put forward by some minutes
shows what is so many minutes later (`DateTime.After`), also across the end of a month or a year.
There is one such date-time at most, so this says what putting a clock forward gives.
-/

import FilterQuery.Calendar.DateTime

namespace FilterQuery

/-! ## Years and months -/

/-- The days of a year. -/
def daysInYear (y : Int) : Nat := if isLeapYear y then 366 else 365

/-- The days of the years from the year 0 to the one before `y`; less than zero if `y` is before the
year 0. -/
def daysBeforeYear (y : Int) : Int := 365 * y + ((y + 3) / 4 - (y + 99) / 100 + (y + 399) / 400)

/-- The days of the months before `m` in a year. -/
def daysBeforeMonth (y : Int) : Nat → Nat
  | 0 => 0
  | m + 1 => daysBeforeMonth y m + daysInMonth y m

theorem daysBeforeYear_succ (y : Int) :
    daysBeforeYear (y + 1) = daysBeforeYear y + daysInYear y := by
  unfold daysBeforeYear daysInYear isLeapYear
  split
  · rename_i hleap
    simp only [decide_eq_true_eq] at hleap
    omega
  · rename_i hcommon
    simp only [decide_eq_true_eq] at hcommon
    omega

theorem daysBeforeYear_mono {y z : Int} (h : y ≤ z) : daysBeforeYear y ≤ daysBeforeYear z := by
  unfold daysBeforeYear
  omega

theorem daysBeforeMonth_succ (y : Int) (m : Nat) :
    daysBeforeMonth y (m + 1) = daysBeforeMonth y m + daysInMonth y m := rfl

/-- No month is before January. -/
theorem daysBeforeMonth_one (y : Int) : daysBeforeMonth y 1 = 0 := rfl

theorem daysBeforeMonth_mono (y : Int) {m n : Nat} (h : m ≤ n) :
    daysBeforeMonth y m ≤ daysBeforeMonth y n := by
  induction h with
  | refl => exact Nat.le_refl _
  | step _ ih =>
    rw [Nat.succ_eq_add_one, daysBeforeMonth_succ]
    exact Nat.le_add_right_of_le ih

/-- All months together are the year. -/
theorem daysBeforeMonth_thirteen (y : Int) : daysBeforeMonth y 13 = daysInYear y := by
  simp only [daysBeforeMonth, daysInMonth, daysInYear]
  split <;> rfl

namespace Date

variable {d e : Date}

/-! ## Days -/

theorem day_pos (d : Date) : 1 ≤ d.day := by
  have hvalid := d.valid
  simp only [isDay, decide_eq_true_eq] at hvalid
  exact hvalid.2.2.1

theorem day_le (d : Date) : d.day ≤ daysInMonth d.year d.month := by
  have hvalid := d.valid
  simp only [isDay, decide_eq_true_eq] at hvalid
  exact hvalid.2.2.2

/-- Only the twelve months have days. -/
theorem month_le (d : Date) : 1 ≤ d.month ∧ d.month ≤ 12 := by
  have hpos : 1 ≤ daysInMonth d.year d.month := Nat.le_trans d.day_pos d.day_le
  unfold daysInMonth at hpos
  split at hpos <;> omega

/-- No month is longer than 31 days. -/
theorem day_le_thirtyOne (d : Date) : d.day ≤ 31 := by
  refine Nat.le_trans d.day_le ?_
  unfold daysInMonth
  repeat' split
  all_goals decide

/-- The number of a day in the row of all days. -/
def number (d : Date) : Int := daysBeforeYear d.year + daysBeforeMonth d.year d.month + d.day

theorem number_next? (h : d.next? = some e) : e.number = d.number + 1 := by
  have hday := d.day_le
  have hmonth := d.month_le
  unfold next? at h
  unfold number
  split at h
  · obtain ⟨hy, hm, hd⟩ := make?_eq_some_iff.1 h
    rw [hy, hm, hd]
    omega
  · split at h
    · -- the day is the last of a month that another follows in the year
      obtain ⟨hy, hm, hd⟩ := make?_eq_some_iff.1 h
      rw [hy, hm, hd, daysBeforeMonth_succ]
      omega
    · -- the day is the last of the year
      obtain ⟨hy, hm, hd⟩ := make?_eq_some_iff.1 h
      have hyear := daysBeforeMonth_thirteen d.year
      have hlast : d.month = 12 := by omega
      rw [daysBeforeMonth_succ, ← hlast] at hyear
      rw [hy, hm, hd, daysBeforeMonth_one, daysBeforeYear_succ, ← hyear]
      omega

theorem number_previous? (h : d.previous? = some e) : e.number + 1 = d.number := by
  have hday := d.day_pos
  have hmonth := d.month_le
  unfold previous? at h
  unfold number
  split at h
  · obtain ⟨hy, hm, hd⟩ := make?_eq_some_iff.1 h
    rw [hy, hm, hd]
    omega
  · split at h
    · -- the day is the first of a month that is not the first of the year
      obtain ⟨hy, hm, hd⟩ := make?_eq_some_iff.1 h
      have hbefore := daysBeforeMonth_succ d.year (d.month - 1)
      rw [Nat.sub_add_cancel hmonth.1] at hbefore
      rw [hy, hm, hd, hbefore]
      omega
    · -- the day is the first of the year
      obtain ⟨hy, hm, hd⟩ := make?_eq_some_iff.1 h
      have hyear := daysBeforeYear_succ (d.year - 1)
      have hfirst : d.month = 1 := by omega
      rw [Int.sub_add_cancel, ← daysBeforeMonth_thirteen, daysBeforeMonth_succ] at hyear
      rw [hy, hm, hd, hyear, hfirst, daysBeforeMonth_one]
      have hdays : daysInMonth (d.year - 1) 12 = 31 := rfl
      omega

/-- A day lies in its month. -/
theorem number_mem_month (d : Date) :
    daysBeforeYear d.year + daysBeforeMonth d.year d.month < d.number ∧
      d.number ≤ daysBeforeYear d.year + daysBeforeMonth d.year (d.month + 1) := by
  have hpos := d.day_pos
  have hle := d.day_le
  rw [daysBeforeMonth_succ, number]
  omega

/-- A day lies in its year. -/
theorem number_mem_year (d : Date) :
    daysBeforeYear d.year < d.number ∧ d.number ≤ daysBeforeYear (d.year + 1) := by
  have hmonth := d.number_mem_month
  have hlast := daysBeforeMonth_mono d.year (show d.month + 1 ≤ 13 by have := d.month_le; omega)
  rw [daysBeforeMonth_thirteen] at hlast
  rw [daysBeforeYear_succ]
  omega

theorem number_lt_of_year_lt (h : d.year < e.year) : d.number < e.number := by
  have hle := daysBeforeYear_mono (show d.year + 1 ≤ e.year from h)
  have hd := d.number_mem_year
  have he := e.number_mem_year
  omega

theorem number_lt_of_month_lt (hyear : d.year = e.year) (h : d.month < e.month) :
    d.number < e.number := by
  have hle := daysBeforeMonth_mono d.year (show d.month + 1 ≤ e.month from h)
  have hd := d.number_mem_month
  have he := e.number_mem_month
  rw [← hyear] at he
  omega

/-- No two days have the same number. -/
theorem number_injective (h : d.number = e.number) : d = e := by
  have hyear : d.year = e.year := by
    rcases Int.lt_trichotomy d.year e.year with hlt | heq | hlt
    · exact absurd h (Int.ne_of_lt (number_lt_of_year_lt hlt))
    · exact heq
    · exact absurd h.symm (Int.ne_of_lt (number_lt_of_year_lt hlt))
  have hmonth : d.month = e.month := by
    rcases Nat.lt_trichotomy d.month e.month with hlt | heq | hlt
    · exact absurd h (Int.ne_of_lt (number_lt_of_month_lt hyear hlt))
    · exact heq
    · exact absurd h.symm (Int.ne_of_lt (number_lt_of_month_lt hyear.symm hlt))
  have hday : d.day = e.day := by
    rw [number, number, hyear, hmonth] at h
    omega
  cases d
  cases e
  cases hyear
  cases hmonth
  cases hday
  rfl

end Date

/-! ## Minutes -/

namespace Time

theorem minutes_lt (t : Time) : t.minutes < 1440 := by
  have hvalid := t.valid
  unfold minutes
  omega

theorem minutes_withMinutes (t : Time) (m : Nat) : (t.withMinutes m).minutes = m % 1440 := by
  show m % 1440 / 60 * 60 + m % 60 = m % 1440
  omega

/-- A time of day is its minute with the second and its fraction. -/
theorem eq_of_minutes_eq {t u : Time} (hminutes : t.minutes = u.minutes)
    (hsecond : t.second = u.second) (hnano : t.nano = u.nano) : t = u := by
  have ht := t.valid
  have hu := u.valid
  unfold minutes at hminutes
  have hhour : t.hour = u.hour := by omega
  have hminute : t.minute = u.minute := by omega
  cases t
  cases u
  cases hhour
  cases hminute
  cases hsecond
  cases hnano
  rfl

end Time

namespace DateTime

variable {dt u v : DateTime} {minutes : Int}

/-- The number of a minute in the row of the minutes of all days. -/
def minuteNumber (dt : DateTime) : Int := dt.date.number * 1440 + dt.time.minutes

/-- The date-time `u` is some minutes later than `dt`, or earlier if they are negative. -/
structure After (dt : DateTime) (minutes : Int) (u : DateTime) : Prop where
  minuteNumber_eq : u.minuteNumber = dt.minuteNumber + minutes
  second_eq : u.time.second = dt.time.second
  nano_eq : u.time.nano = dt.time.nano

/-- Only one date-time is so many minutes later. -/
theorem After.unique (hu : dt.After minutes u) (hv : dt.After minutes v) : u = v := by
  have hnumber : u.minuteNumber = v.minuteNumber := hu.minuteNumber_eq.trans hv.minuteNumber_eq.symm
  have hult := u.time.minutes_lt
  have hvlt := v.time.minutes_lt
  unfold minuteNumber at hnumber
  have hdate : u.date = v.date := Date.number_injective (by omega)
  have htime : u.time = v.time := by
    apply Time.eq_of_minutes_eq _ (hu.second_eq.trans hv.second_eq.symm)
      (hu.nano_eq.trans hv.nano_eq.symm)
    rw [hdate] at hnumber
    omega
  cases u
  cases v
  cases hdate
  cases htime
  rfl

/-- Putting a clock forward, by less than a day, gives what is so many minutes later. -/
theorem after_of_shift? (hminutes : minutes.natAbs < 1440) (h : dt.shift? minutes = some u) :
    dt.After minutes u := by
  have hlt := dt.time.minutes_lt
  unfold shift? at h
  dsimp only at h
  split at h
  · obtain ⟨d, hd, rfl⟩ := Option.map_eq_some_iff.1 h
    refine ⟨?_, rfl, rfl⟩
    have hnumber := Date.number_previous? hd
    simp only [minuteNumber, Time.minutes_withMinutes]
    omega
  · split at h
    · cases h
      refine ⟨?_, rfl, rfl⟩
      simp only [minuteNumber, Time.minutes_withMinutes]
      omega
    · obtain ⟨d, hd, rfl⟩ := Option.map_eq_some_iff.1 h
      refine ⟨?_, rfl, rfl⟩
      have hnumber := Date.number_next? hd
      simp only [minuteNumber, Time.minutes_withMinutes]
      omega

end DateTime

/-- A clock at UTC is behind by the offset. -/
theorem OffsetDateTime.after_utc (z : OffsetDateTime) : z.wall.After (-z.offset) z.utc := by
  have hlt := z.offset_lt
  exact DateTime.after_of_shift? (by omega) z.utc_eq

end FilterQuery
