/-
# FilterQuery.Proofs.Calendar.Formats -- no text is in two of the formats of dates

A day, a date-time and a timestamp are read in three formats. They begin in the same way, since the
parts of fixed width that a timestamp is made of are read as the same by the loosely spaced items
(`Rfc3339.date_refines`, `Rfc3339.time_refines`). What stands behind these parts tells them apart:
nothing but blanks behind a day, a `T` with a time and then blanks in a date-time, and in a
timestamp an offset, whose first character is no blank. So no text is in two of the formats, and it
does not matter in which order they are tried.

Whether a day stands alone can be seen from the text: it has no time part (`HasTimePart`), and a
date-time has one. Of the two formats of a time the second adds nothing: an hour and a minute alone
are read as a time whose second is missing (`Item.time?_of_clock?`).
-/

import FilterQuery.Calendar.Rfc3339
import FilterQuery.Proofs.Text.Reading

namespace FilterQuery

open Text Reader

variable {cs rest : List Char} {s : String} {d : Date} {t : Time} {dt : DateTime}
  {z : OffsetDateTime}

/-! ## Items -/

namespace Item

theorem run_mark_eq_some_iff {c : Char} {u : Unit} :
    (mark c).run cs = some (u, rest) ↔ skipBlanks cs = c :: rest := by
  unfold mark
  rw [run_bind_eq_some_iff]
  simp only [run_blanks_eq_some_iff, run_literal_eq_some_iff]
  constructor
  · rintro ⟨_, mid, hskip, rfl⟩
    exact hskip
  · intro h
    exact ⟨(), _, h, rfl⟩

theorem literal_refines_mark {c : Char} (hc : isBlank c = false) :
    (literal c).Refines (mark c) := by
  intro cs u rest h
  rw [run_literal_eq_some_iff.1 h]
  exact run_mark_eq_some_iff.2 (skipBlanks_cons hc rest)

/-- What reads digits at once may skip blanks first. -/
theorem refines_blanks_bind {α : Type} {r r' : Reader α} (hr : r.Refines r')
    (hdigit : ∀ cs a rest, r.run cs = some (a, rest) → ∃ c ds, cs = c :: ds ∧ isDigit c = true) :
    r.Refines (do blanks; r') := by
  intro cs a rest h
  obtain ⟨c, ds, rfl, hc⟩ := hdigit cs a rest h
  have hblanks : blanks.run (c :: ds) = some ((), c :: ds) :=
    run_blanks_eq_some_iff.2 (skipBlanks_cons (isBlank_of_isDigit hc) ds)
  exact run_bind_eq_some_iff.2 ⟨(), c :: ds, hblanks, hr _ _ _ h⟩

theorem fixedNumber_refines_short : (fixedNumber 2).Refines short :=
  refines_blanks_bind (fixedNumber_refines_number (by decide)) fun _ _ _ =>
    exists_digit_of_run_fixedNumber (by decide)

/-- Four digits are a year without a sign. -/
theorem fixedNumber_refines_year : ((fun n : Nat => (n : Int)) <$> fixedNumber 4).Refines year := by
  rw [map_eq_pure_bind]
  have hdigit : ∀ cs y rest, (fixedNumber 4 >>= fun n => pure (n : Int)).run cs = some (y, rest) →
      ∃ c ds, cs = c :: ds ∧ isDigit c = true := by
    intro cs y rest h
    obtain ⟨n, mid, hn, -⟩ := run_bind_eq_some_iff.1 h
    exact exists_digit_of_run_fixedNumber (by decide) hn
  refine refines_blanks_bind (fun cs y rest h => ?_) hdigit
  obtain ⟨c, ds, rfl, hc⟩ := hdigit cs y rest h
  refine run_bind_eq_some_iff.2 ⟨some c, c :: ds, rfl, ?_⟩
  -- a digit is no sign
  split
  · rename_i heq
    cases heq
    exact absurd hc (by decide)
  · rename_i heq
    cases heq
    exact absurd hc (by decide)
  · exact (fixedNumber_refines_number (by decide)).bind (fun n => Refines.refl _) _ _ _ h

/-- The month and the day of a date behind its year. -/
def monthDay (y : Int) : Reader Date := do
  mark '-'
  let m ← short
  mark '-'
  let d ← short
  match Date.make? y m d with
  | some date => return date
  | none => refuse

theorem date_eq : date = (do monthDay (← year)) := rfl

theorem time_eq : time = (do
    let h ← short
    mark ':'
    let m ← short
    mark ':'
    let s ← short
    let f ← fraction
    timeOf (h, m) (s, f)) := by
  simp only [time, hourMinute, second, bind_assoc, pure_bind]

/-- Where the second may be missing, it may also be there. -/
theorem time_refines_looseTime : time.Refines looseTime := by
  refine (Refines.refl hourMinute).bind fun hm => ?_
  intro cs t rest h
  obtain ⟨sf, mid, hsecond, ht⟩ := run_bind_eq_some_iff.1 h
  obtain ⟨u, mid', hmark, hrest⟩ := run_bind_eq_some_iff.1 hsecond
  have hskip := run_mark_eq_some_iff.1 hmark
  -- blanks that are skipped already are not there for the mark to skip
  have hmark' : (mark ':').run (':' :: mid') = some ((), mid') :=
    run_mark_eq_some_iff.2 (skipBlanks_cons (by decide) mid')
  have hsecond' : second.run (':' :: mid') = some (sf, mid) :=
    run_bind_eq_some_iff.2 ⟨(), mid', hmark', hrest⟩
  have hblanks : blanks.run cs = some ((), ':' :: mid') := run_blanks_eq_some_iff.2 hskip
  refine run_bind_eq_some_iff.2 ⟨(), _, hblanks, run_bind_eq_some_iff.2 ⟨some ':', _, rfl, ?_⟩⟩
  exact run_bind_eq_some_iff.2 ⟨sf, mid, hsecond', ht⟩

theorem clock_refines_hourMinute : clock.Refines hourMinute :=
  (Refines.refl short).bind fun _ => (literal_refines_mark (by decide)).bind fun _ => Refines.refl _

/-- Putting a time together takes nothing of a text. -/
theorem rest_of_run_timeOf {hm sf : Nat × Nat} (h : (timeOf hm sf).run cs = some (t, rest)) :
    cs = rest := by
  unfold timeOf at h
  split at h
  · exact (run_pure_eq_some_iff.1 h).2
  · cases h

/-- An hour and a minute alone are a time without its second. -/
theorem time?_of_clock? (h : clock? s = some t) : time? s = some t := by
  obtain ⟨hm, mid, hclock, ht⟩ := run_bind_eq_some_iff.1 (readAll_eq_some_iff.1 h)
  obtain rfl := rest_of_run_timeOf ht
  have hloose : looseTime.run s.toList = some (t, []) :=
    run_bind_eq_some_iff.2 ⟨hm, [], clock_refines_hourMinute _ _ _ hclock, ht⟩
  exact readAll_eq_some_iff.2 (run_bind_eq_some_iff.2 ⟨t, [], hloose, rfl⟩)

end Item

namespace Rfc3339

/-- The month and the day of a date of fixed width behind its year. -/
def monthDay (y : Int) : Reader Date := do
  literal '-'
  let m ← fixedNumber 2
  literal '-'
  let d ← fixedNumber 2
  match Date.make? y m d with
  | some date => return date
  | none => refuse

theorem date_eq : date = (do monthDay (← (fun n : Nat => (n : Int)) <$> fixedNumber 4)) := by
  rw [bind_map_left]
  rfl

theorem monthDay_refines (y : Int) : (monthDay y).Refines (Item.monthDay y) := by
  have hhyphen : (literal '-').Refines (Item.mark '-') := Item.literal_refines_mark (by decide)
  exact hhyphen.bind fun _ => Item.fixedNumber_refines_short.bind fun m => hhyphen.bind fun _ =>
    Item.fixedNumber_refines_short.bind fun d => Refines.refl _

/-- A date of fixed width is a date in items. -/
theorem date_refines : date.Refines Item.date := by
  rw [date_eq, Item.date_eq]
  exact Item.fixedNumber_refines_year.bind monthDay_refines

/-- A time of fixed width is a time in items. -/
theorem time_refines : time.Refines Item.time := by
  rw [Item.time_eq]
  have hcolon : (literal ':').Refines (Item.mark ':') := Item.literal_refines_mark (by decide)
  exact Item.fixedNumber_refines_short.bind fun h => hcolon.bind fun _ =>
    Item.fixedNumber_refines_short.bind fun m => hcolon.bind fun _ =>
      Item.fixedNumber_refines_short.bind fun s => Refines.refl _

/-! ## What stands behind a date -/

theorem dateTime?_eq_some_iff :
    dateTime? s = some z ↔
      ∃ c mid behind, date.run s.toList = some (z.wall.date, c :: mid) ∧ Item.isBetween c = true ∧
        time.run mid = some (z.wall.time, behind) ∧
        (Item.offset (literal ':')).run behind = some (z.offset, []) := by
  simp only [dateTime?, Option.bind_eq_bind, Option.bind_eq_some_iff, readAll_eq_some_iff,
    run_bind_eq_some_iff, run_pure_eq_some_iff, run_char_eq_some_iff]
  constructor
  · rintro ⟨⟨dt, o⟩, ⟨d, _, hd, c, mid, ⟨rfl, hc⟩, t, behind, ht, o', _, ho, heq, rfl⟩, hz⟩
    cases heq
    obtain ⟨hwall, hoffset⟩ := OffsetDateTime.make?_eq_some_iff.1 hz
    rw [hwall, hoffset]
    exact ⟨c, mid, behind, hd, hc, ht, ho⟩
  · rintro ⟨c, mid, behind, hd, hc, ht, ho⟩
    exact ⟨(z.wall, z.offset), ⟨z.wall.date, _, hd, c, mid, ⟨rfl, hc⟩, z.wall.time, behind, ht,
      z.offset, [], ho, rfl, rfl⟩, OffsetDateTime.make?_eq_some_iff.2 ⟨rfl, rfl⟩⟩

end Rfc3339

namespace Item

theorem date?_eq_some_iff :
    date? s = some d ↔ ∃ behind, date.run s.toList = some (d, behind) ∧ skipBlanks behind = [] := by
  simp only [date?, readAll_eq_some_iff, run_bind_eq_some_iff, run_pure_eq_some_iff,
    run_blanks_eq_some_iff]
  constructor
  · rintro ⟨d', behind, hd, -, _, hskip, rfl, rfl⟩
    exact ⟨behind, hd, hskip⟩
  · rintro ⟨behind, hd, hskip⟩
    exact ⟨d, behind, hd, (), [], hskip, rfl, rfl⟩

theorem dateTime?_eq_some_iff :
    dateTime? s = some dt ↔
      ∃ mark mid behind, date.run s.toList = some (dt.date, mark) ∧ skipBlanks mark = 'T' :: mid ∧
        time.run mid = some (dt.time, behind) ∧ skipBlanks behind = [] := by
  simp only [dateTime?, readAll_eq_some_iff, run_bind_eq_some_iff, run_pure_eq_some_iff,
    run_blanks_eq_some_iff, run_mark_eq_some_iff]
  constructor
  · rintro ⟨d, mark, hd, -, mid, hmark, t, behind, ht, -, _, hskip, rfl, rfl⟩
    exact ⟨mark, mid, behind, hd, hmark, ht, hskip⟩
  · rintro ⟨mark, mid, behind, hd, hmark, ht, hskip⟩
    exact ⟨dt.date, mark, hd, (), mid, hmark, dt.time, behind, ht, (), [], hskip, rfl, rfl⟩

/-- Behind the day of a date-time not all is blank. -/
theorem date?_eq_none_of_dateTime? (h : dateTime? s = some dt) : date? s = none := by
  obtain ⟨mark, mid, behind, hd, hmark, -, -⟩ := dateTime?_eq_some_iff.1 h
  rw [Option.eq_none_iff_forall_ne_some]
  intro d hdate
  obtain ⟨mark', hd', hskip⟩ := date?_eq_some_iff.1 hdate
  obtain rfl := rest_unique hd hd'
  cases hmark.symm.trans hskip

end Item

namespace Rfc3339

/-- An offset begins with a letter or a sign, and so with no blank. -/
theorem exists_cons_of_run_offset {between : Reader Unit} {o : Int}
    (h : (Item.offset between).run cs = some (o, rest)) :
    ∃ c r, cs = c :: r ∧ isBlank c = false := by
  obtain ⟨front, _, hpeek, h⟩ := run_bind_eq_some_iff.1 h
  cases hpeek
  cases cs with
  | nil =>
    obtain ⟨sign, mid, hsign, -⟩ := run_bind_eq_some_iff.1 h
    cases hsign
  | cons c r =>
    refine ⟨c, r, rfl, ?_⟩
    split at h
    · rename_i heq
      cases heq
      decide
    · rename_i heq
      cases heq
      decide
    · obtain ⟨sign, mid, hsign, -⟩ := run_bind_eq_some_iff.1 h
      obtain ⟨heq, hc⟩ := run_char_eq_some_iff.1 hsign
      cases heq
      simp only [Item.isSign, Bool.or_eq_true, beq_iff_eq] at hc
      rcases hc with (rfl | rfl) | rfl <;> decide

/-- A time does not begin with a blank. -/
theorem exists_digit_of_run_time (h : time.run cs = some (t, rest)) :
    ∃ c ds, cs = c :: ds ∧ isDigit c = true := by
  obtain ⟨hour, mid, hhour, -⟩ := run_bind_eq_some_iff.1 h
  exact exists_digit_of_run_fixedNumber (by decide) hhour

/-- A timestamp is no day. -/
theorem date?_eq_none (h : dateTime? s = some z) : Item.date? s = none := by
  obtain ⟨c, mid, behind, hd, -, ht, -⟩ := dateTime?_eq_some_iff.1 h
  obtain ⟨digit, ds, rfl, hdigit⟩ := exists_digit_of_run_time ht
  rw [Option.eq_none_iff_forall_ne_some]
  intro d hdate
  obtain ⟨behind', hd', hskip⟩ := Item.date?_eq_some_iff.1 hdate
  obtain rfl := rest_unique (date_refines _ _ _ hd) hd'
  exact skipBlanks_ne_nil (.tail c (.head ds)) (isBlank_of_isDigit hdigit) hskip

/-- A timestamp is no date-time. -/
theorem dateTime?_eq_none (h : dateTime? s = some z) : Item.dateTime? s = none := by
  obtain ⟨c, mid, behind, hd, hc, ht, ho⟩ := dateTime?_eq_some_iff.1 h
  rw [Option.eq_none_iff_forall_ne_some]
  intro dt hdateTime
  obtain ⟨mark, mid', behind', hd', hmark, ht', hskip⟩ := Item.dateTime?_eq_some_iff.1 hdateTime
  obtain rfl := rest_unique (date_refines _ _ _ hd) hd'
  obtain ⟨digit, ds, rfl, hdigit⟩ := exists_digit_of_run_time ht
  -- the character between date and time is the `T`, and behind it the same time is read
  have hmid : digit :: ds = mid' := by
    simp only [Item.isBetween, Bool.or_eq_true, beq_iff_eq] at hc
    rcases hc with (rfl | rfl) | rfl
    · rw [skipBlanks_cons (by decide)] at hmark
      exact (List.cons.inj hmark).2
    · rw [skipBlanks_cons (by decide)] at hmark
      cases hmark
    · have hskip : skipBlanks (' ' :: digit :: ds) = digit :: ds :=
        skipBlanks_cons (isBlank_of_isDigit hdigit) ds
      cases hskip.symm.trans hmark
      cases hdigit
  subst hmid
  obtain rfl := rest_unique (time_refines _ _ _ ht) ht'
  obtain ⟨sign, r, rfl, hsign⟩ := exists_cons_of_run_offset ho
  exact skipBlanks_ne_nil (.head r) hsign hskip

end Rfc3339

/-! ## Time parts -/

namespace Item

/-- The characters of a day: digits, blanks and signs. -/
def IsDayChar (c : Char) : Prop := isDigit c = true ∨ isBlank c = true ∨ c = '+' ∨ c = '-'

theorem takesOnly_blanks_bind {α : Type} {r : Reader α} (hr : TakesOnly IsDayChar r) :
    TakesOnly IsDayChar (do blanks; r) :=
  (takesOnly_blanks fun _ hc => .inr (.inl hc)).bind fun _ => hr

theorem takesOnly_year : TakesOnly IsDayChar year := by
  have hany : TakesOnly IsDayChar anyNumber := takesOnly_anyNumber fun _ hc => .inl hc
  refine takesOnly_blanks_bind (takesOnly_peek.bind fun c => ?_)
  split
  · exact (takesOnly_literal (.inr (.inr (.inl rfl)))).bind fun _ => hany.bind fun n => .pure _
  · exact (takesOnly_literal (.inr (.inr (.inr rfl)))).bind fun _ => hany.bind fun n => .pure _
  · exact (takesOnly_number (fun _ hc => .inl hc) 4).bind fun n => .pure _

theorem takesOnly_short : TakesOnly IsDayChar short :=
  takesOnly_blanks_bind (takesOnly_number (fun _ hc => .inl hc) 2)

theorem takesOnly_monthDay (y : Int) : TakesOnly IsDayChar (monthDay y) := by
  have hhyphen : TakesOnly IsDayChar (mark '-') :=
    takesOnly_blanks_bind (takesOnly_literal (.inr (.inr (.inr rfl))))
  refine hhyphen.bind fun _ => takesOnly_short.bind fun m => hhyphen.bind fun _ =>
    takesOnly_short.bind fun d => ?_
  split
  · exact .pure _
  · exact .refuse

theorem takesOnly_date : TakesOnly IsDayChar date := takesOnly_year.bind takesOnly_monthDay

/-- Between the hour and the minute of a time there is a colon. -/
theorem colon_mem_of_run_time (h : time.run cs = some (t, rest)) : ':' ∈ cs := by
  rw [time_eq] at h
  obtain ⟨hour, mid, hhour, h⟩ := run_bind_eq_some_iff.1 h
  obtain ⟨_, mid', hcolon, -⟩ := run_bind_eq_some_iff.1 h
  have hmem : ':' ∈ skipBlanks mid := by
    rw [run_mark_eq_some_iff.1 hcolon]
    exact List.mem_cons_self
  obtain ⟨taken, rfl, -⟩ := takesOnly_short _ _ _ hhour
  exact List.mem_append_right _ ((skipBlanks_suffix mid).mem hmem)

end Item

/-- Behind a `T` in the text there is a colon, as there is in a time. -/
def HasTimePart (s : String) : Prop := ∃ day time, s.toList = day ++ 'T' :: time ∧ ':' ∈ time

/-- A day has no time part. -/
theorem not_hasTimePart_of_date? (h : Item.date? s = some d) : ¬HasTimePart s := by
  rintro ⟨day, time, htext, -⟩
  obtain ⟨behind, hd, hskip⟩ := Item.date?_eq_some_iff.1 h
  obtain ⟨taken, hsplit, htaken⟩ := Item.takesOnly_date _ _ _ hd
  have hmem : 'T' ∈ taken ++ behind := by
    rw [← hsplit, htext]
    exact List.mem_append_right _ List.mem_cons_self
  rcases List.mem_append.1 hmem with hfront | hback
  · exact absurd (htaken 'T' hfront) (by unfold Item.IsDayChar; decide)
  · exact skipBlanks_ne_nil hback (by decide) hskip

/-- A date-time has a time part. -/
theorem hasTimePart_of_dateTime? (h : Item.dateTime? s = some dt) : HasTimePart s := by
  obtain ⟨mark, mid, behind, hd, hmark, ht, -⟩ := Item.dateTime?_eq_some_iff.1 h
  obtain ⟨taken, hsplit, -⟩ := Item.takesOnly_date _ _ _ hd
  refine ⟨taken ++ leadingBlanks mark, mid, ?_, Item.colon_mem_of_run_time ht⟩
  rw [List.append_assoc, ← hmark, leadingBlanks_append_skipBlanks, hsplit]

end FilterQuery
