/-
# FilterQuery.Proofs.Value.Rereading -- values that are read back from their text

Truth values, integers, identifiers, days and times are written as texts of their own types
(`ValueType.isSelfWritten`); the text of a character or of a string stands in quotes, and the text
of a variant has the name of its type in front. A value of such a type that was read is read back
from its text, in whatever form it was read first: a truth value from a digit, a day from a
timestamp, a date-time from a day or from a timestamp that UTC moves to another year.

Of the values of these types only some timestamps are not read back, those whose year does not have
four digits, and none of them can be read (`Rfc3339.year_of_dateTime?`).
-/

import FilterQuery.Proofs.Calendar.RoundTrip
import FilterQuery.Proofs.Value.Integers
import FilterQuery.Proofs.Value.RoundTrip

namespace FilterQuery

/-- Whether the values of the type are written as texts of the type. -/
def ValueType.isSelfWritten : ValueType → Bool
  | bool | int _ | uuid | date | time | dateTime | offsetDateTime => true
  | float _ | char | string | enum _ | entity _ | custom _ => false

namespace Value

/-! ## Texts that are written -/

theorem read?_render_bool (b : Bool) : read? (render (.bool b)) .bool = some (.bool b) := by
  cases b <;> rfl

theorem read?_render_int (n : Integer) :
    read? (render (.int n)) (.int n.type) = some (.int n) := by
  show (Integer.read? n.type (String.ofList n.render).toList).map Value.int = _
  rw [String.toList_ofList, Integer.read?_render]
  rfl

theorem read?_render_uuid (u : Uuid) : read? (render (.uuid u)) .uuid = some (.uuid u) := by
  show (Uuid.read? (String.ofList u.render).toList).map Value.uuid = _
  rw [String.toList_ofList, Uuid.read?_render]
  rfl

/-- A day is read from its own text before other formats are tried. -/
theorem read?_render_date (d : Date) : read? (render (.date d)) .date = some (.date d) := by
  show (readDate? (String.ofList d.render)).map Value.date = _
  rw [readDate?, Item.date?_render]
  rfl

/-- An hour and a minute are read as a time already, so no text needs the second format of a
time. -/
theorem readTime?_eq (s : String) : readTime? s = Item.time? s := by
  cases h : Item.time? s with
  | some t => rw [readTime?, h]
  | none =>
    cases hclock : Item.clock? s with
    | some t => cases h.symm.trans (Item.time?_of_clock? hclock)
    | none => rw [readTime?, h, hclock]

theorem read?_render_time (t : Time) : read? (render (.time t)) .time = some (.time t) := by
  show (readTime? (String.ofList t.render)).map Value.time = _
  rw [readTime?_eq, Item.time?_render]
  rfl

theorem read?_render_dateTime (dt : DateTime) :
    read? (render (.dateTime dt)) .dateTime = some (.dateTime dt) := by
  show (readDateTime? (String.ofList dt.render)).map Value.dateTime = _
  rw [readDateTime?, Item.dateTime?_render]
  rfl

/-- A timestamp is read back if it was read from some text. -/
theorem read?_render_offsetDateTime {raw : String} {z : OffsetDateTime}
    (h : Rfc3339.dateTime? raw = some z) :
    read? (render (.offsetDateTime z)) .offsetDateTime = some (.offsetDateTime z) := by
  obtain ⟨hlow, hhigh⟩ := Rfc3339.year_of_dateTime? h
  show (Rfc3339.dateTime? (String.ofList z.render)).map Value.offsetDateTime = _
  rw [Rfc3339.dateTime?_render hlow hhigh]
  rfl

/-! ## Texts that are read -/

/-- What a type reads is read back from what it is written as, if the type is one of those whose
values are written as texts of the type. -/
theorem read?_render_of_read? (raw : String) {t : ValueType} {v : Value}
    (ht : t.isSelfWritten = true) (h : read? raw t = some v) : read? v.render t = some v := by
  cases t with
  | bool =>
    obtain ⟨b, -, rfl⟩ := Option.map_eq_some_iff.1 h
    exact read?_render_bool b
  | int t =>
    obtain ⟨n, rfl, rfl, -⟩ := read?_int_eq_some_iff.1 h
    exact read?_render_int n
  | uuid =>
    obtain ⟨u, -, rfl⟩ := Option.map_eq_some_iff.1 h
    exact read?_render_uuid u
  | date =>
    obtain ⟨d, -, rfl⟩ := Option.map_eq_some_iff.1 h
    exact read?_render_date d
  | time =>
    obtain ⟨t, -, rfl⟩ := Option.map_eq_some_iff.1 h
    exact read?_render_time t
  | dateTime =>
    obtain ⟨dt, -, rfl⟩ := Option.map_eq_some_iff.1 h
    exact read?_render_dateTime dt
  | offsetDateTime =>
    obtain ⟨z, hz, rfl⟩ := Option.map_eq_some_iff.1 h
    exact read?_render_offsetDateTime hz
  | float | char | string | enum | entity | custom => cases ht

/-- A leap second at the end of the last year of four digits: UTC moves it into the next year, which
has five digits and so a sign. -/
theorem read?_render_of_read?_year_end :
    ∃ v, read? "9999-12-31 23:59:60.1234567899-23:59" .dateTime = some v ∧
      v.render = "+10000-01-01T23:58:60.123456789" ∧ read? v.render .dateTime = some v := by
  have hread : read? "9999-12-31 23:59:60.1234567899-23:59" .dateTime = some (.dateTime
      ⟨⟨10000, 1, 1, by decide⟩, ⟨23, 58, 60, 123456789, by decide⟩⟩) := rfl
  exact ⟨_, hread, rfl, read?_render_of_read? _ rfl hread⟩

end Value

end FilterQuery
