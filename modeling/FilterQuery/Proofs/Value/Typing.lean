/-
# FilterQuery.Proofs.Value.Typing -- what is read at a type has that type

A value knows its type, but a variant of an enumeration knows only the name of its type. So to have
the type of an enumeration is said apart: to carry its name and to be one of its variants
(`Value.HasType`). Each text that a type can read gives a value of that type
(`Value.hasType_of_read?`), and converting does the same where no converter of an application comes
first.
-/

import FilterQuery.Value.Convert

namespace FilterQuery

theorem Integer.type_of_ofInt? {t : IntType} {k : Int} {n : Integer} (h : ofInt? t k = some n) :
    n.type = t := by
  rw [ofInt?] at h
  split at h
  · cases h
    rfl
  · cases h

theorem Integer.type_of_read? {t : IntType} {cs : List Char} {n : Integer}
    (h : read? t cs = some n) : n.type = t := by
  -- whatever the sign, the number is put into the type at the end
  rw [read?.eq_def] at h
  split at h
  · obtain ⟨k, -, h⟩ := Option.bind_eq_some_iff.1 h
    exact type_of_ofInt? h
  · split at h
    · obtain ⟨k, -, h⟩ := Option.bind_eq_some_iff.1 h
      exact type_of_ofInt? h
    · cases h
  · obtain ⟨k, -, h⟩ := Option.bind_eq_some_iff.1 h
    exact type_of_ofInt? h

/-- The variant that a text names is one of the enumeration. -/
theorem EnumType.mem_of_variant? {e : EnumType} {s variant : String}
    (h : e.variant? s = some variant) : variant ∈ e.variants := by
  rw [variant?] at h
  split at h
  · rename_i v hv
    cases h
    exact List.mem_of_find?_eq_some hv
  · exact List.mem_of_find?_eq_some h

namespace Value

/-- The value is of the type. -/
def HasType (v : Value) : ValueType → Prop
  | .enum e => ∃ variant ∈ e.variants, v = .enum e.name variant
  | t => v.type? = some t

/-- A text that a type reads gives a value of the type. -/
theorem hasType_of_read? {s : String} {t : ValueType} {v : Value} (h : read? s t = some v) :
    v.HasType t := by
  cases t with
  | string =>
    cases h
    rfl
  | entity name => cases h
  | custom name => cases h
  | int t =>
    obtain ⟨n, hn, rfl⟩ := Option.map_eq_some_iff.1 h
    show some (ValueType.int n.type) = some (.int t)
    rw [Integer.type_of_read? hn]
  | enum e =>
    obtain ⟨variant, hvariant, rfl⟩ := Option.map_eq_some_iff.1 h
    exact ⟨variant, EnumType.mem_of_variant? hvariant, rfl⟩
  | _ =>
    obtain ⟨x, -, rfl⟩ := Option.map_eq_some_iff.1 h
    rfl

end Value

/-- Without a converter for a type, converting gives values of the type. -/
theorem Converters.hasType_of_convert {c : Converters} {s : String} {t : ValueType} {v : Value}
    (hnone : c.has t = false) (h : c.convert s t = some v) : v.HasType t := by
  have hget : c.table.get? t = none := by simpa [has, Table.contains] using hnone
  rw [convert, hget] at h
  exact Value.hasType_of_read? h

end FilterQuery
