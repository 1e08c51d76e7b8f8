/-
# FilterQuery.Proofs.Value.Integers -- integers are read and written exactly

A text writes an integer by digits that a sign may stand before (`Integer.Numeral`); a minus counts
only where the type has negative numbers, so to the other types even minus zero writes nothing. What
a type reads are the numerals of its numbers, and it reads each as the number that it writes
(`Integer.read?_eq_some_iff`). Nothing wraps, since a number out of the range of a type is none of
the type.

A number is written without a plus and without zeros in front (`Integer.Plain`), and that is a
numeral of every type that has the number.
-/

import FilterQuery.Proofs.Text.Digits
import FilterQuery.Value.Convert

namespace FilterQuery

open Text

namespace Integer

variable {t u : IntType} {signed : Bool} {cs ds : List Char} {k : Int} {m n : Integer}

/-! ## Numerals -/

/-- A text writes an integer: digits, or a sign and digits. A minus must be admitted, and a plus
says nothing. -/
inductive Numeral (signed : Bool) : List Char → Int → Prop
  | digits {ds : List Char} {n : Nat} (h : Decimal ds n) : Numeral signed ds n
  | plus {ds : List Char} {n : Nat} (h : Decimal ds n) : Numeral signed ('+' :: ds) n
  | minus {ds : List Char} {n : Nat} (hsigned : signed = true) (h : Decimal ds n) :
    Numeral signed ('-' :: ds) (-n)

/-- Behind a plus there are digits. -/
theorem numeral_plus_iff : Numeral signed ('+' :: ds) k ↔ ∃ n, Decimal ds n ∧ k = n := by
  constructor
  · intro h
    cases h with
    | digits h => exact absurd h.isDigit_head (by decide)
    | plus h => exact ⟨_, h, rfl⟩
  · rintro ⟨n, h, rfl⟩
    exact .plus h

/-- Behind a minus there are digits too, where a minus may stand at all. -/
theorem numeral_minus_iff :
    Numeral signed ('-' :: ds) k ↔ signed = true ∧ ∃ n, Decimal ds n ∧ k = -n := by
  constructor
  · intro h
    cases h with
    | digits h => exact absurd h.isDigit_head (by decide)
    | minus hsigned h => exact ⟨hsigned, _, h, rfl⟩
  · rintro ⟨hsigned, n, h, rfl⟩
    exact .minus hsigned h

/-- Without a sign there are digits only. -/
theorem numeral_digits_iff (hplus : ∀ r, cs ≠ '+' :: r) (hminus : ∀ r, cs ≠ '-' :: r) :
    Numeral signed cs k ↔ ∃ n, Decimal cs n ∧ k = n := by
  constructor
  · intro h
    cases h with
    | digits h => exact ⟨_, h, rfl⟩
    | plus h => exact absurd rfl (hplus _)
    | minus _ h => exact absurd rfl (hminus _)
  · rintro ⟨n, h, rfl⟩
    exact .digits h

/-- Whether a minus is admitted matters only to a text that begins with one. -/
theorem Numeral.admitted {other : Bool} (h : Numeral signed cs k)
    (hminus : cs.head? = some '-' → other = true) : Numeral other cs k := by
  cases h with
  | digits h => exact .digits h
  | plus h => exact .plus h
  | minus _ h => exact .minus (hminus rfl) h

/-! ## Reading -/

theorem ofInt?_eq_some_iff : ofInt? t k = some m ↔ m.type = t ∧ m.val = k := by
  unfold ofInt?
  constructor
  · intro h
    split at h
    · cases h
      exact ⟨rfl, rfl⟩
    · cases h
  · rintro ⟨rfl, rfl⟩
    exact dif_pos ⟨m.least_le, m.le_greatest⟩

theorem magnitude?_eq_some_iff {n : Nat} : magnitude? cs = some n ↔ Decimal cs n := by
  unfold magnitude?
  rw [decimal_iff]
  simp [and_assoc]

/-- The digits of a text, put into a type with a sign of their own. -/
theorem magnitude?_bind_eq_some_iff (sign : Nat → Int) :
    ((magnitude? cs).bind fun n => ofInt? t (sign n)) = some m ↔
      m.type = t ∧ ∃ n, Decimal cs n ∧ m.val = sign n := by
  rw [Option.bind_eq_some_iff]
  simp only [magnitude?_eq_some_iff, ofInt?_eq_some_iff]
  constructor
  · rintro ⟨n, hdigits, htype, hval⟩
    exact ⟨htype, n, hdigits, hval⟩
  · rintro ⟨htype, n, hdigits, hval⟩
    exact ⟨n, hdigits, htype, hval⟩

/-- A type reads the numerals of its numbers, each as the number that it writes. -/
theorem read?_eq_some_iff : read? t cs = some m ↔ m.type = t ∧ Numeral t.signed cs m.val := by
  -- by what stands in front; the readers of the three cases differ in the sign only
  rw [read?.eq_def]
  split
  · rw [numeral_plus_iff]
    exact magnitude?_bind_eq_some_iff fun n => n
  · rw [numeral_minus_iff]
    split
    · rename_i hsigned
      rw [and_iff_right hsigned]
      exact magnitude?_bind_eq_some_iff fun n => -n
    · rename_i hsigned
      simp [hsigned]
  · rename_i hplus hminus
    rw [numeral_digits_iff hplus hminus]
    exact magnitude?_bind_eq_some_iff fun n => n

/-! ## Writing -/

/-- A text writes an integer plainly: digits, with a minus before them if the integer is negative
and nothing else, and no zero in front unless it is the only digit. -/
def Plain (cs : List Char) (k : Int) : Prop :=
  ∃ ds, Decimal ds k.natAbs ∧ (ds.head? = some '0' → ds = ['0']) ∧
    cs = if k < 0 then '-' :: ds else ds

theorem plain_render (n : Integer) : Plain n.render n.val :=
  ⟨digitsOfNat n.val.natAbs, decimal_digitsOfNat _, eq_zero_of_head?_digitsOfNat, rfl⟩

/-- Only a type with negative numbers has one. -/
theorem signed_of_neg (h : n.val < 0) : n.type.signed = true := by
  by_contra hsigned
  have hleast := n.least_le
  rw [IntType.least, if_neg hsigned] at hleast
  omega

/-- An integer in plain decimal is a numeral of its type. -/
theorem Plain.numeral (h : Plain cs n.val) : Numeral n.type.signed cs n.val := by
  obtain ⟨ds, hdigits, -, rfl⟩ := h
  by_cases hneg : n.val < 0
  · rw [if_pos hneg]
    have hval : n.val = -(n.val.natAbs : Int) := by omega
    rw [hval]
    exact .minus (signed_of_neg hneg) hdigits
  · rw [if_neg hneg]
    have hval : n.val = (n.val.natAbs : Int) := by omega
    rw [hval]
    exact .digits hdigits

/-- What is written is read back. -/
theorem read?_render (n : Integer) : read? n.type n.render = some n :=
  read?_eq_some_iff.2 ⟨rfl, (plain_render n).numeral⟩

end Integer

namespace Value

open Integer

theorem read?_int_eq_some_iff {raw : String} {t : IntType} {v : Value} :
    read? raw (.int t) = some v ↔
      ∃ n : Integer, v = .int n ∧ n.type = t ∧ Numeral t.signed raw.toList n.val := by
  show (Integer.read? t raw.toList).map Value.int = some v ↔ _
  rw [Option.map_eq_some_iff]
  simp only [read?_eq_some_iff]
  constructor
  · rintro ⟨n, ⟨htype, hnumeral⟩, rfl⟩
    exact ⟨n, rfl, htype, hnumeral⟩
  · rintro ⟨n, rfl, htype, hnumeral⟩
    exact ⟨n, ⟨htype, hnumeral⟩, rfl⟩

/-- The number as one of 64 bits with a sign is the same number. -/
theorem int64?_int_eq_some_iff {n m : Integer} :
    int64? (.int n) = some m ↔ m.type = .i64 ∧ m.val = n.val :=
  ofInt?_eq_some_iff

theorem isSome_int64?_int (n : Integer) :
    (int64? (.int n)).isSome = true ↔
      -9223372036854775808 ≤ n.val ∧ n.val ≤ 9223372036854775807 := by
  show (ofInt? .i64 n.val).isSome = true ↔ IntType.i64.least ≤ n.val ∧ n.val ≤ IntType.i64.greatest
  unfold ofInt?
  split
  · rename_i h
    exact iff_of_true rfl h
  · rename_i h
    exact iff_of_false nofun h

/-- Integers are converted exactly. A text is read at an integer type just if it is a numeral, with
a sign that the type admits, of a number in the range of the type, and then as that number. Another
type reads it as the same number if it has that number and admits the sign. An integer is written in
plain decimal and read back from what is written. As a number of 64 bits with a sign it is the same
number, and it is one just if it fits. -/
theorem integers_exact (raw : String) (t : IntType) :
    (∀ v, read? raw (.int t) = some v ↔
      ∃ k, Numeral t.signed raw.toList k ∧
        ∃ (hleast : t.least ≤ k) (hgreatest : k ≤ t.greatest),
          v = .int ⟨t, k, hleast, hgreatest⟩) ∧
      (∀ n, read? raw (.int t) = some (.int n) →
        ∀ (u : IntType) (hleast : u.least ≤ n.val) (hgreatest : n.val ≤ u.greatest),
          (raw.toList.head? = some '-' → u.signed = true) →
          read? raw (.int u) = some (.int ⟨u, n.val, hleast, hgreatest⟩)) ∧
      ∀ n : Integer,
        Plain (render (.int n)).toList n.val ∧
        read? (render (.int n)) (.int n.type) = some (.int n) ∧
        (∀ m, int64? (.int n) = some m ↔ m.type = .i64 ∧ m.val = n.val) ∧
        ((int64? (.int n)).isSome = true ↔
          -9223372036854775808 ≤ n.val ∧ n.val ≤ 9223372036854775807) := by
  refine ⟨?_, ?_, ?_⟩
  · intro v
    rw [read?_int_eq_some_iff]
    constructor
    · rintro ⟨n, rfl, rfl, hnumeral⟩
      exact ⟨n.val, hnumeral, n.least_le, n.le_greatest, rfl⟩
    · rintro ⟨k, hnumeral, hleast, hgreatest, rfl⟩
      exact ⟨_, rfl, rfl, hnumeral⟩
  · intro n hn u hleast hgreatest hminus
    obtain ⟨n', heq, -, hnumeral⟩ := read?_int_eq_some_iff.1 hn
    obtain rfl := Value.int.inj heq
    exact read?_int_eq_some_iff.2 ⟨_, rfl, rfl, hnumeral.admitted hminus⟩
  · intro n
    have hrender : (render (.int n)).toList = n.render := String.toList_ofList
    have hplain := plain_render n
    rw [← hrender] at hplain
    exact ⟨hplain, read?_int_eq_some_iff.2 ⟨n, rfl, rfl, hplain.numeral⟩,
      fun m => int64?_int_eq_some_iff, isSome_int64?_int n⟩

/-- The least number of a byte with a sign is read with a zero in front, and as the same number at
another type that admits the minus. The greatest number without a sign does not fit 64 bits with
one. -/
theorem integers_exact_least :
    read? "-0128" (.int .i8) = some (.int ⟨.i8, -128, by decide, by decide⟩) ∧
      read? "-0128" (.int .i64) = some (.int ⟨.i64, -128, by decide, by decide⟩) ∧
      (int64? (.int ⟨.u64, 18446744073709551615, by decide, by decide⟩)).isSome = false := by
  have hread : read? "-0128" (.int .i8) = some (.int ⟨.i8, -128, by decide, by decide⟩) := rfl
  obtain ⟨-, hother, hwritten⟩ := integers_exact "-0128" .i8
  have hsigned : ("-0128".toList.head? = some '-' → IntType.i64.signed = true) := fun _ => rfl
  refine ⟨hread, hother _ hread .i64 (by decide) (by decide) hsigned, ?_⟩
  rw [Bool.eq_false_iff]
  intro hfits
  have hbound := (hwritten ⟨.u64, 18446744073709551615, by decide, by decide⟩).2.2.2.1 hfits
  exact absurd hbound.2 (by decide)

end Value

end FilterQuery
