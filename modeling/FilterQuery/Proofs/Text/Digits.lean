/-
# FilterQuery.Proofs.Text.Digits -- decimal digits and the numbers that they write

A row of ASCII digits writes a number by their places (`Text.Decimal`): the last digit counts once,
the one before it ten times, and so on. That is what reading digits one by one comes to
(`natOfDigits_eq_ofDigits`). The digits of a number write that number, and only zero has a zero in
front.
-/

import FilterQuery.Text.Reader
import Mathlib.Data.List.Basic
import Mathlib.Data.List.Induction
import Mathlib.Data.Nat.Digits.Defs

namespace FilterQuery.Text

/-! ## The digits of a number -/

theorem isDigit_of_mem_digitsOfNat {n : Nat} {c : Char} (h : c ∈ digitsOfNat n) :
    isDigit c = true :=
  Nat.isDigit_of_mem_toDigits (by decide) (by decide) h

theorem all_isDigit_digitsOfNat (n : Nat) : (digitsOfNat n).all isDigit = true := by
  rw [List.all_eq_true]
  intro c hc
  exact isDigit_of_mem_digitsOfNat hc

theorem digitsOfNat_ne_nil (n : Nat) : digitsOfNat n ≠ [] := Nat.toDigits_ne_nil

/-- Only zero begins with a zero. -/
theorem head?_digitsOfNat {n : Nat} (h : 0 < n) : (digitsOfNat n).head? ≠ some '0' := by
  induction n using Nat.strongRecOn with
  | ind n ih =>
    rw [digitsOfNat, Nat.toDigits_eq_if (by decide)]
    split
    · have hdigit : ∀ d < 10, 0 < d → Nat.digitChar d ≠ '0' := by decide
      rename_i hlt
      intro hhead
      exact hdigit n hlt h (Option.some.inj hhead)
    · have hrest := ih (n / 10) (by omega) (by omega)
      rw [List.head?_append_of_ne_nil _ Nat.toDigits_ne_nil]
      exact hrest

/-- A number without a sign does not begin with one. -/
theorem digitsOfNat_append_ne (n : Nat) (rest r : List Char) :
    digitsOfNat n ++ rest ≠ '-' :: r := by
  intro heq
  obtain ⟨d, ds, hds⟩ := List.exists_cons_of_ne_nil (digitsOfNat_ne_nil n)
  have hdigit : isDigit d = true := by
    apply isDigit_of_mem_digitsOfNat (n := n)
    rw [hds]
    exact List.mem_cons_self
  rw [hds] at heq
  cases heq
  exact absurd hdigit (by decide)

theorem natOfDigits_digitsOfNat (n : Nat) : natOfDigits (digitsOfNat n) = n :=
  Nat.ofDigitChars_toDigits (by decide) (by decide)

/-! ## The number that digits write -/

/-- How often a digit counts in its place. -/
def digitValue (c : Char) : Nat := c.toNat - '0'.toNat

/-- ASCII digits, of which there is one at the least, write a number: the digits from the last one
on count ones, tens, hundreds and so on. -/
structure Decimal (ds : List Char) (n : Nat) : Prop where
  ne_nil : ds ≠ []
  digit : ∀ d ∈ ds, '0' ≤ d ∧ d ≤ '9'
  value : n = Nat.ofDigits 10 (ds.reverse.map digitValue)

theorem isDigit_iff (c : Char) : isDigit c = true ↔ '0' ≤ c ∧ c ≤ '9' := by
  simp only [isDigit, Char.isDigit, Bool.and_eq_true, decide_eq_true_eq]
  rfl

theorem natOfDigits_eq_ofDigits (ds : List Char) :
    natOfDigits ds = Nat.ofDigits 10 (ds.reverse.map digitValue) := by
  -- both sides take the last digit as it is and ten times what is before it
  induction ds using List.reverseRecOn with
  | nil => rfl
  | append_singleton ds d ih =>
    rw [List.reverse_append, List.reverse_singleton, List.singleton_append, List.map_cons,
      Nat.ofDigits_cons, ← ih, natOfDigits, Nat.ofDigitChars_append, Nat.ofDigitChars_cons,
      Nat.ofDigitChars_nil, Nat.add_comm]
    rfl

theorem decimal_iff {ds : List Char} {n : Nat} :
    Decimal ds n ↔ ds ≠ [] ∧ ds.all isDigit = true ∧ natOfDigits ds = n := by
  rw [natOfDigits_eq_ofDigits, List.all_eq_true]
  simp only [isDigit_iff]
  constructor
  · intro h
    exact ⟨h.ne_nil, h.digit, h.value.symm⟩
  · rintro ⟨hne, hdigit, hvalue⟩
    exact ⟨hne, hdigit, hvalue.symm⟩

/-- The digits of a number write it. -/
theorem decimal_digitsOfNat (n : Nat) : Decimal (digitsOfNat n) n :=
  decimal_iff.2 ⟨digitsOfNat_ne_nil n, all_isDigit_digitsOfNat n, natOfDigits_digitsOfNat n⟩

/-- A zero in front is the only digit. -/
theorem eq_zero_of_head?_digitsOfNat {n : Nat} (h : (digitsOfNat n).head? = some '0') :
    digitsOfNat n = ['0'] := by
  rcases Nat.eq_zero_or_pos n with rfl | hn
  · rfl
  · exact absurd h (head?_digitsOfNat hn)

/-- Digits do not begin with anything else. -/
theorem Decimal.isDigit_head {d : Char} {ds : List Char} {n : Nat} (h : Decimal (d :: ds) n) :
    isDigit d = true :=
  (isDigit_iff d).2 (h.digit d List.mem_cons_self)

end FilterQuery.Text
