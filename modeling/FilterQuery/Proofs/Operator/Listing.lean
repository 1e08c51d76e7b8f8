/-
# FilterQuery.Proofs.Operator.Listing -- one operator for each primary symbol

A registry lists its operators by primary symbol: of the operators in the table that share one,
only the first is kept, and what is kept is sorted. So the primary symbols of the list ascend
strictly, and they are those of the table.
-/

import FilterQuery.Operator.Registry
import Mathlib.Data.List.Sort
import Mathlib.Data.String.Basic

namespace FilterQuery

theorem Operator.not_beq_iff {a b : Operator} : (!(a == b)) = true ↔ a.primary ≠ b.primary := by
  rw [Bool.not_eq_true', ← Bool.not_eq_true, Operator.beq_iff]

namespace Registry

/-! ## The first operator for each primary symbol -/

theorem mem_of_mem_firstByPrimary {o : Operator} {os : List Operator}
    (h : o ∈ firstByPrimary os) : o ∈ os := by
  induction os with
  | nil => exact h
  | cons p rest ih =>
    rcases List.mem_cons.1 h with rfl | hrest
    · exact List.mem_cons_self
    · exact List.mem_cons_of_mem _ (ih (List.mem_of_mem_filter hrest))

/-- No primary symbol is lost. -/
theorem exists_mem_firstByPrimary {o : Operator} {os : List Operator} (h : o ∈ os) :
    ∃ p ∈ firstByPrimary os, p.primary = o.primary := by
  induction os with
  | nil => cases h
  | cons q rest ih =>
    by_cases hq : q.primary = o.primary
    · exact ⟨q, List.mem_cons_self, hq⟩
    · have hrest : o ∈ rest := by
        rcases List.mem_cons.1 h with rfl | hrest
        · exact absurd rfl hq
        · exact hrest
      obtain ⟨p, hp, hprimary⟩ := ih hrest
      have hkept : (!(p == q)) = true := Operator.not_beq_iff.2 (hprimary ▸ Ne.symm hq)
      exact ⟨p, List.mem_cons_of_mem _ (List.mem_filter.2 ⟨hp, hkept⟩), hprimary⟩

/-- No primary symbol comes twice. -/
theorem pairwise_firstByPrimary (os : List Operator) :
    (firstByPrimary os).Pairwise fun a b => a.primary ≠ b.primary := by
  induction os with
  | nil => exact List.Pairwise.nil
  | cons o rest ih =>
    refine List.Pairwise.cons (fun p hp hsame => ?_) (ih.filter _)
    exact Operator.not_beq_iff.1 (List.mem_filter.1 hp).2 hsame.symm

/-! ## The list of operators -/

theorem operators_perm (r : Registry) :
    r.operators.Perm (firstByPrimary r.table.values) :=
  List.mergeSort_perm _ _

/-- The primary symbols of the listed operators ascend strictly. -/
theorem operators_ascending (r : Registry) :
    (r.operators.map (·.primary)).Pairwise (· < ·) := by
  have hsorted : r.operators.Pairwise fun a b => a.primary ≤ b.primary := by
    refine (List.pairwise_mergeSort ?_ ?_ _).imp of_decide_eq_true
    · intro a b c hab hbc
      exact decide_eq_true (le_trans (of_decide_eq_true hab) (of_decide_eq_true hbc))
    · intro a b
      simpa only [Bool.or_eq_true, decide_eq_true_eq] using le_total a.primary b.primary
  have hdistinct : r.operators.Pairwise fun a b => a.primary ≠ b.primary :=
    (pairwise_firstByPrimary _).perm r.operators_perm.symm Ne.symm
  rw [List.pairwise_map]
  exact hsorted.imp₂ (fun _ _ => lt_of_le_of_ne) hdistinct

/-- A listed operator stands in the table. -/
theorem mem_values_of_mem_operators {r : Registry} {o : Operator} (h : o ∈ r.operators) :
    o ∈ r.table.values :=
  mem_of_mem_firstByPrimary (r.operators_perm.mem_iff.1 h)

/-- The listed primary symbols are those of the operators in the table. -/
theorem mem_primaries_iff (r : Registry) (primary : String) :
    primary ∈ r.operators.map (·.primary) ↔ ∃ o ∈ r.table.values, o.primary = primary := by
  rw [List.mem_map]
  constructor
  · rintro ⟨o, ho, hprimary⟩
    exact ⟨o, mem_values_of_mem_operators ho, hprimary⟩
  · rintro ⟨o, ho, rfl⟩
    obtain ⟨p, hp, hprimary⟩ := exists_mem_firstByPrimary ho
    exact ⟨p, r.operators_perm.mem_iff.2 hp, hprimary⟩

end Registry

end FilterQuery
