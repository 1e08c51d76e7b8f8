/-
# FilterQuery.Proofs.Histories -- histories that grow by a step

What holds of all histories is proved by adding one step behind the others. A place in the longer
history is then the place of the new step, or a place in the history from before.
-/

import Mathlib.Data.List.Basic

namespace FilterQuery

variable {α : Type}

/-- A step of a history that was extended by one is that one, or a step from before. -/
theorem concat_eq_append_cons_iff {xs past rest : List α} {last x : α} :
    xs ++ [last] = past ++ x :: rest ↔
      (xs = past ∧ last = x ∧ rest = []) ∨
        ∃ init, rest = init ++ [last] ∧ xs = past ++ x :: init := by
  constructor
  · intro h
    rcases List.eq_nil_or_concat rest with rfl | ⟨init, a, rfl⟩
    · obtain ⟨rfl, hlast⟩ := List.append_inj' h rfl
      exact .inl ⟨rfl, List.head_eq_of_cons_eq hlast, rfl⟩
    · rw [List.concat_eq_append, ← List.cons_append, ← List.append_assoc] at h
      obtain ⟨rfl, hlast⟩ := List.append_inj' h rfl
      cases hlast
      exact .inr ⟨init, List.concat_eq_append, rfl⟩
  · rintro (⟨rfl, rfl, rfl⟩ | ⟨init, rfl, rfl⟩)
    · rfl
    · rw [List.append_assoc, List.cons_append]

end FilterQuery
