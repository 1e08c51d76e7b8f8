/-
# FilterQuery.Proofs.Resolve.Arguments -- arguments as values

The arguments of a comparison are converted one after the other, and the policy decides what
becomes of one that is no text of its type. If all arguments have values, no policy matters
(`convertAll_of_forall`). If one has none, skipping drops the comparison (`convertAll_of_skip`). In
any case the values that come out stand for the arguments one by one (`stands_of_convertAll`).
-/

import FilterQuery.Proofs.Outcome
import FilterQuery.Settings
import Mathlib.Data.List.Forall2

namespace FilterQuery.Settings

variable {C : Type} {s : Settings C} {t : ValueType}

/-- The value stands for the argument: it is what the argument converts to, or the null value where
the argument converts to nothing and nulls are passed. -/
def Stands (s : Settings C) (t : ValueType) (a : String) (v : Value) : Prop :=
  s.converters.convert a t = some v ∨
    s.converters.convert a t = none ∧ s.policy = .passNull ∧ v = .null

/-- Of the settings, only the converters and the policy matter for arguments. -/
theorem convertAll_congr {s s' : Settings C} (hconverters : s.converters = s'.converters)
    (hpolicy : s.policy = s'.policy) (t : ValueType) (as : List String) :
    s.convertAll t as = s'.convertAll t as := by
  induction as with
  | nil => rfl
  | cons a as ih => rw [convertAll, convertAll, hconverters, hpolicy, ih]

/-- Arguments that all convert have their values, whatever the policy. -/
theorem convertAll_of_forall : ∀ {as : List String},
    (∀ a ∈ as, (s.converters.convert a t).isSome = true) →
      s.convertAll t as = .ok (some (as.filterMap (s.converters.convert · t)))
  | [], _ => rfl
  | a :: as, h => by
    obtain ⟨v, hv⟩ := Option.isSome_iff_exists.1 (h a List.mem_cons_self)
    have hrest := convertAll_of_forall fun b hb => h b (List.mem_cons_of_mem a hb)
    rw [convertAll, hv, hrest, List.filterMap_cons, hv]
    rfl

/-- Skipping drops a comparison with an argument that does not convert. -/
theorem convertAll_of_skip (hpolicy : s.policy = .skip) : ∀ {as : List String},
    (∃ a ∈ as, s.converters.convert a t = none) → s.convertAll t as = .ok none
  | a :: as, h => by
    rw [convertAll, hpolicy]
    cases hv : s.converters.convert a t with
    | none => rfl
    | some v =>
      -- the argument that does not convert is a later one
      have hrest : ∃ b ∈ as, s.converters.convert b t = none := by
        obtain ⟨b, hb, hnone⟩ := h
        rcases List.mem_cons.1 hb with rfl | hb
        · rw [hv] at hnone
          cases hnone
        · exact ⟨b, hb, hnone⟩
      dsimp only
      rw [convertAll_of_skip hpolicy hrest]
      rfl

/-- The values that come out stand for the arguments, one by one. -/
theorem stands_of_convertAll : ∀ {as : List String} {vs : List Value},
    s.convertAll t as = .ok (some vs) → List.Forall₂ (s.Stands t) as vs
  | [], vs, h => by
    cases h
    exact .nil
  | a :: as, vs, h => by
    rw [convertAll] at h
    split at h
    · rename_i v hv
      obtain ⟨rest?, hrest, h⟩ := map_eq_ok_iff.1 h
      obtain ⟨rest, rfl, rfl⟩ := Option.map_eq_some_iff.1 h
      exact .cons (.inl hv) (stands_of_convertAll hrest)
    · cases h
    · cases h
    · rename_i hv hpolicy
      obtain ⟨rest?, hrest, h⟩ := map_eq_ok_iff.1 h
      obtain ⟨rest, rfl, rfl⟩ := Option.map_eq_some_iff.1 h
      exact .cons (.inr ⟨hv, hpolicy, rfl⟩) (stands_of_convertAll hrest)

end FilterQuery.Settings
