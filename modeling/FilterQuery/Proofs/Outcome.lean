/-
# FilterQuery.Proofs.Outcome -- taking apart what may fail

A computation that may fail has come through exactly when each of its steps has, with some value
that the next step has gone on from; it has failed when the first of them has, or when the next one
has failed on such a value. These laws name those values.

`Meets E P x` tells both outcomes at once: an error is one of `E`, a value satisfies `P`.
-/

import FilterQuery.Error

namespace FilterQuery

variable {ε α β : Type}

theorem bind_eq_ok_iff {x : Except ε α} {f : α → Except ε β} {b : β} :
    x >>= f = .ok b ↔ ∃ a, x = .ok a ∧ f a = .ok b := by
  constructor
  · intro h
    cases x with
    | error e => cases h
    | ok a => exact ⟨a, rfl, h⟩
  · rintro ⟨a, rfl, h⟩
    exact h

theorem bind_eq_error_iff {x : Except ε α} {f : α → Except ε β} {e : ε} :
    x >>= f = .error e ↔ x = .error e ∨ ∃ a, x = .ok a ∧ f a = .error e := by
  constructor
  · intro h
    cases x with
    | error e' =>
      cases h
      exact .inl rfl
    | ok a => exact .inr ⟨a, rfl, h⟩
  · rintro (rfl | ⟨a, rfl, h⟩)
    · rfl
    · exact h

theorem map_eq_error_iff {x : Except ε α} {f : α → β} {e : ε} :
    x.map f = .error e ↔ x = .error e := by
  cases x <;> simp [Except.map]

theorem map_eq_ok_iff {x : Except ε α} {f : α → β} {b : β} :
    x.map f = .ok b ↔ ∃ a, x = .ok a ∧ f a = b := by
  constructor
  · intro h
    cases x with
    | error e => cases h
    | ok a =>
      cases h
      exact ⟨a, rfl, rfl⟩
  · rintro ⟨a, rfl, rfl⟩
    rfl

theorem eq_ok_of_toOption {x : Except ε α} {a : α} (h : x.toOption = some a) : x = .ok a := by
  cases x with
  | error e => cases h
  | ok b =>
    cases h
    rfl

/-- What each element is made into and back comes back in a row. -/
theorem mapM_map_eq_some {f : α → β} {g : β → Option α} (h : ∀ a, g (f a) = some a)
    (as : List α) : (as.map f).mapM g = some as := by
  induction as with
  | nil => rfl
  | cons a r ih =>
    rw [List.map_cons, List.mapM_cons, h, ih]
    rfl

/-- The outcome is an error of which `E` is true, or a value of which `P` is true. -/
def Meets (E : ε → Prop) (P : α → Prop) : Except ε α → Prop
  | .error e => E e
  | .ok a => P a

theorem meets_iff {E : ε → Prop} {P : α → Prop} {x : Except ε α} :
    Meets E P x ↔ (∀ e, x = .error e → E e) ∧ ∀ a, x = .ok a → P a := by
  cases x <;> simp [Meets]

theorem Meets.bind {E : ε → Prop} {P : α → Prop} {Q : β → Prop} {x : Except ε α}
    {f : α → Except ε β} (hx : Meets E P x) (hf : ∀ a, P a → Meets E Q (f a)) :
    Meets E Q (x >>= f) := by
  cases x with
  | error e => exact hx
  | ok a => exact hf a hx

theorem Meets.map {E : ε → Prop} {P : α → Prop} {Q : β → Prop} {x : Except ε α} {f : α → β}
    (hx : Meets E P x) (hf : ∀ a, P a → Q (f a)) : Meets E Q (x.map f) := by
  cases x with
  | error e => exact hx
  | ok a => exact hf a hx

/-- What each step keeps, the fold keeps. -/
theorem Meets.foldlM {E : ε → Prop} {P : β → Prop} {f : β → α → Except ε β} {as : List α}
    (hf : ∀ b, ∀ a ∈ as, P b → Meets E P (f b a)) {b : β} (hb : P b) :
    Meets E P (as.foldlM f b) := by
  induction as generalizing b with
  | nil => exact hb
  | cons a as ih =>
    rw [List.foldlM_cons]
    exact (hf b a List.mem_cons_self hb).bind fun c hc =>
      ih (fun b' a' ha' => hf b' a' (List.mem_cons_of_mem _ ha')) hc

end FilterQuery
