/-
# FilterQuery.Proofs.Resolve.Runs -- runs as functions of their trace

A run takes a trace to a result and a trace (`Run.exec`). The equations of `exec` follow the ways
in which runs are put together, and three laws are told of runs with them:

* `Run.Ensures I m Q` -- from a trace with `I` the run goes to a trace with `I`, whether it fails
  or not, and a result that it has satisfies `Q`;
* `Run.Ends I m E Q` -- the same, and a failure that it ends with satisfies `E`;
* `Run.Agrees R m m'` -- from traces in relation `R` both runs come to the same result, and to
  traces in relation `R`.

All pass through `pure`, `>>=` and folds, so a statement about resolving needs to be proved only
of what touches the trace: asking for an attribute and handing over a leaf.
-/

import FilterQuery.Proofs.Outcome
import FilterQuery.Resolve

namespace FilterQuery

/-- The trace with one more leaf handed over. -/
def Trace.hand (t : Trace) (c : Construction) : Trace := { t with built := t.built ++ [c] }

namespace Run

variable {α β : Type} {m m' : Run α} {t u : Trace}

/-- The result of a run and the trace that it leaves behind. -/
def exec (m : Run α) (t : Trace) : Except Failure α × Trace := (ExceptT.run m).run t

@[simp] theorem exec_pure (a : α) (t : Trace) : (pure a : Run α).exec t = (.ok a, t) := rfl

@[simp] theorem exec_throw (f : Failure) (t : Trace) :
    (throw f : Run α).exec t = (.error f, t) := rfl

@[simp] theorem exec_ofExcept (x : Except Failure α) (t : Trace) :
    (ofExcept x).exec t = (x, t) := rfl

/-- A result that is known is what a run goes on from. -/
theorem ofExcept_ok_bind (a : α) (f : α → Run β) : (ofExcept (.ok a) >>= f) = f a := rfl

@[simp] theorem exec_modifyGet (f : Trace → α × Trace) (t : Trace) :
    (modifyGet f : Run α).exec t = (.ok (f t).1, (f t).2) := rfl

@[simp] theorem exec_construct {C : Type} (c : Construction) (condition : Except Failure C)
    (t : Trace) : (Resolver.construct c condition).exec t = (condition, t.hand c) := rfl

theorem exec_bind (m : Run α) (f : α → Run β) (t : Trace) :
    (m >>= f).exec t = match m.exec t with
      | (.ok a, u) => (f a).exec u
      | (.error e, u) => (.error e, u) := by
  show (ExceptT.bindCont f (m.exec t).1).run (m.exec t).2 = _
  rcases m.exec t with ⟨_ | _, u⟩ <;> rfl

/-- A run of two parts that has a result comes to it by one of the first. -/
theorem exec_bind_eq_ok {f : α → Run β} {b : β} (h : (m >>= f).exec t = (.ok b, u)) :
    ∃ a v, m.exec t = (.ok a, v) ∧ (f a).exec v = (.ok b, u) := by
  rw [exec_bind] at h
  split at h
  · rename_i a v hm
    exact ⟨a, v, hm, h⟩
  · cases h

/-- What holds of a start and its trace, and goes on to hold with each step that has a result, holds
of what the steps come to. It may also tell which steps have been taken. -/
theorem exec_foldlM_eq_ok {P : List α → β → Trace → Prop} {f : β → α → Run β} {as : List α}
    (hstep : ∀ taken, ∀ a ∈ as, ∀ b t b' t', P taken b t → (f b a).exec t = (.ok b', t') →
      P (taken ++ [a]) b' t') {b b' : β} (hb : P [] b t)
    (h : (as.foldlM f b).exec t = (.ok b', u)) : P as b' u := by
  suffices hrest : ∀ rest taken b t, taken ++ rest = as → P taken b t →
      (rest.foldlM f b).exec t = (.ok b', u) → P as b' u from hrest as [] b t rfl hb h
  intro rest
  induction rest with
  | nil =>
    intro taken b t htaken hb h
    rw [List.append_nil] at htaken
    rw [List.foldlM_nil] at h
    cases h
    rwa [← htaken]
  | cons a rest ih =>
    intro taken b t htaken hb h
    rw [List.foldlM_cons] at h
    obtain ⟨c, v, hc, h⟩ := exec_bind_eq_ok h
    have ha : a ∈ as := by
      rw [← htaken]
      exact List.mem_append_right taken List.mem_cons_self
    rw [List.append_cons] at htaken
    exact ih (taken ++ [a]) c v htaken (hstep taken a ha b t c v hb hc) h

/-! ## What a run ensures -/

/-- The run keeps `I`, and its result satisfies `Q`. -/
def Ensures (I : Trace → Prop) (m : Run α) (Q : α → Prop) : Prop :=
  ∀ t, I t → I (m.exec t).2 ∧ ∀ a, (m.exec t).1 = .ok a → Q a

namespace Ensures

variable {I : Trace → Prop} {P Q : α → Prop}

theorem pure {a : α} (h : Q a) : Ensures I (pure a) Q := by
  intro t ht
  rw [exec_pure]
  refine ⟨ht, ?_⟩
  intro b hb
  cases hb
  exact h

theorem throw (f : Failure) : Ensures I (throw f) Q := by
  intro t ht
  rw [exec_throw]
  refine ⟨ht, ?_⟩
  intro b hb
  cases hb

theorem ofExcept {x : Except Failure α} (h : ∀ a, x = .ok a → Q a) :
    Ensures I (ofExcept x) Q := by
  intro t ht
  rw [exec_ofExcept]
  exact ⟨ht, h⟩

/-- What follows from what is ensured is ensured. -/
theorem mono (hm : Ensures I m P) (h : ∀ a, P a → Q a) : Ensures I m Q := by
  intro t ht
  obtain ⟨hI, hP⟩ := hm t ht
  exact ⟨hI, fun a ha => h a (hP a ha)⟩

theorem bind {f : α → Run β} {S : β → Prop} (hm : Ensures I m P)
    (hf : ∀ a, P a → Ensures I (f a) S) : Ensures I (m >>= f) S := by
  intro t ht
  obtain ⟨hI, hP⟩ := hm t ht
  rw [exec_bind]
  rcases hexec : m.exec t with ⟨_ | a, u⟩
  · rw [hexec] at hI
    refine ⟨hI, ?_⟩
    intro b hb
    cases hb
  · rw [hexec] at hI hP
    exact hf a (hP a rfl) u hI

theorem foldlM {S : β → Prop} {f : β → α → Run β} (h : ∀ b a, S b → Ensures I (f b a) S) :
    ∀ (as : List α) (b : β), S b → Ensures I (as.foldlM f b) S
  | [], b, hb => by
    rw [List.foldlM_nil]
    exact .pure hb
  | a :: as, b, hb => by
    rw [List.foldlM_cons]
    exact (h b a hb).bind fun c hc => foldlM h as c hc

end Ensures

/-! ## What a run ends with -/

/-- The run keeps `I`; its failure satisfies `E` and its result satisfies `Q`. -/
def Ends (I : Trace → Prop) (m : Run α) (E : Failure → Prop) (Q : α → Prop) : Prop :=
  ∀ t, I t → I (m.exec t).2 ∧ Meets E Q (m.exec t).1

namespace Ends

variable {I : Trace → Prop} {E : Failure → Prop} {P Q : α → Prop}

theorem pure {a : α} (h : Q a) : Ends I (pure a) E Q := fun _ ht => ⟨ht, h⟩

theorem throw {f : Failure} (h : E f) : Ends I (throw f : Run α) E Q := fun _ ht => ⟨ht, h⟩

theorem ofExcept {x : Except Failure α} (h : Meets E Q x) : Ends I (ofExcept x) E Q :=
  fun _ ht => ⟨ht, h⟩

/-- What follows from what it ends with is what it ends with. -/
theorem mono (hm : Ends I m E P) (h : ∀ a, P a → Q a) : Ends I m E Q := by
  intro t ht
  obtain ⟨hI, hmeets⟩ := hm t ht
  rw [meets_iff] at hmeets ⊢
  exact ⟨hI, hmeets.1, fun a ha => h a (hmeets.2 a ha)⟩

theorem bind {f : α → Run β} {S : β → Prop} (hm : Ends I m E P)
    (hf : ∀ a, P a → Ends I (f a) E S) : Ends I (m >>= f) E S := by
  intro t ht
  obtain ⟨hI, hmeets⟩ := hm t ht
  rw [exec_bind]
  rcases hexec : m.exec t with ⟨e | a, u⟩ <;> rw [hexec] at hI hmeets
  · exact ⟨hI, hmeets⟩
  · exact hf a hmeets u hI

/-- What is kept may depend on what is still to come. -/
theorem foldlM {S : List α → β → Prop} {f : β → α → Run β}
    (h : ∀ a rest b, S (a :: rest) b → Ends I (f b a) E (S rest)) :
    ∀ (as : List α) (b : β), S as b → Ends I (as.foldlM f b) E (S [])
  | [], b, hb => by
    rw [List.foldlM_nil]
    exact .pure hb
  | a :: as, b, hb => by
    rw [List.foldlM_cons]
    exact (h a as b hb).bind fun c hc => foldlM h as c hc

end Ends

/-! ## Where two runs agree -/

/-- From related traces both runs come to the same result and to related traces. -/
def Agrees (R : Trace → Trace → Prop) (m m' : Run α) : Prop :=
  ∀ t t', R t t' → (m.exec t).1 = (m'.exec t').1 ∧ R (m.exec t).2 (m'.exec t').2

namespace Agrees

variable {R : Trace → Trace → Prop}

theorem pure (a : α) : Agrees R (pure a) (pure a) := by
  intro t t' h
  exact ⟨rfl, h⟩

theorem throw (f : Failure) : Agrees R (throw f : Run α) (throw f) := by
  intro t t' h
  exact ⟨rfl, h⟩

theorem ofExcept (x : Except Failure α) : Agrees R (ofExcept x) (ofExcept x) := by
  intro t t' h
  exact ⟨rfl, h⟩

/-- The second parts need to agree only where the first has a result. -/
theorem bind {f f' : α → Run β} (hm : Agrees R m m')
    (hf : ∀ t a, (m.exec t).1 = .ok a → Agrees R (f a) (f' a)) :
    Agrees R (m >>= f) (m' >>= f') := by
  intro t t' h
  obtain ⟨hresult, hR⟩ := hm t t' h
  have hfa := hf t
  rw [exec_bind, exec_bind]
  rcases hexec : m.exec t with ⟨_ | a, u⟩ <;> rcases hexec' : m'.exec t' with ⟨_ | a', u'⟩ <;>
    rw [hexec, hexec'] at hresult hR
  · cases hresult
    exact ⟨rfl, hR⟩
  · cases hresult
  · cases hresult
  · cases hresult
    rw [hexec] at hfa
    exact hfa a rfl u u' hR

theorem foldlM {f f' : β → α → Run β} (h : ∀ b a, Agrees R (f b a) (f' b a)) :
    ∀ (as : List α) (b : β), Agrees R (as.foldlM f b) (as.foldlM f' b)
  | [], b => .pure b
  | a :: as, b => by
    rw [List.foldlM_cons, List.foldlM_cons]
    exact (h b a).bind fun _ c _ => foldlM h as c

end Agrees

end Run

end FilterQuery
