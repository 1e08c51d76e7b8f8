/-
# FilterQuery.Proofs.Settings.Building -- where the operators of built settings come from

One step of a builder replaces the operators. It registers what the given registry lists, which is
not always what the registry holds (`build_operators`), and puts on top what other steps have added
so far: first the operators that were added, then those of the custom predicates. The steps behind
it find the result and add to that in their own order.

No other step looks at the operators except to add some, so all the rest of the settings, and the
failure, are those that the other steps come to by themselves (`build_replacing`). The table is
another matter. A custom predicate only fills a gap, and the gaps are filled last where the
operators are replaced behind it, but in their turn where they are replaced before. If this makes
no difference to the table, the step can stand anywhere (`build_replacing_anywhere`).
-/

import FilterQuery.Proofs.Operator.Additions
import FilterQuery.Proofs.Operator.Relisting
import FilterQuery.Settings.Builder

namespace FilterQuery.Settings

open Registry

variable {C : Type}

/-! ## A registry alone -/

/-- Settings that are built from a registry alone have the operators that it lists, and each symbol
of these stands for the last of those that have it. That is what the registry says of every symbol
just when the registry is ordered. -/
theorem build_operators {history : List Step} (hc : (ofHistory history).Coherent) :
    ∃ s : Settings C, build [.operators (ofHistory history)] = .ok s ∧
      (∀ symbol o, s.dialect.operators.get? symbol = some o ↔
        o ∈ (ofHistory history).operators ∧ symbol ∈ o.symbols ∧
          ∀ p ∈ (ofHistory history).operators, symbol ∈ p.symbols → p.primary ≤ o.primary) ∧
      ((∀ symbol, s.dialect.operators.get? symbol = (ofHistory history).get? symbol) ↔
        (ofHistory history).Ordered) :=
  ⟨_, rfl, get?_ofList_operators (ofHistory history), ofList_operators_iff hc⟩

/-- Two operators with a symbol in common, the first of them registered last. -/
def shared : List Step :=
  [.register ⟨"=b=", ["=x="], false⟩, .register ⟨"=a=", ["=x="], false⟩]

theorem coherent_shared : (ofHistory shared).Coherent := by
  refine coherent_ofHistory fun p q hp hq hsame => ?_
  simp only [shared, List.mem_cons, Step.register.injEq, List.not_mem_nil, or_false] at hp hq
  rcases hp with rfl | rfl <;> rcases hq with rfl | rfl
  · rfl
  · exact absurd hsame (by decide)
  · exact absurd hsame (by decide)
  · rfl

/-- The shared symbol goes over from the one operator to the other. -/
theorem build_operators_shared :
    (ofHistory shared).Coherent ∧
      ∃ s : Settings Unit, build [.operators (ofHistory shared)] = .ok s ∧
        (∀ symbol o, s.dialect.operators.get? symbol = some o ↔
          o ∈ (ofHistory shared).operators ∧ symbol ∈ o.symbols ∧
            ∀ p ∈ (ofHistory shared).operators, symbol ∈ p.symbols → p.primary ≤ o.primary) ∧
        ((∀ symbol, s.dialect.operators.get? symbol = (ofHistory shared).get? symbol) ↔
          (ofHistory shared).Ordered) :=
  ⟨coherent_shared, build_operators coherent_shared⟩

/-- The operators of the settings need not be those of the registry that they are built from. -/
theorem not_forall_build_operators :
    ¬ ∀ history : List Step, (ofHistory history).Coherent →
      ∃ s : Settings Unit, build [.operators (ofHistory history)] = .ok s ∧
        ∀ symbol, s.dialect.operators.get? symbol = (ofHistory history).get? symbol := by
  intro h
  obtain ⟨s, hs, hsame⟩ := h shared coherent_shared
  cases hs
  have hordered := (ofList_operators_iff coherent_shared).1 hsame
  -- `=x=` stands for the operator that is listed first
  have hown : (ofHistory shared).get? "=b=" = some ⟨"=b=", ["=x="], false⟩ := rfl
  have hlisted := coherent_shared.mem_operators hown
  obtain ⟨q, hq, hbehind⟩ := hordered _ hlisted "=x=" (by decide)
  have hother : (ofHistory shared).get? "=x=" = some ⟨"=a=", ["=x="], false⟩ := rfl
  cases hother.symm.trans hq
  exact absurd hbehind (by decide)

/-! ## What a step does to the operators -/

/-- The operators that a change brings in. -/
def Change.additions : Change C → List Addition
  | .operator o => [.added o]
  | .predicate p => [.filling p.operator]
  | .foreignPredicate o _ => [.filling o]
  | _ => []

/-- The operators that a step brings in. -/
def BuildStep.additions : BuildStep C → List Addition
  | .operators _ => []
  | .extendedOperators => Operator.extended.map .added
  | .change c => c.additions

/-- The step leaves the operators that are there, unless their symbols are taken over. -/
def BuildStep.Keeps : BuildStep C → Prop
  | .operators _ => False
  | .change (.dropOperator _) => False
  | _ => True

/-- The operators that steps bring in, in order. -/
def additions (steps : List (BuildStep C)) : List Addition := steps.flatMap BuildStep.additions

theorem ensureOperator_eq (s : Settings C) (o : Operator) :
    s.ensureOperator o = s.withOperators (s.dialect.operators.ensure o) := by
  unfold ensureOperator Registry.ensure
  split <;> rfl

/-- Filling several gaps. -/
theorem foldl_ensureOperator (os : List Operator) (s : Settings C) (r : Registry) :
    os.foldl ensureOperator (s.withOperators r) =
      s.withOperators (r.takeAll (os.map .filling)) := by
  induction os generalizing r with
  | nil => rfl
  | cons o rest ih =>
    rw [List.foldl_cons, ensureOperator_eq]
    exact ih (r.ensure o)

/-- What a change brings in does not depend on the operators that it finds, and neither does what it
does apart from that. -/
theorem apply_withOperators {c : Change C} (hc : (BuildStep.change c).Keeps) (s : Settings C)
    (r : Registry) : (s.withOperators r).apply c =
      (s.apply c).map (·.withOperators (r.takeAll c.additions)) := by
  cases c with
  | dropOperator symbol => exact hc.elim
  | predicate p =>
    simp only [apply, change, file, ensureOperator_eq]
    rfl
  | foreignPredicate o t =>
    simp only [apply, change, file, ensureOperator_eq]
    rfl
  | maxDepth n =>
    simp only [apply, change]
    split <;> rfl
  | _ => rfl

/-- A change that fails would have brought in no operators. -/
theorem additions_of_error {c : Change C} {s : Settings C} {f : Failure}
    (h : s.apply c = .error f) : c.additions = [] := by
  cases c with
  | maxDepth n => rfl
  | _ => cases h

namespace Builder

/-- The builder with other operators. -/
def withOperators (b : Builder C) (r : Registry) : Builder C :=
  { b with settings := b.settings.withOperators r }

theorem change_withOperators {c : Change C} (hc : (BuildStep.change c).Keeps) (b : Builder C)
    (r : Registry) :
    (b.withOperators r).change c = (b.change c).withOperators (r.takeAll c.additions) := by
  have happly := apply_withOperators hc b.settings r
  unfold change
  rw [withOperators, happly]
  cases hs : b.settings.apply c with
  | ok s => rfl
  | error f => rw [additions_of_error hs]; rfl

/-- The change leaves what it has noted of operators as it is. -/
theorem noted_change (b : Builder C) (c : Change C) :
    (b.change c).added = b.added ∧ (b.change c).ofPredicates = b.ofPredicates := by
  unfold change
  split <;> exact ⟨rfl, rfl⟩

/-- What is done to a builder brings in these operators, notes them, and does the rest whatever the
operators are. -/
structure Brings (f : Builder C → Builder C) (as : List Addition) : Prop where
  operators : ∀ b r, f (b.withOperators r) = (f b).withOperators (r.takeAll as)
  added : ∀ b, (f b).added = b.added ++ Registry.added as
  filling : ∀ b, (f b).ofPredicates = b.ofPredicates ++ Registry.filling as

theorem Brings.foldl {ι : Type} {f : Builder C → ι → Builder C} {as : ι → List Addition}
    {xs : List ι} (h : ∀ x ∈ xs, Brings (f · x) (as x)) :
    Brings (xs.foldl f ·) (xs.flatMap as) := by
  induction xs with
  | nil =>
    have hnothing : ∀ os : List Operator, os = os ++ [] := fun os => (List.append_nil os).symm
    exact ⟨fun _ _ => rfl, fun b => hnothing b.added, fun b => hnothing b.ofPredicates⟩
  | cons x rest ih =>
    obtain ⟨hfirst, hrest⟩ := List.forall_mem_cons.1 h
    have hothers := ih hrest
    refine ⟨fun b r => ?_, fun b => ?_, fun b => ?_⟩
    · simp only [List.foldl_cons, List.flatMap_cons, hfirst.operators, hothers.operators,
        takeAll_append]
    · simp only [List.foldl_cons, List.flatMap_cons, hfirst.added, hothers.added, Registry.added,
        List.filterMap_append, List.append_assoc]
    · simp only [List.foldl_cons, List.flatMap_cons, hfirst.filling, hothers.filling,
        Registry.filling, List.filterMap_append, List.append_assoc]

theorem brings_change {c : Change C} (hc : (BuildStep.change c).Keeps) (hnone : c.additions = []) :
    Brings (·.change c) [] where
  operators b r := by
    have h := change_withOperators hc b r
    rwa [hnone] at h
  added b := (noted_change b c).1.trans (List.append_nil _).symm
  filling b := (noted_change b c).2.trans (List.append_nil _).symm

theorem brings_add (o : Operator) : Brings (·.add o : Builder C → Builder C) [.added o] where
  operators _ _ := rfl
  added _ := rfl
  filling _ := (List.append_nil _).symm

theorem brings_file {c : Change C} {o : Operator} (hc : (BuildStep.change c).Keeps)
    (hfilling : c.additions = [.filling o]) : Brings (·.file o c) [.filling o] where
  operators b r := by
    have h := change_withOperators hc b r
    rw [hfilling] at h
    simp only [file, h]
    rfl
  added b := (noted_change b c).1.trans (List.append_nil _).symm
  filling b := rfl

/-- So it does if nothing is done after a failure. -/
theorem Brings.unless_failed {f : Builder C → Builder C} (h : Brings f []) :
    Brings (fun b => if b.failure.isSome then b else f b) [] where
  operators b r := by
    show (if b.failure.isSome then b.withOperators r else f (b.withOperators r)) = _
    split
    · rfl
    · exact h.operators b r
  added b := by
    split
    · exact (List.append_nil _).symm
    · exact h.added b
  filling b := by
    split
    · exact (List.append_nil _).symm
    · exact h.filling b

theorem brings_step {step : BuildStep C} (hstep : step.Keeps) :
    Brings (·.step step) step.additions := by
  cases step with
  | operators r => exact hstep.elim
  | extendedOperators =>
    have h : Brings (Operator.extended.foldl add · : Builder C → Builder C)
        (Operator.extended.flatMap fun o => [.added o]) := Brings.foldl fun o _ => brings_add o
    rwa [← List.map_eq_flatMap] at h
  | change c =>
    cases c with
    | operator o => exact brings_add o
    | predicate p => exact brings_file hstep rfl
    | foreignPredicate o t => exact brings_file hstep rfl
    | maxDepth n => exact (brings_change hstep rfl).unless_failed
    | _ => exact brings_change hstep rfl

/-- A replacement puts on top of the listed operators what has been noted, the gaps last. -/
theorem step_operators (b : Builder C) (r : Registry) :
    b.step (.operators r) = b.withOperators ((ofList r.operators).takeAll
      (b.added.map .added ++ b.ofPredicates.map .filling)) := by
  rw [takeAll_append, takeAll_map_added]
  have hfilled := foldl_ensureOperator b.ofPredicates b.settings
    ((ofList r.operators).registerAll b.added)
  simp only [step, withOperators, hfilled]

end Builder

/-! ## Where the operators are replaced -/

variable {before after : List (BuildStep C)}

/-- The operators that come of replacing them between two rows of steps. -/
def replaced (r : Registry) (before after : List (BuildStep C)) : Registry :=
  ((ofList r.operators).takeAll (arranged (additions before))).takeAll (additions after)

/-- Apart from the operators, replacing them makes no difference to what is built. -/
theorem build_replacing (hkeeps : ∀ step ∈ before ++ after, step.Keeps) (r : Registry) :
    build (before ++ .operators r :: after) =
      (build (before ++ after)).map (·.withOperators (replaced r before after)) := by
  rw [List.forall_mem_append] at hkeeps
  have hbefore := Builder.Brings.foldl fun step hstep => Builder.brings_step (hkeeps.1 step hstep)
  have hafter := Builder.Brings.foldl fun step hstep => Builder.brings_step (hkeeps.2 step hstep)
  have hrun : (before ++ .operators r :: after).foldl Builder.step {} =
      ((before ++ after).foldl Builder.step {}).withOperators (replaced r before after) := by
    rw [List.foldl_append, List.foldl_append, List.foldl_cons, Builder.step_operators,
      hafter.operators, hbefore.added, hbefore.filling]
    rfl
  simp only [build, hrun]
  generalize (before ++ after).foldl Builder.step {} = b
  rw [Builder.withOperators]
  cases b.failure <;> rfl

/-- If gaps can be filled last, the operators can be replaced anywhere. -/
theorem get?_replaced {r : Registry}
    (h : (ofList r.operators).Arrangeable (additions (before ++ after))) :
    (replaced r before after).get? =
      ((ofList r.operators).takeAll (additions (before ++ after))).get? := by
  have hsplit : additions (before ++ after) = additions before ++ additions after :=
    List.flatMap_append
  rw [hsplit] at h ⊢
  rw [takeAll_append]
  exact get?_takeAll_congr (get?_takeAll_arranged h.left) _

/-- The operators can be replaced between any two of the other steps. Either it fails wherever that
is done, for the same reason, or it gives settings that are the same up to the operators, and
these are the same too if gaps can be filled last: each operator that is added takes over all
symbols or none of a predicate's operator that came before it, unless that has found no gap. -/
theorem build_replacing_anywhere {before' after' : List (BuildStep C)} (r : Registry)
    (hkeeps : ∀ step ∈ before ++ after, step.Keeps)
    (hmoved : before ++ after = before' ++ after') :
    (∃ f, build (before ++ .operators r :: after) = .error f ∧
      build (before' ++ .operators r :: after') = .error f) ∨
    ∃ s t, build (before ++ .operators r :: after) = .ok s ∧
      build (before' ++ .operators r :: after') = .ok t ∧
      t = s.withOperators t.dialect.operators ∧
      ((ofList r.operators).Arrangeable (additions (before ++ after)) →
        ∀ symbol, t.dialect.operators.get? symbol = s.dialect.operators.get? symbol) := by
  rw [build_replacing hkeeps r, build_replacing (hmoved ▸ hkeeps) r, ← hmoved]
  cases build (before ++ after) with
  | error f => exact .inl ⟨f, rfl, rfl⟩
  | ok s =>
    refine .inr ⟨_, _, rfl, rfl, rfl, fun harrangeable symbol => ?_⟩
    have hsame : (replaced r before' after').get? = (replaced r before after).get? := by
      rw [get?_replaced harrangeable, get?_replaced (hmoved ▸ harrangeable), hmoved]
    exact congrFun hsame symbol

/-- A predicate's operator and one that is added behind it, without a symbol in common. -/
def apart : List (BuildStep Unit) :=
  [.change (.predicate ⟨⟨"=within=", ["=in="], true⟩, none, .string, fun _ => .ok ()⟩),
    .change (.operator ⟨"=like=", ["=ke="], false⟩), .change (.maxDepth 8)]

/-- The operators can be replaced behind all of them or before. -/
theorem build_replacing_anywhere_apart :
    (∀ step ∈ apart ++ [], step.Keeps) ∧ apart ++ [] = [] ++ apart ∧
      ∃ s t, build (apart ++ .operators .standard :: []) = .ok s ∧
        build ([] ++ .operators .standard :: apart) = .ok t ∧
        t = s.withOperators t.dialect.operators ∧
        ∀ symbol, t.dialect.operators.get? symbol = s.dialect.operators.get? symbol := by
  have hkeeps : ∀ step ∈ apart ++ [], step.Keeps := by simp [apart, BuildStep.Keeps]
  have hmoved : apart ++ [] = [] ++ apart := rfl
  have harrangeable :
      (ofList Registry.standard.operators).Arrangeable (additions (apart ++ [])) := by
    have hfilling : filling (additions (apart ++ [])) = [⟨"=within=", ["=in="], true⟩] := rfl
    have hadded : added (additions (apart ++ [])) = [⟨"=like=", ["=ke="], false⟩] := rfl
    refine arrangeable_of_forall fun p hp o ho => .inr (.inr ?_)
    rw [hfilling, List.mem_singleton] at hp
    rw [hadded, List.mem_singleton] at ho
    simp [hp, ho, Operator.symbols]
  refine ⟨hkeeps, hmoved, ?_⟩
  rcases build_replacing_anywhere .standard hkeeps hmoved with
    ⟨f, hf, -⟩ | ⟨s, t, hs, ht, hrest, hsame⟩
  · cases hf
  · exact ⟨s, t, hs, ht, hrest, hsame harrangeable⟩

/-- A predicate's operator, and one that is added behind it and takes over its primary symbol
only. -/
def closing : List (BuildStep Unit) :=
  [.change (.predicate ⟨⟨"=p=", ["=x="], false⟩, none, .string, fun _ => .ok ()⟩),
    .change (.operator ⟨"=p=", [], false⟩)]

/-- It makes a difference where the operators are replaced, even if they have no symbols in common:
behind the two steps there is no gap any more, and the further symbol of the predicate is lost. -/
theorem not_forall_build_replacing :
    ¬ ∀ (r : Registry) (before after before' after' : List (BuildStep Unit)),
      r.operators.Pairwise (fun p q => p.symbols.Disjoint q.symbols) →
      (∀ step ∈ before ++ after, step.Keeps) → before ++ after = before' ++ after' →
      ∀ s t, build (before ++ .operators r :: after) = .ok s →
        build (before' ++ .operators r :: after') = .ok t →
        ∀ symbol, t.dialect.operators.get? symbol = s.dialect.operators.get? symbol := by
  intro h
  have hkeeps : ∀ step ∈ closing ++ [], step.Keeps := by simp [closing, BuildStep.Keeps]
  have hnone : Registry.empty.operators = [] := by
    simp [Registry.operators, firstByPrimary, Registry.empty, Table.values, Table.empty]
  have hlost : (replaced .empty closing []).get? "=x=" = none := by
    rw [replaced, hnone]
    rfl
  have hkept : (replaced .empty [] closing).get? "=x=" = some ⟨"=p=", ["=x="], false⟩ := by
    rw [replaced, hnone]
    rfl
  have hdisjoint : Registry.empty.operators.Pairwise fun p q => p.symbols.Disjoint q.symbols :=
    hnone ▸ .nil
  obtain ⟨u, hu⟩ : ∃ u, build closing = .ok u := ⟨_, rfl⟩
  have hbehind : build (closing ++ .operators .empty :: []) =
      .ok (u.withOperators (replaced .empty closing [])) :=
    (build_replacing hkeeps .empty).trans (congrArg (Except.map _) hu)
  have hkeeps' : ∀ step ∈ [] ++ closing, step.Keeps := hkeeps
  have hahead : build ([] ++ .operators .empty :: closing) =
      .ok (u.withOperators (replaced .empty [] closing)) :=
    (build_replacing hkeeps' .empty).trans (congrArg (Except.map _) hu)
  have hsame := h .empty closing [] [] closing hdisjoint hkeeps rfl _ _ hbehind hahead "=x="
  exact Option.some_ne_none _ (hkept.symm.trans (hsame.trans hlost))

end FilterQuery.Settings
