/-
# FilterQuery.Proofs.Operator.Additions -- adding operators and filling gaps with them

There are two ways for an operator to come into a registry besides those that are there. It is added
and takes over its symbols, or it fills a gap: it is registered unless its primary symbol is known
already. Who notes the operators of each way in a list of its own forgets how the two were mixed,
and that may matter: a gap may have been filled before an operator was added that would have
closed it.

So the question is what happens to a row of additions when all gaps are filled at the end
(`arranged`). One gap and one added operator commute when the gap is none, when the added operator
takes over all of what has filled it, or when the two have no symbol in common
(`get?_ensure_register`). If that holds of each gap and each operator added behind it, the row can
be arranged (`get?_takeAll_arranged`).
-/

import FilterQuery.Proofs.Operator.History

namespace FilterQuery

theorem Operator.primary_mem_symbols (o : Operator) : o.primary ∈ o.symbols := List.mem_cons_self

namespace Registry

/-- The registry with an operator registered unless its primary symbol is. -/
def ensure (r : Registry) (o : Operator) : Registry :=
  if r.contains o.primary then r else r.register o

/-- An operator that comes into a registry: whatever its symbols stand for, or only to fill a gap,
unless its primary symbol is registered. -/
inductive Addition where
  | added (o : Operator)
  | filling (o : Operator)

/-- The registry after an addition. -/
def take (r : Registry) : Addition → Registry
  | .added o => r.register o
  | .filling o => r.ensure o

/-- The registry after the additions, one after the other. -/
def takeAll (r : Registry) (as : List Addition) : Registry := as.foldl take r

variable {r q : Registry} {o p : Operator} {a : Addition} {as : List Addition} {symbol : String}

@[simp] theorem takeAll_nil (r : Registry) : r.takeAll [] = r := rfl

@[simp] theorem takeAll_cons (r : Registry) (a : Addition) (as : List Addition) :
    r.takeAll (a :: as) = (r.take a).takeAll as := rfl

theorem takeAll_append (r : Registry) (as bs : List Addition) :
    r.takeAll (as ++ bs) = (r.takeAll as).takeAll bs :=
  List.foldl_append

/-- Adding operators is registering them. -/
theorem takeAll_map_added (r : Registry) (os : List Operator) :
    r.takeAll (os.map .added) = r.registerAll os :=
  List.foldl_map

theorem ensure_of_contains (h : r.contains o.primary = true) : r.ensure o = r := if_pos h

theorem ensure_of_not_contains (h : ¬ r.contains o.primary = true) : r.ensure o = r.register o :=
  if_neg h

/-! ## What the symbols stand for -/

theorem contains_eq (r : Registry) (symbol : String) :
    r.contains symbol = (r.get? symbol).isSome := rfl

/-- Who has filled the gap stands behind it; without a gap all is as it was. -/
theorem get?_ensure_primary (r : Registry) (o : Operator) :
    (r.ensure o).get? o.primary = some ((r.get? o.primary).getD o) := by
  cases h : r.get? o.primary with
  | some q =>
    have hknown : r.contains o.primary = true := by rw [contains_eq, h, Option.isSome_some]
    rw [ensure_of_contains hknown, h, Option.getD_some]
  | none =>
    have hgap : ¬ r.contains o.primary = true := by
      rw [contains_eq, h]
      exact Bool.false_ne_true
    rw [ensure_of_not_contains hgap, get?_register, if_pos o.primary_mem_symbols, Option.getD_none]

/-- What the symbols stand for after an addition depends on what they stood for before, and not on
the order of the table. -/
theorem get?_take_congr (h : r.get? = q.get?) (a : Addition) :
    (r.take a).get? = (q.take a).get? := by
  have hregister : ∀ o, (r.register o).get? = (q.register o).get? := by
    intro o
    funext s
    rw [get?_register, get?_register, h]
  cases a with
  | added o => exact hregister o
  | filling o =>
    have hknown : q.contains o.primary = r.contains o.primary := by simp only [contains_eq, h]
    simp only [take]
    by_cases hgap : r.contains o.primary = true
    · rw [ensure_of_contains hgap, ensure_of_contains (hknown.trans hgap), h]
    · rw [ensure_of_not_contains hgap, ensure_of_not_contains (hknown ▸ hgap), hregister]

theorem get?_takeAll_congr (h : r.get? = q.get?) (as : List Addition) :
    (r.takeAll as).get? = (q.takeAll as).get? := by
  induction as generalizing r q with
  | nil => exact h
  | cons a rest ih => exact ih (get?_take_congr h a)

/-- A registration keeps the symbols known. -/
theorem contains_register (h : r.contains symbol = true) (o : Operator) :
    (r.register o).contains symbol = true := by
  rw [contains_eq] at h ⊢
  rw [get?_register]
  split
  · rfl
  · exact h

theorem contains_ensure (h : r.contains symbol = true) (o : Operator) :
    (r.ensure o).contains symbol = true := by
  unfold ensure
  split
  · exact h
  · exact contains_register h o

/-! ## One gap and one added operator -/

/-- The operator `o` may be added before `p` fills a gap in the registry or after that: there is no
gap for `p`, or `o` takes over all of its symbols or none. -/
def Compatible (r : Registry) (p o : Operator) : Prop :=
  r.contains p.primary = true ∨ p.symbols ⊆ o.symbols ∨ p.symbols.Disjoint o.symbols

theorem Compatible.ensure (h : r.Compatible p o) (q : Operator) : (r.ensure q).Compatible p o :=
  h.imp_left fun hknown => contains_ensure hknown q

theorem Compatible.registerAll (h : r.Compatible p o) (os : List Operator) :
    (r.registerAll os).Compatible p o :=
  List.foldlRecOn (motive := fun r : Registry => r.Compatible p o) os register h fun _ hr q _ =>
    hr.imp_left fun hknown => contains_register hknown q

theorem get?_ensure_register (h : r.Compatible p o) :
    ((r.register o).ensure p).get? = ((r.ensure p).register o).get? := by
  by_cases hknown : r.contains p.primary = true
  · rw [ensure_of_contains hknown, ensure_of_contains (contains_register hknown o)]
  · have hprimary := p.primary_mem_symbols
    rw [ensure_of_not_contains hknown]
    rcases h.resolve_left hknown with hall | hnone
    · -- the added operator has the primary symbol, so there is no gap behind it
      have hclosed : (r.register o).contains p.primary = true := by
        rw [contains_eq, get?_register, if_pos (hall hprimary)]
        rfl
      rw [ensure_of_contains hclosed]
      funext s
      simp only [get?_register]
      split
      · rfl
      · next hs => exact (if_neg fun hp => hs (hall hp)).symm
    · have hopen : ¬ (r.register o).contains p.primary = true := by
        rw [contains_eq, get?_register, if_neg (hnone hprimary)]
        exact hknown
      rw [ensure_of_not_contains hopen]
      funext s
      simp only [get?_register]
      by_cases hs : s ∈ p.symbols
      · have hother : s ∉ o.symbols := hnone hs
        simp only [hs, hother, if_true, if_false]
      · simp only [hs, if_false]

/-! ## A row of additions with the gaps at its end -/

/-- The operators that are added. -/
def added (as : List Addition) : List Operator :=
  as.filterMap fun
    | .added o => some o
    | .filling _ => none

/-- The operators that fill gaps. -/
def filling (as : List Addition) : List Operator :=
  as.filterMap fun
    | .added _ => none
    | .filling o => some o

/-- The additions with all gaps filled at the end. -/
def arranged (as : List Addition) : List Addition :=
  (added as).map .added ++ (filling as).map .filling

/-- Each operator that is added may as well come before the gaps that have been filled by then. -/
def Arrangeable (r : Registry) (as : List Addition) : Prop :=
  ∀ before o after, as = before ++ .added o :: after →
    ∀ p ∈ filling before, (r.registerAll (added before)).Compatible p o

theorem Arrangeable.left {bs : List Addition} (h : r.Arrangeable (as ++ bs)) :
    r.Arrangeable as := by
  intro before o after has
  exact h before o (after ++ bs) (by rw [has, List.append_assoc, List.cons_append])

/-- An operator may be added before gaps are filled if it may be added before each of them. -/
theorem get?_takeAll_filling {ps : List Operator} (h : ∀ p ∈ ps, r.Compatible p o) :
    ((r.register o).takeAll (ps.map .filling)).get? =
      ((r.takeAll (ps.map .filling)).register o).get? := by
  induction ps generalizing r with
  | nil => rfl
  | cons p rest ih =>
    obtain ⟨hp, hrest⟩ := List.forall_mem_cons.1 h
    have hswap : ((r.register o).take (.filling p)).get? =
        ((r.take (.filling p)).register o).get? := get?_ensure_register hp
    simp only [List.map_cons, takeAll_cons]
    rw [get?_takeAll_congr hswap]
    exact ih fun p' hp' => (hrest p' hp').ensure p

/-- In a row of additions the gaps can be filled last, if each added operator can come before
them. -/
theorem get?_takeAll_arranged (h : r.Arrangeable as) :
    (r.takeAll (arranged as)).get? = (r.takeAll as).get? := by
  induction as using List.reverseRecOn with
  | nil => rfl
  | append_singleton as a ih =>
    have hsame := ih h.left
    cases a with
    | filling p =>
      have hlast : arranged (as ++ [.filling p]) = arranged as ++ [.filling p] := by
        simp [arranged, added, filling]
      rw [hlast, takeAll_append, takeAll_append]
      exact get?_takeAll_congr hsame _
    | added o =>
      -- the new operator is added in front of all the gaps, and has to be moved behind them
      have hfront : arranged (as ++ [.added o]) =
          (added as).map .added ++ .added o :: (filling as).map .filling := by
        simp [arranged, added, filling]
      rw [arranged, takeAll_append, takeAll_map_added] at hsame
      rw [hfront, takeAll_append, takeAll_append, takeAll_map_added]
      exact (get?_takeAll_filling (h as o [] rfl)).trans (get?_take_congr hsame (.added o))

/-- A row can be arranged if each of its operators that fill gaps may come behind each of those that
are added. -/
theorem arrangeable_of_forall (h : ∀ p ∈ filling as, ∀ o ∈ added as, r.Compatible p o) :
    r.Arrangeable as := by
  intro before o after has p hp
  have hp' : p ∈ filling as := by
    rw [has, filling, List.filterMap_append]
    exact List.mem_append_left _ hp
  have ho : o ∈ added as := by simp [has, added]
  exact (h p hp' o ho).registerAll _

end Registry

end FilterQuery
