/-
# FilterQuery.Proofs.Operator.Relisting -- registering what a registry lists

A registry lists its operators by ascending primary symbol, each with all its symbols. Registering
them again, in that order, gives a registry of the same operators, but not always the same registry:
of the operators that have a symbol, the one with the greatest primary symbol comes last and gets it
(`get?_ofList_operators`), while in the first registry it may belong to any of them, or to none if a
removal has taken it away.

`Ordered` says when this makes no difference (`ofList_operators_iff`): each symbol of a listed
operator is registered, for that operator or for one that is listed behind it.
-/

import FilterQuery.Proofs.Operator.History

namespace FilterQuery.Registry

variable {r : Registry} {symbol : String} {o : Operator} {os : List Operator}

/-! ## Registering operators in the order of their primary symbols -/

/-- Of the operators with a symbol, the one registered last stands behind it; a symbol that none of
them has stays as it was. -/
theorem get?_registerAll (hos : os.Pairwise fun p q => p.primary < q.primary) (r : Registry)
    (symbol : String) (o : Operator) :
    (r.registerAll os).get? symbol = some o ↔
      (o ∈ os ∧ symbol ∈ o.symbols ∧ ∀ p ∈ os, symbol ∈ p.symbols → p.primary ≤ o.primary) ∨
        ((∀ p ∈ os, symbol ∉ p.symbols) ∧ r.get? symbol = some o) := by
  induction os generalizing r with
  | nil => simp [registerAll]
  | cons q rest ih =>
    obtain ⟨hq, hrest⟩ := List.pairwise_cons.1 hos
    have hstep : r.registerAll (q :: rest) = (r.register q).registerAll rest := rfl
    rw [hstep, ih hrest, get?_register]
    simp only [List.mem_cons, forall_eq_or_imp]
    by_cases hsymbol : symbol ∈ q.symbols
    · simp only [hsymbol, if_true, true_implies, not_true_eq_false, false_and, or_false,
        Option.some.injEq]
      constructor
      · rintro (⟨ho, hos, hmax⟩ | ⟨hnone, rfl⟩)
        · exact ⟨.inr ho, hos, (hq o ho).le, hmax⟩
        · exact ⟨.inl rfl, hsymbol, le_refl _, fun p hp hps => absurd hps (hnone p hp)⟩
      · rintro ⟨rfl | ho, hos, -, hmax⟩
        · -- an operator behind it would have a greater primary symbol
          refine .inr ⟨fun p hp hps => ?_, rfl⟩
          exact absurd (hmax p hp hps) (not_le_of_gt (hq p hp))
        · exact .inl ⟨ho, hos, hmax⟩
    · simp only [hsymbol, if_false, false_implies, true_and, not_false_eq_true]
      refine or_congr ?_ Iff.rfl
      constructor
      · rintro ⟨ho, hrest⟩
        exact ⟨.inr ho, hrest⟩
      · rintro ⟨rfl | ho, hos, hmax⟩
        · exact absurd hos hsymbol
        · exact ⟨ho, hos, hmax⟩

/-- What a symbol stands for when the listed operators are registered again: the last of those that
have it. -/
theorem get?_ofList_operators (r : Registry) (symbol : String) (o : Operator) :
    (ofList r.operators).get? symbol = some o ↔
      o ∈ r.operators ∧ symbol ∈ o.symbols ∧
        ∀ p ∈ r.operators, symbol ∈ p.symbols → p.primary ≤ o.primary := by
  have hascending : r.operators.Pairwise fun p q => p.primary < q.primary :=
    List.pairwise_map.1 r.operators_ascending
  rw [ofList, get?_registerAll hascending]
  refine or_iff_left ?_
  rintro ⟨-, hempty⟩
  cases hempty

/-- A symbol of an operator is known when that has been registered with others. -/
theorem exists_get?_registerAll (ho : o ∈ os) (hsymbol : symbol ∈ o.symbols) (r : Registry) :
    ∃ q, (r.registerAll os).get? symbol = some q := by
  have hknown : ∀ (os : List Operator) {r : Registry} {q : Operator}, r.get? symbol = some q →
      ∃ q, (r.registerAll os).get? symbol = some q := by
    intro os
    induction os with
    | nil => exact fun h => ⟨_, h⟩
    | cons p rest ih =>
      intro r q h
      have hstep : ∃ q, (r.register p).get? symbol = some q := by
        rw [get?_register]
        split
        · exact ⟨p, rfl⟩
        · exact ⟨q, h⟩
      obtain ⟨q, hq⟩ := hstep
      exact ih hq
  obtain ⟨before, after, rfl⟩ := List.append_of_mem ho
  have hsplit : r.registerAll (before ++ o :: after) =
      ((r.registerAll before).register o).registerAll after := by
    simp only [registerAll, List.foldl_append, List.foldl_cons]
  have hown : ((r.registerAll before).register o).get? symbol = some o := by
    rw [get?_register, if_pos hsymbol]
  rw [hsplit]
  exact hknown after hown

/-! ## When it is the same registry -/

/-- Entries with the same primary symbol hold the same operator. -/
def Coherent (r : Registry) : Prop :=
  ∀ s t p q, r.get? s = some p → r.get? t = some q → p.primary = q.primary → p = q

/-- Each symbol of a listed operator stands for it, or for an operator that is listed behind it. -/
def Ordered (r : Registry) : Prop :=
  ∀ o ∈ r.operators, ∀ symbol ∈ o.symbols, ∃ q, r.get? symbol = some q ∧ o.primary ≤ q.primary

variable {history : List Step}

/-- A registry is coherent if its history registers no two operators with one primary symbol. -/
theorem coherent_ofHistory (h : ∀ p q, .register p ∈ history → .register q ∈ history →
    p.primary = q.primary → p = q) : (ofHistory history).Coherent := by
  have hregistered : ∀ {s : String} {p : Operator}, (ofHistory history).get? s = some p →
      .register p ∈ history := by
    intro s p hp
    obtain ⟨earlier, later, hhistory, -⟩ := (get?_ofHistory history s p).1 hp
    rw [hhistory]
    exact List.mem_append_right _ List.mem_cons_self
  exact fun s t p q hp hq hsame => h p q (hregistered hp) (hregistered hq) hsame

/-- A listed operator stands behind some symbol. -/
theorem exists_get?_of_mem_operators (h : o ∈ (ofHistory history).operators) :
    ∃ s, (ofHistory history).get? s = some o := by
  obtain ⟨s, hs⟩ := mem_values_iff.1 (mem_values_of_mem_operators h)
  exact ⟨s, (get?_ofHistory history s o).2 ((mem_entries_ofHistory history s o).1 hs)⟩

/-- In a coherent registry the operator of each entry is listed. -/
theorem Coherent.mem_operators (hc : (ofHistory history).Coherent)
    (h : (ofHistory history).get? symbol = some o) : o ∈ (ofHistory history).operators := by
  have hentry : (symbol, o) ∈ (ofHistory history).entries :=
    (mem_entries_ofHistory history symbol o).2 ((get?_ofHistory history symbol o).1 h)
  have hprimary : o.primary ∈ (ofHistory history).operators.map (·.primary) :=
    (mem_primaries_iff _ _).2 ⟨o, mem_values_iff.2 ⟨symbol, hentry⟩, rfl⟩
  obtain ⟨p, hp, hsame⟩ := List.mem_map.1 hprimary
  obtain ⟨s, hs⟩ := exists_get?_of_mem_operators hp
  have heq : p = o := hc s symbol p o hs h hsame
  exact heq ▸ hp

/-- Registering the listed operators again gives a coherent registry back just when it is
ordered. -/
theorem ofList_operators_iff (hc : (ofHistory history).Coherent) :
    (∀ s, (ofList (ofHistory history).operators).get? s = (ofHistory history).get? s) ↔
      (ofHistory history).Ordered := by
  constructor
  · intro hsame o ho s hs
    obtain ⟨q, hq⟩ := exists_get?_registerAll ho hs empty
    have hgreatest := ((get?_ofList_operators _ s q).1 hq).2.2 o ho hs
    exact ⟨q, (hsame s).symm.trans hq, hgreatest⟩
  · intro hordered s
    cases hget : (ofHistory history).get? s with
    | some q =>
      have hq : s ∈ q.symbols :=
        List.contains_iff_mem.1 ((get?_ofHistory history s q).1 hget).hasSymbol
      refine (get?_ofList_operators _ s q).2 ⟨hc.mem_operators hget, hq, fun p hp hps => ?_⟩
      obtain ⟨q', hq', hle⟩ := hordered p hp s hps
      rw [hget] at hq'
      cases hq'
      exact hle
    | none =>
      rw [Option.eq_none_iff_forall_ne_some]
      intro o ho
      obtain ⟨hlisted, hs, -⟩ := (get?_ofList_operators _ s o).1 ho
      obtain ⟨q, hq, -⟩ := hordered o hlisted s hs
      rw [hget] at hq
      cases hq

end FilterQuery.Registry
