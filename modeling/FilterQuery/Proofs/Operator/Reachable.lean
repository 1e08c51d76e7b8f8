/-
# FilterQuery.Proofs.Operator.Reachable -- registries of operators that have been built

A registry comes about by registering operators, by removing them and by clearing, and the only
operators there are to register are those that have been built. So each operator of a registry has
been built, and each symbol of the registry is one of its operator's. That is what reading a filter
needs to know: the symbol of every entry is a comparison symbol, so it can be written in a text.
-/

import FilterQuery.Proofs.Language.Trees
import FilterQuery.Proofs.Operator.History

namespace FilterQuery

/-- An operator that has been built from symbols. -/
def Operator.Built (o : Operator) : Prop := ∃ symbols multi, ofSymbols symbols multi = .ok o

/-- All its symbols are comparison symbols, and that is all there is to check. -/
theorem Operator.built_iff {o : Operator} :
    o.Built ↔ ∀ s ∈ o.symbols, isSymbol s = true := by
  constructor
  · rintro ⟨symbols, multi, h⟩
    exact Node.isSymbol_of_ofSymbols h
  · intro h
    obtain ⟨primary, aliases, multi⟩ := o
    refine ⟨primary :: aliases, multi, ?_⟩
    have hnone : (primary :: aliases).find? (fun t => !isSymbol t) = none := by
      simpa [symbols] using h
    rw [ofSymbols, hnone]

/-- The operators of the language can be built. -/
theorem Operator.built_standard : ∀ o ∈ standard, o.Built := by
  have hall : ∀ o ∈ standard, ∀ s ∈ o.symbols, isSymbol s = true := by decide
  exact fun o ho => built_iff.2 (hall o ho)

namespace Registry

/-- Some history leads to the registry in which only operators are registered that have been
built. -/
def Reachable (r : Registry) : Prop :=
  ∃ history : List Step, (∀ o, .register o ∈ history → o.Built) ∧ ofHistory history = r

variable {r : Registry} {symbol : String} {o : Operator}

/-- An entry of a registry that can be reached is that of an operator which has been registered
under the symbol. -/
theorem Reachable.of_get? (hr : r.Reachable) (h : r.get? symbol = some o) :
    o.Built ∧ symbol ∈ o.symbols := by
  obtain ⟨history, hbuilt, rfl⟩ := hr
  obtain ⟨earlier, later, rfl, hsymbol, -⟩ := (get?_ofHistory history symbol o).1 h
  exact ⟨hbuilt o (List.mem_append_right _ List.mem_cons_self), hsymbol⟩

/-- All operators of a registry that can be reached have been built. -/
theorem Reachable.built (hr : r.Reachable) : r.Built :=
  fun _ _ h => (hr.of_get? h).1

/-- The symbols of a registry that can be reached are comparison symbols. -/
theorem Reachable.isSymbol (hr : r.Reachable) (h : r.get? symbol = some o) :
    isSymbol symbol = true := by
  obtain ⟨hbuilt, hsymbol⟩ := hr.of_get? h
  exact Operator.built_iff.1 hbuilt symbol hsymbol

/-- A registry that is not empty knows a symbol. -/
theorem exists_get?_of_size (h : 0 < r.size) : ∃ symbol o, r.get? symbol = some o := by
  obtain ⟨⟨es⟩⟩ := r
  cases es with
  | nil => cases h
  | cons e rest => exact ⟨e.1, e.2, if_pos rfl⟩

/-- Registering operators one after the other is a history. -/
theorem reachable_ofList {os : List Operator} (h : ∀ o ∈ os, o.Built) :
    (Registry.ofList os).Reachable := by
  refine ⟨os.map .register, ?_, ?_⟩
  · intro o ho
    obtain ⟨p, hp, heq⟩ := List.mem_map.1 ho
    rw [← Step.register.inj heq]
    exact h p hp
  · rw [ofHistory, List.foldl_map]
    rfl

end Registry

end FilterQuery
