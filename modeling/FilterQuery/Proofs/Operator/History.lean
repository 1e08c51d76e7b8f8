/-
# FilterQuery.Proofs.Operator.History -- a registry is what its history says

Operators may share symbols, a registration takes over the symbols of others, and a removal takes
away further symbols only where they still belong to the removed operator. So what a step does to
an entry depends on which of the earlier registrations owns it.

`get?_perform` says once what any step does to any entry. The history tells the rest: an entry is
there when the last registration under its symbol stands (`Stands`), that is, when no later step
took the entry away. From this the shape of every registry that can be reached follows: an entry
belongs to an operator with that symbol, and a removal leaves other operators alone.
-/

import FilterQuery.Proofs.Histories
import FilterQuery.Proofs.Operator.Listing
import FilterQuery.Proofs.Table.Entries
import Mathlib.Data.List.Induction

namespace FilterQuery.Registry

/-- A change of a registry. -/
inductive Step where
  | register (o : Operator)
  | unregister (symbol : String)
  | clear

/-- The registry after a change. -/
def perform (r : Registry) : Step → Registry
  | .register o => r.register o
  | .unregister symbol => (r.unregister symbol).2
  | .clear => .empty

/-- The operator that is removed with `symbol`, if it stands for one. -/
def removed (r : Registry) (symbol : String) : Option Operator := (r.unregister symbol).1

/-- The registry that a history leads to. -/
def ofHistory (history : List Step) : Registry := history.foldl perform .empty

theorem ofHistory_concat (history : List Step) (step : Step) :
    ofHistory (history ++ [step]) = (ofHistory history).perform step := by
  simp only [ofHistory, List.foldl_append, List.foldl_cons, List.foldl_nil]

/-! ## What a step does to an entry -/

theorem get?_register (r : Registry) (o : Operator) (symbol : String) :
    (r.register o).get? symbol = if symbol ∈ o.symbols then some o else r.get? symbol :=
  Table.get?_foldl_put _ _ _ _

/-- Releasing a symbol leaves the other entries as they are. -/
theorem get?_release_of_ne {symbol s : String} (hs : s ≠ symbol) (o : Operator)
    (t : Table String Operator) : (release o t symbol).get? s = t.get? s := by
  rw [release]
  split
  · split
    · rw [Table.get?_erase, if_neg hs]
    · rfl
  · rfl

/-- Its own entry stays if that belongs to an operator with another primary symbol. -/
theorem get?_release_self (o : Operator) (t : Table String Operator) (symbol : String)
    (q : Operator) : (release o t symbol).get? symbol = some q ↔
      t.get? symbol = some q ∧ q.primary ≠ o.primary := by
  rw [release]
  cases hfound : t.get? symbol with
  | none => simp [hfound]
  | some p =>
    by_cases hsame : p == o
    · have hprimary := Operator.beq_iff.1 hsame
      simp only [hsame, if_true, Table.get?_erase, reduceCtorEq, false_iff, not_and, not_not,
        Option.some.injEq]
      rintro rfl
      exact hprimary
    · have hprimary : p.primary ≠ o.primary := fun h => hsame (Operator.beq_iff.2 h)
      simp only [hsame, Bool.false_eq_true, if_false, hfound, Option.some.injEq]
      refine (and_iff_left_of_imp ?_).symm
      rintro rfl
      exact hprimary

/-- Releasing several symbols takes away their entries of operators with this primary symbol. -/
theorem get?_foldl_release (o : Operator) (symbols : List String) (t : Table String Operator)
    (s : String) (q : Operator) :
    (symbols.foldl (release o) t).get? s = some q ↔
      t.get? s = some q ∧ ¬ (s ∈ symbols ∧ q.primary = o.primary) := by
  induction symbols generalizing t with
  | nil => simp
  | cons symbol rest ih =>
    rw [List.foldl_cons, ih, List.mem_cons]
    by_cases hs : s = symbol
    · -- released here, and perhaps once more in the rest
      subst hs
      rw [get?_release_self]
      tauto
    · rw [get?_release_of_ne hs]
      simp only [hs, false_or]

/-- A removal takes away the named entry, and the entries under the symbols of the removed operator
that belong to an operator with its primary symbol. -/
theorem get?_unregister (r : Registry) (named s : String) (q : Operator) :
    (r.unregister named).2.get? s = some q ↔ r.get? s = some q ∧
      ∀ p, r.removed named = some p →
        ¬ (named = s ∨ s ∈ p.symbols ∧ q.primary = p.primary) := by
  simp only [removed, unregister]
  cases hfound : r.get? named with
  | none => simp
  | some p =>
    have hreleased := get?_foldl_release p p.symbols (r.table.erase named) s q
    rw [Table.get?_erase] at hreleased
    -- the named entry goes first, whatever it belongs to
    by_cases hs : s = named
    · subst hs
      simp only [get?, hreleased, if_true, reduceCtorEq, false_and, Option.some.injEq, forall_eq',
        true_or, not_true_eq_false, and_false]
    · simp only [get?, hreleased, if_neg hs, Option.some.injEq, forall_eq', Ne.symm hs, false_or]

/-- The step leaves the entry of `o` under `symbol` where it is. -/
def Step.Spares (r : Registry) (symbol : String) (o : Operator) : Step → Prop
  | .register p => symbol ∉ p.symbols
  | .unregister named => ∀ p, r.removed named = some p →
      ¬ (named = symbol ∨ symbol ∈ p.symbols ∧ o.primary = p.primary)
  | .clear => False

/-- An entry after a step was put there by it, or was there before and is spared. -/
theorem get?_perform (r : Registry) (step : Step) (symbol : String) (o : Operator) :
    (r.perform step).get? symbol = some o ↔
      (step = .register o ∧ symbol ∈ o.symbols) ∨
        (r.get? symbol = some o ∧ step.Spares r symbol o) := by
  cases step with
  | register p =>
    simp only [perform, get?_register, Step.register.injEq, Step.Spares]
    by_cases hsymbol : symbol ∈ p.symbols
    · -- the entry from before is overwritten, also when it belonged to the same operator
      simp only [hsymbol, if_true, Option.some.injEq, not_true_eq_false, and_false, or_false]
      exact ⟨fun h => ⟨h, h ▸ hsymbol⟩, And.left⟩
    · simp only [hsymbol, if_false, not_false_eq_true, and_true]
      exact (or_iff_right fun ⟨heq, hmem⟩ => hsymbol (heq ▸ hmem)).symm
  | unregister named =>
    simp only [perform, get?_unregister, reduceCtorEq, false_and, false_or, Step.Spares]
  | clear => simp [perform, get?, empty, Step.Spares]

/-! ## What a history says of an entry -/

/-- After `earlier`, the steps of `later` leave the entry of `o` under `symbol` where it is: nothing
else is registered under `symbol`, the registry is not cleared, and no removal takes the entry away,
neither by naming it nor with an operator of the same primary symbol that lists it. -/
structure Untouched (earlier : List Step) (symbol : String) (o : Operator) (later : List Step) :
    Prop where
  not_registered : ∀ p, .register p ∈ later → symbol ∉ p.symbols
  not_cleared : .clear ∉ later
  not_removed : ∀ past named rest, later = past ++ .unregister named :: rest →
    ∀ p, (ofHistory (earlier ++ past)).removed named = some p →
      ¬ (named = symbol ∨ symbol ∈ p.symbols ∧ o.primary = p.primary)

/-- The last registration under `symbol` is that of `o`, and its entry was not touched since. -/
def Stands (history : List Step) (symbol : String) (o : Operator) : Prop :=
  ∃ earlier later, history = earlier ++ .register o :: later ∧ symbol ∈ o.symbols ∧
    Untouched (earlier ++ [.register o]) symbol o later

variable {earlier later : List Step} {symbol : String} {o : Operator}

theorem Untouched.nil : Untouched earlier symbol o [] :=
  ⟨nofun, nofun, fun past _ _ h => by cases past <;> cases h⟩

theorem untouched_concat (step : Step) :
    Untouched earlier symbol o (later ++ [step]) ↔
      Untouched earlier symbol o later ∧ step.Spares (ofHistory (earlier ++ later)) symbol o := by
  constructor
  · rintro ⟨hregistered, hcleared, hremoved⟩
    refine ⟨⟨fun p hp => hregistered p (List.mem_append_left _ hp),
      fun h => hcleared (List.mem_append_left _ h), fun past named rest hlater => ?_⟩, ?_⟩
    · exact hremoved past named (rest ++ [step])
        (concat_eq_append_cons_iff.2 (.inr ⟨rest, rfl, hlater⟩))
    · -- the new step comes behind all of `later`, so it finds the registry of these
      cases step with
      | register p => exact hregistered p (List.mem_append_right _ (List.mem_singleton_self _))
      | unregister named => exact hremoved later named [] rfl
      | clear => exact hcleared (List.mem_append_right _ (List.mem_singleton_self _))
  · rintro ⟨⟨hregistered, hcleared, hremoved⟩, hstep⟩
    refine ⟨fun p hp => ?_, fun h => ?_, fun past named rest hlater => ?_⟩
    · rcases List.mem_append.1 hp with hp | hp
      · exact hregistered p hp
      · cases List.mem_singleton.1 hp
        exact hstep
    · rcases List.mem_append.1 h with h | h
      · exact hcleared h
      · cases List.mem_singleton.1 h
        exact hstep
    · rcases concat_eq_append_cons_iff.1 hlater with ⟨rfl, rfl, rfl⟩ | ⟨init, -, hlater⟩
      · exact hstep
      · exact hremoved past named init hlater

theorem not_stands_nil : ¬ Stands [] symbol o := by
  rintro ⟨earlier, later, h, -⟩
  cases earlier <;> cases h

/-- A registration stands after a step if it is that step, or stood before and is spared by it. -/
theorem stands_concat (history : List Step) (step : Step) :
    Stands (history ++ [step]) symbol o ↔
      (step = .register o ∧ symbol ∈ o.symbols) ∨
        (Stands history symbol o ∧ step.Spares (ofHistory history) symbol o) := by
  constructor
  · rintro ⟨earlier, later, h, hsymbol, huntouched⟩
    rcases concat_eq_append_cons_iff.1 h with ⟨-, rfl, -⟩ | ⟨init, rfl, rfl⟩
    · exact .inl ⟨rfl, hsymbol⟩
    · obtain ⟨hinit, hstep⟩ := (untouched_concat step).1 huntouched
      rw [List.append_assoc, List.singleton_append] at hstep
      exact .inr ⟨⟨earlier, init, rfl, hsymbol, hinit⟩, hstep⟩
  · rintro (⟨rfl, hsymbol⟩ | ⟨⟨earlier, later, rfl, hsymbol, huntouched⟩, hstep⟩)
    · exact ⟨history, [], rfl, hsymbol, .nil⟩
    · refine ⟨earlier, later ++ [step], by simp, hsymbol,
        (untouched_concat step).2 ⟨huntouched, ?_⟩⟩
      rwa [List.append_assoc, List.singleton_append]

/-- What a symbol stands for is what the history says. -/
theorem get?_ofHistory (history : List Step) (symbol : String) (o : Operator) :
    (ofHistory history).get? symbol = some o ↔ Stands history symbol o := by
  induction history using List.reverseRecOn with
  | nil => exact iff_of_false nofun not_stands_nil
  | append_singleton history step ih => rw [ofHistory_concat, get?_perform, stands_concat, ih]

/-- A shared symbol stays with the operator that took it over. -/
example :
    ((ofHistory [.register ⟨"=a=", ["=x="], false⟩, .register ⟨"=b=", ["=x="], false⟩,
      .unregister "=a="]).get? "=x=").map (·.primary) = some "=b=" := by decide

/-! ## Every registry that can be reached -/

/-- An entry belongs to an operator with that symbol. -/
theorem Stands.hasSymbol {history : List Step} (h : Stands history symbol o) :
    o.hasSymbol symbol = true := by
  obtain ⟨_, _, -, hsymbol, -⟩ := h
  exact List.contains_iff_mem.2 hsymbol

theorem nodup_keys_release {t : Table String Operator} (hkeys : t.keys.Nodup) (o : Operator)
    (symbol : String) : (release o t symbol).keys.Nodup := by
  rw [release]
  split
  · split
    · exact Table.nodup_keys_erase hkeys symbol
    · exact hkeys
  · exact hkeys

/-- A step keeps the symbols of the table apart. -/
theorem nodup_keys_perform {r : Registry} (hkeys : r.table.keys.Nodup) (step : Step) :
    (r.perform step).table.keys.Nodup := by
  cases step with
  | register o =>
    exact List.foldlRecOn (motive := fun t : Table _ _ => t.keys.Nodup) o.symbols _ hkeys
      fun _ ht s _ => Table.nodup_keys_put ht s o
  | unregister named =>
    simp only [perform, unregister]
    split
    · exact hkeys
    · next o _ =>
      exact List.foldlRecOn (motive := fun t : Table _ _ => t.keys.Nodup) o.symbols _
        (Table.nodup_keys_erase hkeys named) fun _ ht s _ => nodup_keys_release ht o s
  | clear => exact Table.nodup_keys_empty

theorem nodup_keys_ofHistory (history : List Step) : (ofHistory history).table.keys.Nodup :=
  List.foldlRecOn (motive := fun r : Registry => r.table.keys.Nodup) history perform
    Table.nodup_keys_empty fun _ hr step _ => nodup_keys_perform hr step

/-- The entries of the table are what the history says. -/
theorem mem_entries_ofHistory (history : List Step) (symbol : String) (o : Operator) :
    (symbol, o) ∈ (ofHistory history).entries ↔ Stands history symbol o := by
  rw [entries, List.mem_mergeSort, Table.mem_entries_iff (nodup_keys_ofHistory history)]
  exact get?_ofHistory history symbol o

/-- A removal leaves the entries of operators with another primary symbol alone, the named one
apart. -/
theorem get?_unregister_of_other {r : Registry} {named : String} (hnamed : named ≠ symbol)
    (hother : ∀ p, r.removed named = some p → o.primary ≠ p.primary) :
    (r.perform (.unregister named)).get? symbol = some o ↔ r.get? symbol = some o := by
  rw [perform, get?_unregister]
  refine and_iff_left fun p hp => ?_
  rintro (heq | ⟨-, hsame⟩)
  · exact hnamed heq
  · exact hother p hp hsame

/-- The operators in the table are those of the entries. -/
theorem mem_values_iff {r : Registry} : o ∈ r.table.values ↔ ∃ s, (s, o) ∈ r.entries := by
  simp only [Table.values, entries, List.mem_map, List.mem_mergeSort, Prod.exists, exists_eq_right]

/-- A registry is what its history says: a symbol stands for the operator of the last registration
under it, unless that was cleared or removed since. So each entry belongs to an operator with that
symbol, a removal leaves the entries of operators with another primary symbol as they are (the named
one apart), and the list of operators has the primary symbols of the table, each once and in
ascending order. -/
theorem contents_ofHistory (history : List Step) :
    (∀ symbol o, (ofHistory history).get? symbol = some o ↔ Stands history symbol o) ∧
    (∀ symbol o, (symbol, o) ∈ (ofHistory history).entries → o.hasSymbol symbol = true) ∧
    (∀ named symbol o, named ≠ symbol →
      (∀ p, (ofHistory history).removed named = some p → o.primary ≠ p.primary) →
      (((ofHistory history).perform (.unregister named)).get? symbol = some o ↔
        (ofHistory history).get? symbol = some o)) ∧
    ((ofHistory history).operators.map (·.primary)).Pairwise (· < ·) ∧
    ∀ primary, primary ∈ (ofHistory history).operators.map (·.primary) ↔
      ∃ symbol o, (symbol, o) ∈ (ofHistory history).entries ∧ o.primary = primary := by
  have hentries : ∀ symbol o, (symbol, o) ∈ (ofHistory history).entries →
      o.hasSymbol symbol = true := by
    intro symbol o hentry
    have hstands := (mem_entries_ofHistory history symbol o).1 hentry
    exact hstands.hasSymbol
  have hprimaries : ∀ primary, primary ∈ (ofHistory history).operators.map (·.primary) ↔
      ∃ symbol o, (symbol, o) ∈ (ofHistory history).entries ∧ o.primary = primary := by
    intro primary
    rw [mem_primaries_iff, exists_comm]
    simp only [mem_values_iff, exists_and_right]
  refine ⟨get?_ofHistory history, hentries, ?_, operators_ascending _, hprimaries⟩
  intro named symbol o hnamed hother
  exact get?_unregister_of_other hnamed hother

end FilterQuery.Registry
