/-
# FilterQuery.Proofs.Operator.Removal -- what a removal leaves of an operator

A removal finds an operator under one symbol and takes away the entries under the symbols of what it
has found. The same operator, by its primary symbol, may have been registered before with other
symbols, and those that the later registration does not list still stand for the earlier copy. So
a removal does not always take the operator away: `gone_iff` says when it does, and the registry in
which a comparison has been registered twice shows that it need not (`not_forall_gone`).
-/

import FilterQuery.Proofs.Operator.History

namespace FilterQuery.Registry

variable {r : Registry} {named symbol : String} {o q : Operator}

/-- No symbol stands for the operator, whatever further symbols a copy of it has. -/
def Gone (r : Registry) (o : Operator) : Prop :=
  ∀ symbol q, r.get? symbol = some q → (q == o) = false

/-- Every symbol that stands for the operator is one of those that this copy lists. -/
def Lists (r : Registry) (o : Operator) : Prop :=
  ∀ symbol q, r.get? symbol = some q → (q == o) = true → symbol ∈ o.symbols

theorem removed_eq_get? (r : Registry) (named : String) : r.removed named = r.get? named := by
  unfold removed unregister
  cases r.get? named <;> rfl

/-- What is left of an operator stands under symbols that the removed copy does not list. -/
theorem get?_unregister_of_same (hremoved : r.removed named = some o) (hsame : (q == o) = true) :
    (r.perform (.unregister named)).get? symbol = some q ↔
      r.get? symbol = some q ∧ symbol ≠ named ∧ symbol ∉ o.symbols := by
  have hprimary : q.primary = o.primary := Operator.beq_iff.1 hsame
  rw [perform, get?_unregister]
  apply and_congr_right
  intro _
  constructor
  · intro hspared
    have hnot := hspared o hremoved
    exact ⟨fun h => hnot (.inl h.symm), fun h => hnot (.inr ⟨h, hprimary⟩)⟩
  · rintro ⟨hnamed, hunlisted⟩ p hp
    cases hremoved.symm.trans hp
    rintro (h | ⟨h, -⟩)
    · exact hnamed h.symm
    · exact hunlisted h

/-- When a removal takes an operator away. In every registry that can be reached, no symbol stands
for the removed operator any more just when each symbol that stood for it is listed by the copy
that was found; an entry of an earlier copy under another symbol stays as it was. -/
theorem gone_iff {history : List Step} (hremoved : (ofHistory history).removed named = some o) :
    ((ofHistory history).perform (.unregister named)).Gone o ↔ (ofHistory history).Lists o := by
  -- the named symbol is itself one of the copy found under it
  have hnamed : named ∈ o.symbols := by
    have hget : (ofHistory history).get? named = some o := by rw [← removed_eq_get?, hremoved]
    have hstands := (get?_ofHistory history named o).1 hget
    exact List.contains_iff_mem.1 hstands.hasSymbol
  constructor
  · intro hgone symbol q hget hsame
    by_contra hunlisted
    have hne : symbol ≠ named := by
      rintro rfl
      exact hunlisted hnamed
    have hleft := (get?_unregister_of_same hremoved hsame).2 ⟨hget, hne, hunlisted⟩
    have hother := hgone symbol q hleft
    rw [hsame] at hother
    cases hother
  · intro hlists symbol q hleft
    rw [← Bool.not_eq_true]
    intro hsame
    obtain ⟨hget, -, hunlisted⟩ := (get?_unregister_of_same hremoved hsame).1 hleft
    exact hunlisted (hlists symbol q hget hsame)

/-- A comparison that is registered with one further symbol, and then again with another one. -/
def renewed : List Step :=
  [.register ⟨"=gt=", [">"], false⟩, .register ⟨"=gt=", ["=above="], false⟩]

/-- Removing by a symbol of the earlier copy takes that copy, so the symbol of the later one stays:
the removed copy does not list it. -/
theorem gone_iff_renewed :
    (ofHistory renewed).removed ">" = some ⟨"=gt=", [">"], false⟩ ∧
      (((ofHistory renewed).perform (.unregister ">")).Gone ⟨"=gt=", [">"], false⟩ ↔
        (ofHistory renewed).Lists ⟨"=gt=", [">"], false⟩) :=
  ⟨rfl, gone_iff rfl⟩

/-- A removal can leave an operator behind: `>` still stands for the comparison after that has been
removed by its primary symbol. -/
theorem not_forall_gone :
    ¬ ∀ (history : List Step) (named : String) (o : Operator),
      (ofHistory history).removed named = some o →
        ((ofHistory history).perform (.unregister named)).Gone o := by
  intro h
  have hgone := h renewed "=gt=" ⟨"=gt=", ["=above="], false⟩ rfl
  have hleft : ((ofHistory renewed).perform (.unregister "=gt=")).get? ">" =
      some ⟨"=gt=", [">"], false⟩ := rfl
  have hother := hgone ">" _ hleft
  cases hother

end FilterQuery.Registry
