/-
# FilterQuery.Proofs.Language.Phrase -- the grammar of filters as derivation trees

A phrase is a derivation in the grammar

    or         = and, { ",", and }
    and        = constraint, { ";", constraint }
    constraint = "(", or, ")" | comparison
    comparison = bare text, symbol, right side
    right side = "(", value, { ",", value }, ")" | value
    value      = bare text | quoted text

with one type for each nonterminal. A repetition `x, { s, x }` is a chain: its last member, or a
member, the separator and a chain. Phrases know nothing of a dialect. What a dialect adds is said
beside them: how deep groups nest (`depth`), which comparisons fit its operators (`Clause.Fits`),
and which tree a phrase stands for (`tree`).

The grammar is unambiguous: a phrase is determined by its lexemes, even with other lexemes behind
it that cannot prolong it (`Disjunction.lexemes_inj`). That is why the same parenthesis may open a
group and a list of values, and the same comma may part alternatives and values.
-/

import FilterQuery.Node
import FilterQuery.Operator.Registry
import FilterQuery.Token

namespace FilterQuery.Grammar

/-! ## Phrases -/

/-- A value, without quotes or in quotes. -/
inductive Operand where
  | bare (text : String)
  | quoted (text : String)
  deriving Repr, DecidableEq

/-- Values between commas. -/
inductive Operands where
  | last (v : Operand)
  | comma (v : Operand) (rest : Operands)
  deriving Repr, DecidableEq

/-- What stands behind a comparison symbol: a value, or values in parentheses. -/
inductive RightSide where
  | value (v : Operand)
  | list (vs : Operands)
  deriving Repr, DecidableEq

/-- A comparison. -/
structure Clause where
  selector : String
  symbol : String
  right : RightSide
  deriving Repr, DecidableEq

mutual

/-- Alternatives between commas. -/
inductive Disjunction where
  | last (p : Conjunction)
  | comma (p : Conjunction) (rest : Disjunction)

/-- Constraints between semicolons. -/
inductive Conjunction where
  | last (p : Constraint)
  | semicolon (p : Constraint) (rest : Conjunction)

/-- A comparison, or alternatives in parentheses. -/
inductive Constraint where
  | group (p : Disjunction)
  | clause (c : Clause)

end

/-! ## The lexemes of a phrase -/

/-- The lexeme of a value. -/
def Operand.lexeme : Operand → Lexeme
  | bare t => .bare t
  | quoted t => .quoted t

/-- The lexemes of values. -/
def Operands.lexemes : Operands → List Lexeme
  | last v => [v.lexeme]
  | comma v rest => v.lexeme :: .or :: rest.lexemes

/-- The lexemes of a right hand side. -/
def RightSide.lexemes : RightSide → List Lexeme
  | value v => [v.lexeme]
  | list vs => .opening :: (vs.lexemes ++ [.closing])

/-- The lexemes of a comparison. -/
def Clause.lexemes (c : Clause) : List Lexeme :=
  .bare c.selector :: .operator c.symbol :: c.right.lexemes

mutual

/-- The lexemes of alternatives. -/
def Disjunction.lexemes : Disjunction → List Lexeme
  | .last p => p.lexemes
  | .comma p rest => p.lexemes ++ .or :: rest.lexemes

/-- The lexemes of constraints. -/
def Conjunction.lexemes : Conjunction → List Lexeme
  | .last p => p.lexemes
  | .semicolon p rest => p.lexemes ++ .and :: rest.lexemes

/-- The lexemes of a constraint. -/
def Constraint.lexemes : Constraint → List Lexeme
  | .group p => .opening :: (p.lexemes ++ [.closing])
  | .clause c => c.lexemes

end

/-! ## Depth and comparisons -/

mutual

/-- How deep groups are nested; lists of values do not count. -/
def Disjunction.depth : Disjunction → Nat
  | .last p => p.depth
  | .comma p rest => max p.depth rest.depth

/-- How deep groups are nested. -/
def Conjunction.depth : Conjunction → Nat
  | .last p => p.depth
  | .semicolon p rest => max p.depth rest.depth

/-- How deep groups are nested. -/
def Constraint.depth : Constraint → Nat
  | .group p => p.depth + 1
  | .clause _ => 0

end

mutual

/-- The comparisons, from left to right. -/
def Disjunction.clauses : Disjunction → List Clause
  | .last p => p.clauses
  | .comma p rest => p.clauses ++ rest.clauses

/-- The comparisons, from left to right. -/
def Conjunction.clauses : Conjunction → List Clause
  | .last p => p.clauses
  | .semicolon p rest => p.clauses ++ rest.clauses

/-- The comparisons, from left to right. -/
def Constraint.clauses : Constraint → List Clause
  | .group p => p.clauses
  | .clause c => [c]

end

/-! ## The tree of a phrase -/

/-- The text of a value. -/
def Operand.text : Operand → String
  | bare t => t
  | quoted t => t

/-- The texts of values, in their order. -/
def Operands.texts : Operands → List String
  | last v => [v.text]
  | comma v rest => v.text :: rest.texts

/-- The arguments that a right hand side gives. -/
def RightSide.texts : RightSide → List String
  | value v => [v.text]
  | list vs => vs.texts

/-- The registry knows the symbol, and an operator that takes one argument has one. -/
def Clause.Fits (r : Registry) (c : Clause) : Prop :=
  ∃ o, r.get? c.symbol = some o ∧ (o.multi = false → c.right.texts.length = 1)

/-- The operator that a symbol stands for; a registry that does not know the symbol gives none,
and then some operator of that name takes its place. -/
def meaning (r : Registry) (symbol : String) : Operator := (r.get? symbol).getD ⟨symbol, [], false⟩

/-- Nodes under one connective; a single one needs none. -/
def collapse (op : Connective) : List Node → Node
  | [n] => n
  | ns => .logical op op ns

/-- The node of a comparison. -/
def Clause.tree (r : Registry) (c : Clause) : Node :=
  .comparison ⟨meaning r c.symbol, c.selector, c.right.texts⟩

mutual

/-- The nodes of alternatives, in their order. -/
def Disjunction.trees (r : Registry) : Disjunction → List Node
  | .last p => [collapse .and (p.trees r)]
  | .comma p rest => collapse .and (p.trees r) :: rest.trees r

/-- The nodes of constraints, in their order. -/
def Conjunction.trees (r : Registry) : Conjunction → List Node
  | .last p => [p.tree r]
  | .semicolon p rest => p.tree r :: rest.trees r

/-- The node of a constraint; a group adds nothing to what stands in it. -/
def Constraint.tree (r : Registry) : Constraint → Node
  | .group p => collapse .or (p.trees r)
  | .clause c => c.tree r

end

/-- The node of constraints. -/
def Conjunction.tree (r : Registry) (p : Conjunction) : Node := collapse .and (p.trees r)

/-- The node of alternatives. -/
def Disjunction.tree (r : Registry) (p : Disjunction) : Node := collapse .or (p.trees r)

/-! ## The grammar is unambiguous -/

theorem Operand.lexeme_inj {v w : Operand} (h : v.lexeme = w.lexeme) : v = w := by
  cases v <;> cases w <;> cases h <;> rfl

theorem Operand.lexeme_ne_opening (v : Operand) : v.lexeme ≠ .opening := by
  cases v <;> exact Lexeme.noConfusion

theorem Operands.lexemes_inj {vs ws : Operands} {xs ys : List Lexeme}
    (h : vs.lexemes ++ .closing :: xs = ws.lexemes ++ .closing :: ys) : vs = ws ∧ xs = ys := by
  induction vs generalizing ws with
  | last v =>
    cases ws with
    | last w =>
      simp only [lexemes, List.cons_append, List.nil_append, List.cons.injEq, true_and] at h
      exact ⟨congrArg last (Operand.lexeme_inj h.1), h.2⟩
    | comma w rest =>
      simp [lexemes] at h
  | comma v rest ih =>
    cases ws with
    | last w =>
      simp [lexemes] at h
    | comma w more =>
      simp only [lexemes, List.cons_append, List.cons.injEq, true_and] at h
      obtain ⟨rfl, rfl⟩ := ih h.2
      exact ⟨congrArg (comma · rest) (Operand.lexeme_inj h.1), rfl⟩

theorem RightSide.lexemes_inj {p q : RightSide} {xs ys : List Lexeme}
    (h : p.lexemes ++ xs = q.lexemes ++ ys) : p = q ∧ xs = ys := by
  cases p with
  | value v =>
    cases q with
    | value w =>
      simp only [lexemes, List.cons_append, List.nil_append, List.cons.injEq] at h
      exact ⟨congrArg value (Operand.lexeme_inj h.1), h.2⟩
    | list ws =>
      simp only [lexemes, List.cons_append, List.nil_append, List.cons.injEq] at h
      exact absurd h.1 v.lexeme_ne_opening
  | list vs =>
    cases q with
    | value w =>
      simp only [lexemes, List.cons_append, List.nil_append, List.cons.injEq] at h
      exact absurd h.1.symm w.lexeme_ne_opening
    | list ws =>
      simp only [lexemes, List.cons_append, List.append_assoc, List.nil_append,
        List.cons.injEq, true_and] at h
      obtain ⟨rfl, rfl⟩ := Operands.lexemes_inj h
      exact ⟨rfl, rfl⟩

theorem Clause.lexemes_inj {c d : Clause} {xs ys : List Lexeme}
    (h : c.lexemes ++ xs = d.lexemes ++ ys) : c = d ∧ xs = ys := by
  obtain ⟨selector, symbol, right⟩ := c
  obtain ⟨selector', symbol', right'⟩ := d
  simp only [lexemes, List.cons_append, List.cons.injEq, Lexeme.bare.injEq,
    Lexeme.operator.injEq] at h
  obtain ⟨rfl, rfl, h⟩ := h
  obtain ⟨rfl, rfl⟩ := RightSide.lexemes_inj h
  exact ⟨rfl, rfl⟩

mutual

/-- Alternatives are determined by their lexemes, with anything behind them that neither a comma
nor a semicolon begins. -/
theorem Disjunction.lexemes_inj {xs ys : List Lexeme} (hx : xs.head? ≠ some .and)
    (hx' : xs.head? ≠ some .or) (hy : ys.head? ≠ some .and) (hy' : ys.head? ≠ some .or) :
    ∀ (p q : Disjunction), p.lexemes ++ xs = q.lexemes ++ ys → p = q ∧ xs = ys
  | .last p, .last q, h => by
    obtain ⟨rfl, rfl⟩ := Conjunction.lexemes_inj hx hy p q h
    exact ⟨rfl, rfl⟩
  | .last p, .comma q rest, h => by
    simp only [Disjunction.lexemes, List.append_assoc, List.cons_append] at h
    obtain ⟨rfl, rfl⟩ := Conjunction.lexemes_inj hx (by simp) p q h
    simp at hx'
  | .comma p rest, .last q, h => by
    simp only [Disjunction.lexemes, List.append_assoc, List.cons_append] at h
    obtain ⟨rfl, rfl⟩ := Conjunction.lexemes_inj (by simp) hy p q h
    simp at hy'
  | .comma p rest, .comma q more, h => by
    simp only [Disjunction.lexemes, List.append_assoc, List.cons_append] at h
    obtain ⟨rfl, hr⟩ := Conjunction.lexemes_inj (by simp) (by simp) p q h
    obtain ⟨rfl, rfl⟩ := Disjunction.lexemes_inj hx hx' hy hy' rest more (List.cons.inj hr).2
    exact ⟨rfl, rfl⟩

/-- Constraints are determined by their lexemes, with anything behind them that no semicolon
begins. -/
theorem Conjunction.lexemes_inj {xs ys : List Lexeme} (hx : xs.head? ≠ some .and)
    (hy : ys.head? ≠ some .and) :
    ∀ (p q : Conjunction), p.lexemes ++ xs = q.lexemes ++ ys → p = q ∧ xs = ys
  | .last p, .last q, h => by
    obtain ⟨rfl, rfl⟩ := Constraint.lexemes_inj p q h
    exact ⟨rfl, rfl⟩
  | .last p, .semicolon q rest, h => by
    simp only [Conjunction.lexemes, List.append_assoc, List.cons_append] at h
    obtain ⟨rfl, rfl⟩ := Constraint.lexemes_inj p q h
    simp at hx
  | .semicolon p rest, .last q, h => by
    simp only [Conjunction.lexemes, List.append_assoc, List.cons_append] at h
    obtain ⟨rfl, rfl⟩ := Constraint.lexemes_inj p q h
    simp at hy
  | .semicolon p rest, .semicolon q more, h => by
    simp only [Conjunction.lexemes, List.append_assoc, List.cons_append] at h
    obtain ⟨rfl, hr⟩ := Constraint.lexemes_inj p q h
    obtain ⟨rfl, rfl⟩ := Conjunction.lexemes_inj hx hy rest more (List.cons.inj hr).2
    exact ⟨rfl, rfl⟩

/-- A constraint is determined by its lexemes, with anything behind them. -/
theorem Constraint.lexemes_inj {xs ys : List Lexeme} :
    ∀ (p q : Constraint), p.lexemes ++ xs = q.lexemes ++ ys → p = q ∧ xs = ys
  | .group p, .group q, h => by
    simp only [Constraint.lexemes, List.cons_append, List.append_assoc, List.nil_append,
      List.cons.injEq, true_and] at h
    obtain ⟨rfl, hr⟩ := Disjunction.lexemes_inj (by simp) (by simp) (by simp) (by simp) p q h
    exact ⟨rfl, (List.cons.inj hr).2⟩
  | .group p, .clause c, h => by
    simp [Constraint.lexemes, Clause.lexemes] at h
  | .clause c, .group q, h => by
    simp [Constraint.lexemes, Clause.lexemes] at h
  | .clause c, .clause d, h => by
    obtain ⟨rfl, rfl⟩ := Clause.lexemes_inj h
    exact ⟨rfl, rfl⟩

end

/-- No two phrases have the same lexemes. -/
theorem Disjunction.eq_of_lexemes_eq {p q : Disjunction} (h : p.lexemes = q.lexemes) : p = q := by
  have happ : p.lexemes ++ [] = q.lexemes ++ [] := by rw [h]
  exact (Disjunction.lexemes_inj (by simp) (by simp) (by simp) (by simp) p q happ).1

end FilterQuery.Grammar
