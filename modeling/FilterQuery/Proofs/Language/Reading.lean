/-
# FilterQuery.Proofs.Language.Reading -- phrases are read

A phrase whose comparisons are accepted takes the reading machine from a state that wants a
constraint to the state in which the phrase has ended with its tree, if its groups have room in
the groups that are open (`Constraint.reaches`); if they have not, reading fails at the
parenthesis that is one too many, and nothing before it can fail (`Constraint.fails`). Together
the two decide what becomes of the lexemes of any phrase.
-/

import FilterQuery.Proofs.Language.Moves
import FilterQuery.Proofs.Language.Phrase

namespace FilterQuery.Grammar

open Dialect Dialect.State

/-! ## Nodes that are collected from the back -/

theorem collapse_of_two (op : Connective) {ns : List Node} (h : 2 ≤ ns.length) :
    collapse op ns = .logical op op ns := by
  match ns, h with
  | _ :: _ :: _, _ => rfl

theorem gather_eq_collapse (op : Connective) (last : Node) (before : List Node) :
    Node.gather op last before = collapse op (last :: before).reverse := by
  cases before with
  | nil => rfl
  | cons n r =>
    rw [collapse_of_two op (by simp)]
    exact Node.joined_eq op _

theorem Frame.finish_eq (f : Frame) (n : Node) :
    f.finish n = collapse .or (f.disjuncts.reverse ++ [Node.gather .and n f.conjuncts]) := by
  rw [Frame.finish, gather_eq_collapse, List.reverse_cons]

/-! ## Values and comparisons -/

variable {d : Dialect} {outer : List Frame} {frame : Frame} {s o : String}

theorem Operands.reaches (vs : Operands) (before : List String) :
    Reaches d ⟨outer, frame, .element s o before, none⟩ vs.lexemes
      ⟨outer, frame, .separator s o (vs.texts.reverse ++ before), none⟩ := by
  induction vs generalizing before with
  | last v =>
    cases v with
    | bare t => exact (Move.bareElement t).reaches rfl
    | quoted t => exact (Move.quotedElement t).reaches rfl
  | comma v rest ih =>
    have hrest := ih (v.text :: before)
    rw [← List.singleton_append, ← List.append_assoc, ← List.reverse_cons] at hrest
    cases v with
    | bare t =>
      exact (Move.bareElement t).reaches_cons (Move.nextElement.reaches_cons hrest rfl) rfl
    | quoted t =>
      exact (Move.quotedElement t).reaches_cons (Move.nextElement.reaches_cons hrest rfl) rfl

/-- The dialect builds the comparison, and builds it as the phrase has it. -/
def Clause.Accepted (d : Dialect) (c : Clause) : Prop :=
  d.compare c.symbol c.selector c.right.texts = .ok (c.tree d.operators)

theorem RightSide.texts_ne_nil (p : RightSide) : p.texts ≠ [] := by
  cases p with
  | value v => simp [texts]
  | list vs => cases vs <;> simp [texts, Operands.texts]

/-- A comparison is accepted when its selector needs no quotes and it fits the operators. -/
theorem Clause.accepted_of_fits {c : Clause} (hs : Text.isBare c.selector = true)
    (hf : c.Fits d.operators) : c.Accepted d := by
  obtain ⟨o, ho, hc⟩ := hf
  rw [Accepted, Dialect.compare, ho, tree, meaning, ho]
  exact Node.compare_eq_ok_iff.2 ⟨hs, c.right.texts_ne_nil, hc, rfl⟩

theorem Clause.settle_compared {c : Clause} (h : c.Accepted d) :
    State.settle d ⟨outer, frame, .compared c.selector c.symbol c.right.texts, none⟩ =
      .ok ⟨outer, frame, .ended (c.tree d.operators), none⟩ :=
  settle_of_compared rfl h

theorem Clause.reaches {c : Clause} (h : c.Accepted d) :
    Reaches d ⟨outer, frame, .constraint, none⟩ c.lexemes
      ⟨outer, frame, .ended (c.tree d.operators), none⟩ := by
  obtain ⟨selector, symbol, right⟩ := c
  refine (Move.selector selector).reaches_cons ((Move.symbol symbol).reaches_cons ?_ rfl) rfl
  cases right with
  | value v =>
    cases v with
    | bare t => exact (Move.bareValue t).reaches (settle_compared h)
    | quoted t => exact (Move.quotedValue t).reaches (settle_compared h)
  | list vs =>
    refine Move.openList.reaches_cons ((vs.reaches []).append ?_) rfl
    rw [List.append_nil]
    refine Move.closeList.reaches ?_
    rw [List.reverse_reverse]
    exact settle_compared h

/-! ## Phrases within the limit -/

mutual

/-- Alternatives end in a frame that gives their nodes behind those it had. -/
theorem Disjunction.reaches : ∀ (p : Disjunction) (outer : List Frame) (ns : List Node),
    (∀ c ∈ p.clauses, c.Accepted d) → outer.length + p.depth ≤ d.maxDepth →
      ∃ f n, Frame.finish f n = collapse .or (ns.reverse ++ p.trees d.operators) ∧
        Reaches d ⟨outer, ⟨ns, []⟩, .constraint, none⟩ p.lexemes ⟨outer, f, .ended n, none⟩
  | .last p, outer, ns, hc, hd => by
    obtain ⟨f, n, hf, hn, hr⟩ := Conjunction.reaches p outer ⟨ns, []⟩ hc hd
    refine ⟨f, n, ?_, hr⟩
    rw [Frame.finish_eq, hf, hn]
    rfl
  | .comma p rest, outer, ns, hc, hd => by
    simp only [Disjunction.clauses, List.mem_append] at hc
    simp only [Disjunction.depth] at hd
    obtain ⟨f, n, hf, hn, hr⟩ := Conjunction.reaches p outer ⟨ns, []⟩
      (fun c h => hc c (.inl h)) (by omega)
    obtain ⟨g, m, hg, hr'⟩ := Disjunction.reaches rest outer
      (collapse .and (p.trees d.operators) :: ns) (fun c h => hc c (.inr h)) (by omega)
    -- the comma puts the finished alternative in front of those before it
    have hcomma : f.comma n = ⟨collapse .and (p.trees d.operators) :: ns, []⟩ := by
      rw [Frame.comma, hn, hf]
      rfl
    refine ⟨g, m, ?_, hr.append (Move.comma.reaches_cons (hcomma ▸ hr') rfl)⟩
    rw [hg, List.reverse_cons, List.append_assoc]
    rfl

/-- Constraints end in a frame with the same finished alternatives. -/
theorem Conjunction.reaches : ∀ (p : Conjunction) (outer : List Frame) (frame : Frame),
    (∀ c ∈ p.clauses, c.Accepted d) → outer.length + p.depth ≤ d.maxDepth →
      ∃ f n, f.disjuncts = frame.disjuncts ∧
        Node.gather .and n f.conjuncts =
          collapse .and (frame.conjuncts.reverse ++ p.trees d.operators) ∧
        Reaches d ⟨outer, frame, .constraint, none⟩ p.lexemes ⟨outer, f, .ended n, none⟩
  | .last p, outer, frame, hc, hd => by
    refine ⟨frame, p.tree d.operators, rfl, ?_, Constraint.reaches p outer frame hc hd⟩
    rw [gather_eq_collapse, List.reverse_cons]
    rfl
  | .semicolon p rest, outer, frame, hc, hd => by
    simp only [Conjunction.clauses, List.mem_append] at hc
    simp only [Conjunction.depth] at hd
    have hr := Constraint.reaches p outer frame (fun c h => hc c (.inl h)) (by omega)
    obtain ⟨f, n, hf, hn, hr'⟩ := Conjunction.reaches rest outer
      (frame.semicolon (p.tree d.operators)) (fun c h => hc c (.inr h)) (by omega)
    refine ⟨f, n, hf, ?_, hr.append (Move.semicolon.reaches_cons hr' rfl)⟩
    rw [hn, Frame.semicolon, List.reverse_cons, List.append_assoc]
    rfl

/-- A constraint with room for its groups is read, and ends with its tree. -/
theorem Constraint.reaches : ∀ (p : Constraint) (outer : List Frame) (frame : Frame),
    (∀ c ∈ p.clauses, c.Accepted d) → outer.length + p.depth ≤ d.maxDepth →
      Reaches d ⟨outer, frame, .constraint, none⟩ p.lexemes
        ⟨outer, frame, .ended (p.tree d.operators), none⟩
  | .group p, outer, frame, hc, hd => by
    simp only [Constraint.depth] at hd
    obtain ⟨f, n, hf, hr⟩ := Disjunction.reaches p (frame :: outer) [] hc
      (by rw [List.length_cons]; omega)
    -- the group is read in a frame of its own, one level deeper
    have hopen : Move d ⟨outer, frame, .constraint, none⟩ .opening
        ⟨frame :: outer, .empty, .constraint, none⟩ := .openGroup (by omega)
    have hclose : Move d ⟨frame :: outer, f, .ended n, none⟩ .closing
        ⟨outer, frame, .ended (f.finish n), none⟩ := .closeGroup rfl
    rw [hf] at hclose
    exact hopen.reaches_cons (hr.append (hclose.reaches rfl)) rfl
  | .clause c, outer, frame, hc, _ => Clause.reaches (hc c (by simp [Constraint.clauses]))

end

/-! ## Phrases beyond the limit -/

/-- The failure that a parenthesis opens one group too many. -/
def TooDeep (d : Dialect) (f : Failure) : Prop :=
  ∃ last line column,
    f = .unexpected [s!"at most {d.maxDepth} nested groups"] "'('" last line column

theorem fails_opening (h : d.maxDepth ≤ outer.length) (ls : List Lexeme) :
    Fails d ⟨outer, frame, .constraint, none⟩ (.opening :: ls) (TooDeep d) := by
  intro last ts hts
  obtain ⟨t, ts, rfl, ht, -⟩ := List.map_eq_cons_iff.1 hts
  obtain ⟨lexeme, start⟩ := t
  cases ht
  refine ⟨State.unexpected ⟨outer, frame, .constraint, last⟩ ⟨.opening, start⟩
    [s!"at most {d.maxDepth} nested groups"], ?_, _, _, _, rfl⟩
  rw [take_cons, feed_eq]
  show (State.openGroup d ⟨outer, frame, .constraint, last⟩ ⟨.opening, start⟩ >>= _) >>= _ = _
  rw [State.openGroup, if_neg (Nat.not_lt.2 h)]
  rfl

mutual

/-- Alternatives without room for their groups are read up to a parenthesis that is too many. -/
theorem Disjunction.fails : ∀ (p : Disjunction) (outer : List Frame) (ns : List Node),
    (∀ c ∈ p.clauses, c.Accepted d) → outer.length ≤ d.maxDepth →
      d.maxDepth < outer.length + p.depth →
        Fails d ⟨outer, ⟨ns, []⟩, .constraint, none⟩ p.lexemes (TooDeep d)
  | .last p, outer, ns, hc, ho, hd => Conjunction.fails p outer ⟨ns, []⟩ hc ho hd
  | .comma p rest, outer, ns, hc, ho, hd => by
    simp only [Disjunction.clauses, List.mem_append] at hc
    simp only [Disjunction.depth] at hd
    by_cases hp : outer.length + p.depth ≤ d.maxDepth
    · -- the first alternative has room, so a later one has not
      obtain ⟨f, n, hf, hn, hr⟩ := Conjunction.reaches p outer ⟨ns, []⟩
        (fun c h => hc c (.inl h)) hp
      have hrest := Disjunction.fails rest outer (Node.gather .and n f.conjuncts :: f.disjuncts)
        (fun c h => hc c (.inr h)) ho (by omega)
      exact hr.fails (Move.comma.fails_cons hrest rfl)
    · exact (Conjunction.fails p outer ⟨ns, []⟩ (fun c h => hc c (.inl h)) ho (by omega)).append _

/-- Constraints without room for their groups are read up to a parenthesis that is too many. -/
theorem Conjunction.fails : ∀ (p : Conjunction) (outer : List Frame) (frame : Frame),
    (∀ c ∈ p.clauses, c.Accepted d) → outer.length ≤ d.maxDepth →
      d.maxDepth < outer.length + p.depth →
        Fails d ⟨outer, frame, .constraint, none⟩ p.lexemes (TooDeep d)
  | .last p, outer, frame, hc, ho, hd => Constraint.fails p outer frame hc ho hd
  | .semicolon p rest, outer, frame, hc, ho, hd => by
    simp only [Conjunction.clauses, List.mem_append] at hc
    simp only [Conjunction.depth] at hd
    by_cases hp : outer.length + p.depth ≤ d.maxDepth
    · have hr := Constraint.reaches p outer frame (fun c h => hc c (.inl h)) hp
      have hrest := Conjunction.fails rest outer (frame.semicolon (p.tree d.operators))
        (fun c h => hc c (.inr h)) ho (by omega)
      exact hr.fails (Move.semicolon.fails_cons hrest rfl)
    · exact (Constraint.fails p outer frame (fun c h => hc c (.inl h)) ho (by omega)).append _

/-- A constraint without room for its groups is read up to a parenthesis that is too many. -/
theorem Constraint.fails : ∀ (p : Constraint) (outer : List Frame) (frame : Frame),
    (∀ c ∈ p.clauses, c.Accepted d) → outer.length ≤ d.maxDepth →
      d.maxDepth < outer.length + p.depth →
        Fails d ⟨outer, frame, .constraint, none⟩ p.lexemes (TooDeep d)
  | .group p, outer, frame, hc, ho, hd => by
    simp only [Constraint.depth] at hd
    by_cases hroom : outer.length < d.maxDepth
    · have hp := Disjunction.fails p (frame :: outer) [] hc
        (by rw [List.length_cons]; omega) (by rw [List.length_cons]; omega)
      exact (Move.openGroup hroom).fails_cons (hp.append _) rfl
    · exact fails_opening (by omega) _
  | .clause c, outer, frame, _, ho, hd => by
    simp only [Constraint.depth] at hd
    omega

end

end FilterQuery.Grammar
