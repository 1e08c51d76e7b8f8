/-
# FilterQuery.Proofs.Language.Canonical -- the phrase of canonical text

Canonical text writes a tree as one constraint (`Node.phrase`): a comparison as it is, a logical
node as a group whose members are the phrases of its children. The members of an "or" stand
between commas, those of an "and" are one alternative with semicolons in it, so every logical node
opens exactly one group, and groups nest as deep as the tree is high (`depth_phrase`).

A registry gives the tree back if it knows the primary symbol of each comparison for an operator
with that primary symbol, and this takes as many arguments as there are (`Node.Readable`).
-/

import FilterQuery.Proofs.Language.Phrase
import FilterQuery.Proofs.Node.Building

namespace FilterQuery

open Text Grammar

/-! ## Chains of constraints -/

namespace Grammar

/-- A chain of a first member and more, from what makes one of the last member and what puts a
member in front. -/
def chain {α β : Type} (last : α → β) (link : α → β → β) (a : α) : List α → β
  | [] => last a
  | b :: r => link a (chain last link b r)

/-- What is told of the last member and of each link is told of the chain. -/
theorem map_chain {α β γ : Type} {last : α → β} {link : α → β → β} (view : β → γ)
    {last' : α → γ} {link' : α → γ → γ} (hlast : ∀ a, view (last a) = last' a)
    (hlink : ∀ a x, view (link a x) = link' a (view x)) (a : α) (as : List α) :
    view (chain last link a as) = chain last' link' a as := by
  induction as generalizing a with
  | nil => exact hlast a
  | cons b r ih => rw [chain, hlink, ih, chain]

/-- Constraints between semicolons. -/
def Conjunction.ofList (p : Constraint) (ps : List Constraint) : Conjunction :=
  chain .last .semicolon p ps

/-- Alternatives of one constraint each. -/
def Disjunction.ofList (p : Constraint) (ps : List Constraint) : Disjunction :=
  chain (fun p => .last (.last p)) (fun p => .comma (.last p)) p ps

/-- What a group of joined constraints holds. -/
def Disjunction.joined (op : Connective) (p : Constraint) (ps : List Constraint) : Disjunction :=
  match op with
  | .and => .last (.ofList p ps)
  | .or => .ofList p ps

/-- The lexeme between joined constraints. -/
def separator : Connective → Lexeme
  | .and => .and
  | .or => .or

/-- The greatest depth of constraints. -/
def depthAll : List Constraint → Nat
  | [] => 0
  | p :: r => max p.depth (depthAll r)

theorem chain_separated {α γ : Type} (f : α → List γ) (x : γ) (a : α) (as : List α) :
    chain f (fun b cs => f b ++ x :: cs) a as = f a ++ as.flatMap fun b => x :: f b := by
  induction as generalizing a with
  | nil => exact (List.append_nil _).symm
  | cons b r ih => rw [chain, ih, List.flatMap_cons, List.cons_append]

theorem chain_append {α γ : Type} (f : α → List γ) (a : α) (as : List α) :
    chain f (fun b cs => f b ++ cs) a as = (a :: as).flatMap f := by
  induction as generalizing a with
  | nil => exact (List.append_nil _).symm
  | cons b r ih =>
    rw [chain, ih]
    rfl

theorem chain_max (p : Constraint) (ps : List Constraint) :
    chain Constraint.depth (fun q n => max q.depth n) p ps = depthAll (p :: ps) := by
  induction ps generalizing p with
  | nil => exact (Nat.max_zero _).symm
  | cons q r ih =>
    rw [chain, ih]
    rfl

theorem chain_cons {α γ : Type} (f : α → γ) (a : α) (as : List α) :
    chain (fun b => [f b]) (fun b cs => f b :: cs) a as = (a :: as).map f := by
  induction as generalizing a with
  | nil => rfl
  | cons b r ih =>
    rw [chain, ih]
    rfl

namespace Disjunction

variable (op : Connective) (p : Constraint) (ps : List Constraint)

theorem lexemes_joined :
    (joined op p ps).lexemes = p.lexemes ++ ps.flatMap fun q => separator op :: q.lexemes := by
  rw [← chain_separated]
  cases op with
  | and => exact map_chain Conjunction.lexemes (fun _ => rfl) (fun _ _ => rfl) p ps
  | or => exact map_chain Disjunction.lexemes (fun _ => rfl) (fun _ _ => rfl) p ps

theorem depth_joined : (joined op p ps).depth = depthAll (p :: ps) := by
  rw [← chain_max]
  cases op with
  | and => exact map_chain Conjunction.depth (fun _ => rfl) (fun _ _ => rfl) p ps
  | or => exact map_chain Disjunction.depth (fun _ => rfl) (fun _ _ => rfl) p ps

theorem clauses_joined : (joined op p ps).clauses = (p :: ps).flatMap Constraint.clauses := by
  rw [← chain_append]
  cases op with
  | and => exact map_chain Conjunction.clauses (fun _ => rfl) (fun _ _ => rfl) p ps
  | or => exact map_chain Disjunction.clauses (fun _ => rfl) (fun _ _ => rfl) p ps

/-- Joined constraints stand for their trees under that connective. -/
theorem tree_joined (r : Registry) :
    (joined op p ps).tree r = collapse op ((p :: ps).map (·.tree r)) := by
  rw [← chain_cons]
  cases op with
  | and =>
    exact congrArg (collapse .and)
      (map_chain (Conjunction.trees r) (fun _ => rfl) (fun _ _ => rfl) p ps)
  | or =>
    exact congrArg (collapse .or)
      (map_chain (Disjunction.trees r) (fun _ => rfl) (fun _ _ => rfl) p ps)

end Disjunction

/-! ## The phrase of a comparison -/

/-- Values in quotes. -/
def Operands.ofTexts (s : String) : List String → Operands
  | [] => .last (.quoted s)
  | t :: r => .comma (.quoted s) (ofTexts t r)

theorem Operands.texts_ofTexts (s : String) (r : List String) : (ofTexts s r).texts = s :: r := by
  induction r generalizing s with
  | nil => rfl
  | cons t r ih =>
    rw [ofTexts, texts, ih]
    rfl

end Grammar

namespace Comparison

/-- What canonical text has behind the operator. A comparison has an argument; the text without
one is there for those that have not been built. -/
def rightSide (c : Comparison) : RightSide :=
  match c.arguments with
  | [] => .value (.quoted "")
  | a :: r =>
    if c.operator.multi then .list (.ofTexts a r)
    else .value (if isBare a then .bare a else .quoted a)

/-- The comparison as canonical text has it. -/
def clause (c : Comparison) : Clause := ⟨c.selector, c.operator.primary, c.rightSide⟩

theorem texts_rightSide {c : Comparison} (hne : c.arguments ≠ [])
    (hcount : c.operator.multi = false → c.arguments.length = 1) :
    c.rightSide.texts = c.arguments := by
  obtain ⟨o, selector, arguments⟩ := c
  obtain ⟨a, r, rfl⟩ := List.exists_cons_of_ne_nil hne
  cases hm : o.multi with
  | true =>
    rw [rightSide]
    simp only [hm, if_true]
    exact Operands.texts_ofTexts a r
  | false =>
    obtain rfl : r = [] := by simpa using hcount hm
    rw [rightSide]
    simp only [hm, Bool.false_eq_true, if_false]
    split <;> rfl

end Comparison

/-! ## The phrase of a tree -/

namespace Node

mutual

/-- The constraint that canonical text writes for a tree. A logical node has children; the group
without any is there for those that have not been built. -/
def phrase : Node → Constraint
  | comparison c => .clause c.clause
  | logical _ op children =>
    match phrases children with
    | [] => .group (.last (.last (.clause ⟨"", "", .value (.quoted "")⟩)))
    | p :: ps => .group (.joined op p ps)

/-- The constraints of the children. -/
def phrases : List Node → List Constraint
  | [] => []
  | n :: r => phrase n :: phrases r

end

mutual

/-- Groups nest as deep as the tree is high. -/
theorem depth_phrase : ∀ n : Node, n.phrase.depth = n.height
  | comparison _ => rfl
  | logical _ op children => by
    rw [height, ← depthAll_phrases children, phrase]
    cases phrases children with
    | nil => rfl
    | cons p ps =>
      show (Disjunction.joined op p ps).depth + 1 = _
      rw [Disjunction.depth_joined]

theorem depthAll_phrases : ∀ ns : List Node, depthAll (phrases ns) = heightAll ns
  | [] => rfl
  | n :: r => by
    rw [phrases, depthAll, heightAll, depth_phrase n, depthAll_phrases r]

end

mutual

/-- The comparisons of the phrase are those of the tree. -/
theorem clauses_phrase : ∀ n : Node, n.Built → n.phrase.clauses = n.comparisons.map (·.clause)
  | comparison _, _ => rfl
  | logical variant op children, h => by
    obtain ⟨hlength, hbuilt⟩ := h.children variant op children rfl
    have hchildren := clauses_phrases children hbuilt
    rw [comparisons, ← hchildren, phrase]
    match children, hlength with
    | n :: r, _ =>
      rw [phrases]
      exact Disjunction.clauses_joined op n.phrase (phrases r)

theorem clauses_phrases : ∀ ns : List Node, (∀ m ∈ ns, Built m) →
    (phrases ns).flatMap Constraint.clauses = (comparisonsAll ns).map (·.clause)
  | [], _ => rfl
  | n :: r, h => by
    have hn := clauses_phrase n (h n List.mem_cons_self)
    have hr := clauses_phrases r fun m hm => h m (List.mem_cons_of_mem n hm)
    rw [phrases, List.flatMap_cons, hn, hr, comparisonsAll, List.map_append]

end

/-- The registry knows the primary symbol of each comparison for an operator with that primary
symbol, which takes as many arguments as the comparison has. -/
def Readable (r : Registry) (n : Node) : Prop :=
  ∀ c ∈ n.comparisons, ∃ o, r.get? c.operator.primary = some o ∧
    o.primary = c.operator.primary ∧ (o.multi = false → c.arguments.length = 1)

theorem Readable.child {r : Registry} {variant op : Connective} {children : List Node} {m : Node}
    (h : Readable r (logical variant op children)) (hm : m ∈ children) : Readable r m :=
  fun c hc => h c (mem_comparisons_logical.2 ⟨m, hm, hc⟩)

/-- The comparisons of a readable tree fit the registry. -/
theorem fits_of_readable {r : Registry} {n : Node} (hn : n.Built) (hr : n.Readable r) :
    ∀ c ∈ n.phrase.clauses, c.Fits r := by
  intro c hc
  rw [clauses_phrase n hn] at hc
  obtain ⟨b, hb, rfl⟩ := List.mem_map.1 hc
  obtain ⟨o, ho, -, hcount⟩ := hr b hb
  obtain ⟨-, -, hne, hsingle⟩ := (hn.of_mem_comparisons b hb).parts b rfl
  refine ⟨o, ho, ?_⟩
  show o.multi = false → b.rightSide.texts.length = 1
  rwa [Comparison.texts_rightSide hne hsingle]

mutual

/-- A readable tree is what its phrase stands for. -/
theorem same_tree_phrase {r : Registry} : ∀ n : Node, n.Built → n.Readable r →
    same (n.phrase.tree r) n = true
  | comparison c, h, hr => by
    obtain ⟨-, -, hne, hcount⟩ := h.parts c rfl
    obtain ⟨o, ho, hprimary, -⟩ := hr c (by simp [comparisons])
    show same (c.clause.tree r) (comparison c) = true
    rw [Clause.tree, Comparison.clause, meaning]
    simp only [ho, Option.getD_some, Comparison.texts_rightSide hne hcount, same]
    show (o == c.operator && c.selector == c.selector && c.arguments == c.arguments) = true
    rw [Operator.beq_iff.2 hprimary]
    simp
  | logical variant op children, h, hr => by
    obtain ⟨hlength, hbuilt⟩ := h.children variant op children rfl
    have hvariant := h.variant_eq variant op children rfl
    have hsame := sameAll_trees_phrases children hbuilt fun m hm => hr.child hm
    -- two children at least, so collapsing keeps the connective
    match children, hlength with
    | n :: m :: rest, _ =>
      rw [phrase, phrases, phrases]
      show same ((Disjunction.joined op n.phrase (m.phrase :: phrases rest)).tree r) _ = true
      rw [Disjunction.tree_joined]
      show (op == variant && op == op && sameAll _ _) = true
      rw [hvariant, beq_self_eq_true, Bool.true_and, Bool.true_and]
      exact hsame

theorem sameAll_trees_phrases {r : Registry} : ∀ ns : List Node, (∀ m ∈ ns, Built m) →
    (∀ m ∈ ns, Readable r m) → sameAll ((phrases ns).map (·.tree r)) ns = true
  | [], _, _ => rfl
  | n :: rest, h, hr => by
    have hn := same_tree_phrase n (h n List.mem_cons_self) (hr n List.mem_cons_self)
    have hrest := sameAll_trees_phrases rest (fun m hm => h m (List.mem_cons_of_mem n hm))
      fun m hm => hr m (List.mem_cons_of_mem n hm)
    show (same (n.phrase.tree r) n && sameAll _ rest) = true
    rw [hn, hrest]
    rfl

end

end Node

end FilterQuery
