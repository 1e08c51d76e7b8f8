/-
# FilterQuery.Proofs.Node.Building -- what building a comparison and a tree asks for

The checks of `Comparison.make` come to three conditions on its parts (`make_eq_ok_iff`): the
selector needs no quotes, there is an argument, and an operator that takes one has one. A blank
selector is one that is empty or holds a blank, so the first check adds nothing to the second.

`Node.Built` says of a tree that it has been put together by the two ways of building, with
operators that have been built themselves. So has all that is met on the way down from its root
(`Node.Descends`), and that way is not longer than the tree is high.
-/

import FilterQuery.Node
import FilterQuery.Proofs.Outcome

namespace FilterQuery

open Text

namespace Comparison

theorem reserved_iff (selector : String) :
    selector.toList.find? (fun c => !isUnreserved c) = none ↔
      selector.toList.all isUnreserved = true := by
  simp

theorem isBlankText_of_isBare {selector : String} (h : isBare selector = true) :
    isBlankText selector = false := by
  simp only [isBare, Bool.and_eq_true, Bool.not_eq_true', List.isEmpty_eq_false_iff] at h
  obtain ⟨c, r, hcr⟩ := List.exists_cons_of_ne_nil h.1
  have hc : isUnreserved c = true := by
    have hall := h.2
    rw [hcr] at hall
    exact (Bool.and_eq_true _ _ ▸ hall).1
  simp only [isUnreserved, Bool.and_eq_true, Bool.not_eq_true'] at hc
  simp [isBlankText, hcr, hc.2]

/-- The checks of a comparison, as conditions on its parts. -/
theorem make_eq_ok_iff {o : Operator} {selector : String} {arguments : List String}
    {c : Comparison} :
    make o selector arguments = .ok c ↔
      isBare selector = true ∧ arguments ≠ [] ∧ (o.multi = false → arguments.length = 1) ∧
        c = ⟨o, selector, arguments⟩ := by
  constructor
  · intro h
    rw [make] at h
    split at h
    · cases h
    · rename_i hblank
      split at h
      · cases h
      · rename_i hres
        split at h
        · cases h
        · rename_i hne
          split at h
          · cases h
          · rename_i hcount
            cases h
            refine ⟨?_, by simpa using hne, ?_, rfl⟩
            · rw [reserved_iff] at hres
              -- the empty text is blank, so a text that is not blank is not empty
              have hnil : selector.toList ≠ [] := by
                intro hnil
                exact hblank (by simp [isBlankText, hnil])
              simp [isBare, hres, hnil]
            · intro hm
              simpa [hm] using hcount
  · rintro ⟨hbare, hne, hcount, rfl⟩
    have hblank := isBlankText_of_isBare hbare
    have hres : selector.toList.find? (fun c => !isUnreserved c) = none := by
      rw [reserved_iff]
      exact (Bool.and_eq_true _ _ ▸ hbare).2
    have hempty : arguments.isEmpty = false := by simpa using hne
    have hmulti : (!o.multi && arguments.length != 1) = false := by
      cases hm : o.multi with
      | true => rfl
      | false => simp [hcount hm]
    simp [make, hblank, hres, hempty, hmulti]

/-- With a selector that needs no quotes and an argument, only the number of arguments can be
wrong. -/
theorem eq_argumentCount_of_make {o : Operator} {selector : String} {arguments : List String}
    {f : Failure} (hbare : isBare selector = true) (hne : arguments ≠ [])
    (h : make o selector arguments = .error f) :
    o.multi = false ∧ 2 ≤ arguments.length ∧ f = .argumentCount o.primary arguments.length := by
  have hcount : ¬ (o.multi = false → arguments.length = 1) := by
    intro hcount
    rw [make_eq_ok_iff.2 ⟨hbare, hne, hcount, rfl⟩] at h
    cases h
  obtain ⟨hmulti, hlength⟩ := Classical.not_imp.1 hcount
  have hpos : 0 < arguments.length := List.length_pos_iff.2 hne
  have hres := (reserved_iff selector).2 (Bool.and_eq_true _ _ ▸ hbare).2
  have hcheck : make o selector arguments = .error (.argumentCount o.primary arguments.length) := by
    simp [make, isBlankText_of_isBare hbare, hres, hne, hmulti, hlength]
  rw [hcheck] at h
  cases h
  exact ⟨hmulti, by omega, rfl⟩

end Comparison

namespace Node

theorem compare_eq_ok_iff {o : Operator} {selector : String} {arguments : List String} {n : Node} :
    Node.compare o selector arguments = .ok n ↔
      isBare selector = true ∧ arguments ≠ [] ∧ (o.multi = false → arguments.length = 1) ∧
        n = .comparison ⟨o, selector, arguments⟩ := by
  rw [Node.compare, map_eq_ok_iff]
  constructor
  · rintro ⟨c, hc, rfl⟩
    obtain ⟨hb, hne, hcount, rfl⟩ := Comparison.make_eq_ok_iff.1 hc
    exact ⟨hb, hne, hcount, rfl⟩
  · rintro ⟨hb, hne, hcount, rfl⟩
    exact ⟨_, Comparison.make_eq_ok_iff.2 ⟨hb, hne, hcount, rfl⟩, rfl⟩

theorem comparisonsAll_eq_flatMap (ns : List Node) :
    comparisonsAll ns = ns.flatMap comparisons := by
  induction ns with
  | nil => rfl
  | cons n r ih => rw [comparisonsAll, ih, List.flatMap_cons]

theorem mem_comparisons_logical {variant op : Connective} {children : List Node}
    {c : Comparison} :
    c ∈ (logical variant op children).comparisons ↔ ∃ m ∈ children, c ∈ m.comparisons := by
  rw [comparisons, comparisonsAll_eq_flatMap, List.mem_flatMap]

/-- Joining asks for a child, and wraps what is more than one. The connective becomes the variant of
the node as well as its operator. -/
theorem join_eq_ok_iff {op : Connective} {children : List Node} {n : Node} :
    Node.join op children = .ok n ↔
      children = [n] ∨ 2 ≤ children.length ∧ n = .logical op op children := by
  match children with
  | [] => simp [Node.join]
  | [m] => simp [Node.join]
  | m :: m' :: r => simp [Node.join, joined_eq, eq_comm]

/-- A tree that has been built from comparisons by joining. -/
inductive Built : Node → Prop
  | comparison {symbols : List String} {multi : Bool} {o : Operator} {selector : String}
      {arguments : List String} {c : Comparison} :
      Operator.ofSymbols symbols multi = .ok o → Comparison.make o selector arguments = .ok c →
      Built (.comparison c)
  | join {op : Connective} {children : List Node} {n : Node} :
      (∀ m ∈ children, Built m) → Node.join op children = .ok n → Built n

theorem Built.pair (op : Connective) {l r : Node} (hl : l.Built) (hr : r.Built) :
    Built (.logical op op [l, r]) := by
  have hall : ∀ m ∈ [l, r], Built m := by simp [hl, hr]
  exact .join hall (join_eq_ok_iff.2 (.inr ⟨Nat.le_refl 2, rfl⟩))

/-- A logical node that has been built is of the variant that goes with its operator. -/
theorem Built.variant_eq {n : Node} (h : n.Built) :
    ∀ variant op children, n = .logical variant op children → variant = op := by
  induction h with
  | comparison _ _ =>
    intro variant op children hn
    cases hn
  | join _ hjoin ih =>
    intro variant op children hn
    rcases join_eq_ok_iff.1 hjoin with rfl | ⟨-, rfl⟩
    · -- one child alone is the node itself
      exact ih _ List.mem_cons_self variant op children hn
    · cases hn
      rfl

/-- A logical node that has been built has two children at least, and they have been built. -/
theorem Built.children {n : Node} (h : n.Built) :
    ∀ variant op children, n = .logical variant op children →
      2 ≤ children.length ∧ ∀ m ∈ children, Built m := by
  induction h with
  | comparison _ _ =>
    intro variant op children hn
    cases hn
  | join hbuilt hjoin ih =>
    intro variant op children hn
    rcases join_eq_ok_iff.1 hjoin with rfl | ⟨hlength, rfl⟩
    · exact ih _ List.mem_cons_self variant op children hn
    · cases hn
      exact ⟨hlength, hbuilt⟩

/-- The comparisons of a tree that has been built have been built. -/
theorem Built.of_mem_comparisons {n : Node} (h : n.Built) :
    ∀ c ∈ n.comparisons, Built (.comparison c) := by
  induction h with
  | comparison ho hc =>
    intro c h
    rw [List.mem_singleton.1 h]
    exact .comparison ho hc
  | join _ hjoin ih =>
    intro c h
    rcases join_eq_ok_iff.1 hjoin with rfl | ⟨-, rfl⟩
    · exact ih _ List.mem_cons_self c h
    · obtain ⟨m, hm, h⟩ := mem_comparisons_logical.1 h
      exact ih m hm c h

/-- All symbols of an operator that has been built are comparison symbols. -/
theorem isSymbol_of_ofSymbols {symbols : List String} {multi : Bool} {o : Operator}
    (h : Operator.ofSymbols symbols multi = .ok o) : ∀ s ∈ o.symbols, isSymbol s = true := by
  match symbols with
  | [] => cases h
  | s :: r =>
    rw [Operator.ofSymbols] at h
    split at h
    · cases h
    · rename_i hfind
      cases h
      intro t ht
      simpa using List.find?_eq_none.1 hfind t ht

/-- A comparison that has been built has been made, with an operator that has been built. -/
theorem Built.made {n : Node} (h : n.Built) : ∀ c, n = .comparison c →
    (∃ symbols multi, Operator.ofSymbols symbols multi = .ok c.operator) ∧
      Comparison.make c.operator c.selector c.arguments = .ok c := by
  induction h with
  | comparison ho hc =>
    intro c hn
    cases hn
    obtain ⟨-, -, -, rfl⟩ := Comparison.make_eq_ok_iff.1 hc
    exact ⟨⟨_, _, ho⟩, hc⟩
  | join _ hjoin ih =>
    intro c hn
    rcases join_eq_ok_iff.1 hjoin with rfl | ⟨-, rfl⟩
    · exact ih _ List.mem_cons_self c hn
    · cases hn

/-- The parts of a comparison that has been built. -/
theorem Built.parts {n : Node} (h : n.Built) :
    ∀ c, n = .comparison c → isSymbol c.operator.primary = true ∧ isBare c.selector = true ∧
      c.arguments ≠ [] ∧ (c.operator.multi = false → c.arguments.length = 1) := by
  intro c hn
  obtain ⟨⟨symbols, multi, ho⟩, hc⟩ := h.made c hn
  obtain ⟨hbare, hne, hcount, -⟩ := Comparison.make_eq_ok_iff.1 hc
  exact ⟨isSymbol_of_ofSymbols ho _ List.mem_cons_self, hbare, hne, hcount⟩

/-! ## Going down a tree -/

/-- From the first node one comes to the second by going so many times to a child. -/
inductive Descends : Nat → Node → Node → Prop
  | here (n : Node) : Descends 0 n n
  | child {k : Nat} {variant op : Connective} {children : List Node} {m n : Node} :
      m ∈ children → Descends k m n → Descends (k + 1) (.logical variant op children) n

theorem height_le_heightAll {m : Node} {ns : List Node} (h : m ∈ ns) :
    m.height ≤ heightAll ns := by
  induction ns with
  | nil => cases h
  | cons n r ih =>
    rw [heightAll]
    rcases List.mem_cons.1 h with rfl | h
    · exact Nat.le_max_left _ _
    · exact Nat.le_trans (ih h) (Nat.le_max_right _ _)

/-- One cannot go down further than the tree is high. -/
theorem Descends.le_height {k : Nat} {m n : Node} (h : Descends k n m) : k ≤ n.height := by
  induction h with
  | here n => exact Nat.zero_le _
  | child hm _ ih =>
    rw [height]
    exact Nat.succ_le_succ (Nat.le_trans ih (height_le_heightAll hm))

/-- Whatever one comes to in a tree that has been built has been built. -/
theorem Descends.built {k : Nat} {m n : Node} (h : Descends k n m) (hn : n.Built) : m.Built := by
  induction h with
  | here n => exact hn
  | child hm _ ih => exact ih ((hn.children _ _ _ rfl).2 _ hm)

end Node

end FilterQuery
