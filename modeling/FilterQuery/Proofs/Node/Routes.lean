/-
# FilterQuery.Proofs.Node.Routes -- nodes, however they have been obtained

There are many ways to obtain a node: building and joining, with an operator or with a symbol of a
dialect, reading a text, changing a part of a node that one has, and taking a node out of a tree
(`Node.Obtained`). They may be combined in any order, and a step that fails gives nothing.

Whoever looks at a node relies on the same facts about it, and none of these ways breaks them
(`Node.Sound`): that a logical node has two children, that a comparison has an argument, that its
operator can be written. Walks go by the variant of a logical node while its text goes by its
operator, so it matters that no way makes the two differ (`Built.variant_eq`). All ways come down to
building and joining (`Obtained.built`), so the facts are proved of what has been built.

Reading makes no use of most of what building refuses: of these refusals the only one that a text
can meet is that of a list for an operator with one argument.
-/

import FilterQuery.Node.Walk
import FilterQuery.Proofs.Language.Failures
import FilterQuery.Proofs.Language.Rereading
import FilterQuery.Proofs.Operator.Reachable

namespace FilterQuery

open Text

/-! ## What is relied upon -/

/-- What can be relied upon in a comparison. -/
structure Comparison.Sound (c : Comparison) : Prop where
  selector_ne : c.selector ≠ ""
  selector : ∀ x ∈ c.selector.toList, isUnreserved x = true
  arguments : c.arguments ≠ []
  single : c.operator.multi = false → c.arguments.length = 1
  symbols_ne : c.operator.symbols ≠ []
  symbols : ∀ s ∈ c.operator.symbols, isSymbol s = true

namespace Node

/-- The node is visited as one that joins these children by `op`, and is written as such a one. -/
structure Joins (n : Node) (op : Connective) (children : List Node) : Prop where
  visited : ∀ path, ∃ below, n.walk path = .logical path op children.length :: below
  written : n.render = "(" ++ String.intercalate op.symbol (children.map render) ++ ")"

/-- What can be relied upon in a node: a comparison is sound, and a logical node has two children at
least and is of the variant that goes with its operator, so that it is visited as it is written. -/
structure Sound (n : Node) : Prop where
  comparison : ∀ c, n = .comparison c → c.Sound
  children : ∀ op children, n.children? = some (op, children) → 2 ≤ children.length
  variant : ∀ variant op children, n = .logical variant op children → variant = op
  connective : ∀ op children, n.children? = some (op, children) → n.Joins op children

theorem render_append_renderMore (op : Connective) (n : Node) (r : List Node) :
    n.render ++ renderMore op r = String.intercalate op.symbol (n.render :: r.map render) := by
  induction r generalizing n with
  | nil => rw [renderMore, List.map_nil, String.intercalate_singleton, String.append_empty]
  | cons m r ih =>
    rw [renderMore, List.map_cons, String.intercalate_cons_cons, ← ih m, String.append_assoc,
      String.append_assoc]

/-- A node of the variant that goes with its operator joins its children by that. -/
theorem joins_logical (op : Connective) (children : List Node) :
    (logical op op children).Joins op children := by
  refine ⟨fun path => ⟨walkAll path 0 children, rfl⟩, ?_⟩
  rw [render]
  cases children with
  | nil => rfl
  | cons n r => rw [renderAll, render_append_renderMore, List.map_cons]

theorem eq_logical_of_children? {n : Node} {op : Connective} {children : List Node}
    (h : n.children? = some (op, children)) : ∃ variant, n = .logical variant op children := by
  cases n with
  | comparison c => cases h
  | logical variant op' children' =>
    cases h
    exact ⟨variant, rfl⟩

/-- What has been built can be relied upon. -/
theorem Built.sound {n : Node} (h : n.Built) : n.Sound := by
  refine ⟨?_, ?_, h.variant_eq, ?_⟩
  · rintro c rfl
    obtain ⟨hoperator, hmade⟩ := h.made c rfl
    obtain ⟨hbare, hne, hsingle, -⟩ := Comparison.make_eq_ok_iff.1 hmade
    simp only [isBare, Bool.and_eq_true, Bool.not_eq_true', List.isEmpty_eq_false_iff] at hbare
    have hselector : c.selector ≠ "" := by
      intro hempty
      rw [hempty] at hbare
      exact hbare.1 rfl
    exact ⟨hselector, List.all_eq_true.1 hbare.2, hne, hsingle, List.cons_ne_nil _ _,
      Operator.built_iff.1 hoperator⟩
  · intro op children hn
    obtain ⟨variant, hn⟩ := eq_logical_of_children? hn
    exact (h.children variant op children hn).1
  · intro op children hn
    obtain ⟨variant, hn⟩ := eq_logical_of_children? hn
    rw [hn, h.variant_eq variant op children hn]
    exact joins_logical op children

/-! ## Ways to obtain a node -/

/-- The ways to obtain a node: building a comparison with an operator or with a symbol of a dialect,
joining, reading a text, changing a part of what one has, and taking a child out of a tree. -/
inductive Obtained : Node → Prop
  | compare {o : Operator} {selector : String} {arguments : List String} {n : Node} :
      o.Built → Node.compare o selector arguments = .ok n → Obtained n
  | join {op : Connective} {children : List Node} {n : Node} :
      (∀ m ∈ children, Obtained m) → Node.join op children = .ok n → Obtained n
  | symbol {d : Dialect} {symbol selector : String} {arguments : List String} {n : Node} :
      d.operators.Reachable → d.compare symbol selector arguments = .ok n → Obtained n
  | parse {d : Dialect} {text : String} {n : Node} :
      d.operators.Reachable → d.parse text = .ok n → Obtained n
  | withChildren {variant op : Connective} {before children : List Node} {n : Node} :
      Obtained (.logical variant op before) → (∀ m ∈ children, Obtained m) →
        Node.join op children = .ok n → Obtained n
  | withOperator {b c : Comparison} {o : Operator} :
      Obtained (.comparison b) → o.Built → b.withOperator o = .ok c → Obtained (.comparison c)
  | withSelector {b c : Comparison} {selector : String} :
      Obtained (.comparison b) → b.withSelector selector = .ok c → Obtained (.comparison c)
  | withArguments {b c : Comparison} {arguments : List String} :
      Obtained (.comparison b) → b.withArguments arguments = .ok c → Obtained (.comparison c)
  | child {variant op : Connective} {children : List Node} {n : Node} :
      Obtained (.logical variant op children) → n ∈ children → Obtained n

/-- A comparison that has been made with an operator that has been built has been built. -/
theorem built_of_make {o : Operator} {selector : String} {arguments : List String}
    {c : Comparison} (ho : o.Built) (hc : Comparison.make o selector arguments = .ok c) :
    Built (.comparison c) := by
  obtain ⟨symbols, multi, ho⟩ := ho
  exact .comparison ho hc

theorem built_of_compare {o : Operator} {selector : String} {arguments : List String} {n : Node}
    (ho : o.Built) (h : Node.compare o selector arguments = .ok n) : n.Built := by
  rw [Node.compare, map_eq_ok_iff] at h
  obtain ⟨c, hc, rfl⟩ := h
  exact built_of_make ho hc

/-- Each way of obtaining a node is one of building it. -/
theorem Obtained.built {n : Node} (h : n.Obtained) : n.Built := by
  induction h with
  | compare ho hn => exact built_of_compare ho hn
  | join _ hn ih => exact .join ih hn
  | symbol hr hn =>
    rw [Dialect.compare] at hn
    split at hn
    · rename_i o ho
      exact built_of_compare (hr.built _ _ ho) hn
    · cases hn
  | parse hr hn => exact Dialect.built_of_parse hr.built hn
  | withChildren _ _ hn _ ih => exact .join ih hn
  | withOperator _ ho hc _ => exact built_of_make ho hc
  -- the operator that is kept is that of a comparison which has been built
  | withSelector _ hc ih => exact built_of_make (ih.made _ rfl).1 hc
  | withArguments _ hc ih => exact built_of_make (ih.made _ rfl).1 hc
  | child _ hm ih => exact (ih.children _ _ _ rfl).2 _ hm

end Node

/-! ## Refusals -/

/-- The refusals of building tell themselves apart by what their messages begin with. -/
theorem Failure.argumentCount_ne (symbol : String) (n : Nat) :
    argumentCount symbol n ≠ blankSelector ∧
      (∀ selector c, argumentCount symbol n ≠ reservedInSelector selector c) ∧
      (∀ selector, argumentCount symbol n ≠ noArgument selector) ∧
      argumentCount symbol n ≠ noChild := by
  have hcount : (argumentCount symbol n).message.toList.head? = some 'O' := by
    simp [argumentCount, plain, message, toString]
  have hne : ∀ f : Failure, f.message.toList.head? ≠ some 'O' → argumentCount symbol n ≠ f := by
    rintro f hf rfl
    exact hf hcount
  refine ⟨hne _ (by decide), fun selector c => hne _ ?_, fun selector => hne _ ?_,
    hne _ (by decide)⟩
  · simp [reservedInSelector, plain, message, toString]
  · simp [noArgument, plain, message, toString]

/-- Of the ways in which reading fails only one is the refusal of an argument. -/
theorem Dialect.Misread.count_of_kind {d : Dialect} {f : Failure} (h : d.Misread f)
    (hkind : f.kind = .invalidArgument) :
    ∃ symbol o n, d.operators.get? symbol = some o ∧ o.multi = false ∧ 2 ≤ n ∧
      f = .argumentCount o.primary n := by
  cases h with
  | lexical f => cases hkind
  | grammar expected found last line column => cases hkind
  | unknown _ => cases hkind
  | @count symbol o n ho hmulti hn => exact ⟨symbol, o, n, ho, hmulti, hn, rfl⟩

namespace Node

/-- However a node has been obtained, all that is found in it on the way down can be relied upon.
And reading never asks for a comparison or a logical node that building would refuse, but for a
list of arguments where the operator takes one. -/
theorem sound_of_obtained :
    (∀ n : Node, n.Obtained → ∀ k m, Descends k n m → m.Sound) ∧
      ∀ (d : Dialect) (text : String) (f : Failure), d.parse text = .error f →
        f.kind = .invalidArgument →
          (∃ symbol o n, d.operators.get? symbol = some o ∧ o.multi = false ∧ 2 ≤ n ∧
            f = .argumentCount o.primary n) ∧
          f ≠ .blankSelector ∧ (∀ selector c, f ≠ .reservedInSelector selector c) ∧
          (∀ selector, f ≠ .noArgument selector) ∧ f ≠ .noChild := by
  constructor
  · intro n hn k m hm
    exact (hm.built hn.built).sound
  · intro d text f hf hkind
    obtain ⟨symbol, o, n, ho, hmulti, hcount, rfl⟩ :=
      (Dialect.misread_of_parse hf).count_of_kind hkind
    exact ⟨⟨symbol, o, n, ho, hmulti, hcount, rfl⟩, Failure.argumentCount_ne _ _⟩

/-- A text is read, one of its comparisons gets another selector, and is joined with the other. -/
theorem sound_of_obtained_renamed :
    Sound (.logical .or .or [.comparison ⟨⟨"==", [], false⟩, "c", ["1"]⟩,
        .comparison ⟨⟨"==", [], false⟩, "b", ["2"]⟩]) ∧
      ∃ f, ({} : Dialect).parse "a==(1,2)" = .error f ∧ f.kind = .invalidArgument ∧
        f ≠ .blankSelector := by
  obtain ⟨hsound, hrefusal⟩ := sound_of_obtained
  constructor
  · have hread : ({} : Dialect).parse "a==1;b==2" =
        .ok (.logical .and .and [.comparison ⟨⟨"==", [], false⟩, "a", ["1"]⟩,
          .comparison ⟨⟨"==", [], false⟩, "b", ["2"]⟩]) := by with_unfolding_all rfl
    have hand := Obtained.parse (Registry.reachable_ofList Operator.built_standard) hread
    have hleft := Obtained.child hand List.mem_cons_self
    have hright := Obtained.child hand (List.mem_cons_of_mem _ List.mem_cons_self)
    have hmade : Comparison.withSelector ⟨⟨"==", [], false⟩, "a", ["1"]⟩ "c" =
        .ok ⟨⟨"==", [], false⟩, "c", ["1"]⟩ := by rfl
    have hrenamed := Obtained.withSelector hleft hmade
    have hjoined : Node.join .or [.comparison ⟨⟨"==", [], false⟩, "c", ["1"]⟩,
        .comparison ⟨⟨"==", [], false⟩, "b", ["2"]⟩] = .ok _ := rfl
    exact hsound _ (.join (by simpa using ⟨hrenamed, hright⟩) hjoined) 0 _ (.here _)
  · have hread : ({} : Dialect).parse "a==(1,2)" = .error (.argumentCount "==" 2) := by
      with_unfolding_all rfl
    exact ⟨_, hread, rfl, (hrefusal _ _ _ hread rfl).2.1⟩

end Node

end FilterQuery
