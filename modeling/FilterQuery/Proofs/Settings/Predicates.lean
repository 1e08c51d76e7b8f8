/-
# FilterQuery.Proofs.Settings.Predicates -- which comparisons a custom predicate makes

A predicate is filed under the primary symbol of its operator, and looked for under the primary
symbol of the operator that a comparison has. What operator that is, the written symbol decides, and
filing a predicate does not take a symbol over from an operator that has it already.

So there are two cases for a comparison that is written with the primary symbol of the predicate's
operator. If the symbol was free, or stood for an operator with this primary symbol, the predicate
makes the condition, from the values at its own type, and the builder is not asked. If the symbol
was a further symbol of another operator, it is that operator which the comparison has, and the
predicate is never found: the comparison comes to what it would have come to without it
(`comparison_predicate`).
-/

import FilterQuery.Proofs.Language.Recognition
import FilterQuery.Proofs.Language.Trees
import FilterQuery.Proofs.Resolve.Arguments
import FilterQuery.Proofs.Resolve.Lifting
import FilterQuery.Proofs.Settings.Building

namespace FilterQuery

open Grammar

/-! ## Comparisons in a text -/

/-- The text can be read, and the comparison is one of its comparisons that are written with the
symbol. -/
def Dialect.Writes (d : Dialect) (text symbol : String) (c : Comparison) : Prop :=
  ∃ q : Disjunction, (tokenize text).lexemes? = some q.lexemes ∧
    d.parse text = .ok (q.tree d.operators) ∧
    ∃ k ∈ q.clauses, k.symbol = symbol ∧ k.comparison d.operators = c

/-- A comparison has the operator that its symbol stands for. -/
theorem Dialect.Writes.operator {d : Dialect} {text symbol : String} {c : Comparison}
    (h : d.Writes text symbol c) : d.operators.get? symbol = some c.operator := by
  obtain ⟨q, htext, hparse, k, hk, rfl, rfl⟩ := h
  obtain ⟨p, htext', -, -, hfits, -⟩ := (parse_eq_ok_iff_phrase d text _).1 hparse
  have hsame : p.lexemes = q.lexemes := Option.some.inj (htext'.symm.trans htext)
  cases Disjunction.eq_of_lexemes_eq hsame
  obtain ⟨o, ho, -⟩ := hfits k hk
  have hmeaning : meaning d.operators k.symbol = o := by rw [meaning, ho, Option.getD_some]
  show d.operators.get? k.symbol = some (meaning d.operators k.symbol)
  rw [ho, hmeaning]

/-! ## A predicate that has been filed -/

namespace Settings

variable {C : Type} {s : Settings C} {p : CustomPredicate C} {symbol : String} {t : ValueType}

/-- The primary symbol of the predicate's operator stands for no operator of another name. -/
def Free (s : Settings C) (p : CustomPredicate C) : Prop :=
  ∀ o, s.dialect.operators.get? p.operator.primary = some o → o.primary = p.operator.primary

/-- The settings with a predicate for attributes of every type. -/
def filed (s : Settings C) (p : CustomPredicate C) : Settings C :=
  s.file p.operator none (some p)

/-- Of the rest, only the operators may be others. -/
theorem filed_eq (s : Settings C) (p : CustomPredicate C) :
    s.filed p = ({ s with predicates := s.predicates.put (p.operator.primary, none) (some p) }
      : Settings C).withOperators (s.dialect.operators.ensure p.operator) := by
  rw [filed, file, ensureOperator_eq]

theorem predicates_filed (s : Settings C) (p : CustomPredicate C) :
    (s.filed p).predicates = s.predicates.put (p.operator.primary, none) (some p) := by
  rw [filed_eq]
  rfl

/-- The symbol stands for what it stood for before, or else for the predicate's operator. -/
theorem get?_filed (s : Settings C) (p : CustomPredicate C) :
    (s.filed p).dialect.operators.get? p.operator.primary =
      some ((s.dialect.operators.get? p.operator.primary).getD p.operator) := by
  rw [filed_eq]
  exact Registry.get?_ensure_primary s.dialect.operators p.operator

/-- The predicate is found under its symbol, unless there is one for the very type. -/
theorem predicate?_filed
    (h : ((s.filed p).predicates.get? (p.operator.primary, some t)).join = none) :
    (s.filed p).predicate? p.operator.primary t = some p := by
  rw [predicate?, h, predicates_filed, Table.get?_put, if_pos rfl]
  rfl

/-- Under other symbols nothing else is found than before. -/
theorem predicate?_filed_of_ne (h : symbol ≠ p.operator.primary) :
    (s.filed p).predicate? symbol t = s.predicate? symbol t := by
  have hother : ∀ t? : Option ValueType, (symbol, t?) ≠ (p.operator.primary, none) :=
    fun _ heq => h (congrArg Prod.fst heq)
  rw [predicate?, predicate?, predicates_filed, Table.get?_put, Table.get?_put,
    if_neg (hother _), if_neg (hother _)]

/-- If the symbol was free, a comparison with what it stands for now has an operator that the
predicate is filed under. -/
theorem Free.primary_eq (hfree : s.Free p) {o : Operator}
    (ho : (s.filed p).dialect.operators.get? p.operator.primary = some o) :
    o.primary = p.operator.primary := by
  rw [get?_filed] at ho
  cases hbefore : s.dialect.operators.get? p.operator.primary with
  | none =>
    rw [hbefore] at ho
    cases ho
    rfl
  | some q =>
    rw [hbefore] at ho
    cases ho
    exact hfree q hbefore

/-- If it was not, it stands for the operator that had it, under another name, and filing the
predicate has changed no operators. -/
theorem eq_of_not_free (h : ¬ s.Free p) :
    s.filed p = { s with predicates := s.predicates.put (p.operator.primary, none) (some p) } ∧
      ∀ o, (s.filed p).dialect.operators.get? p.operator.primary = some o →
        o.primary ≠ p.operator.primary := by
  unfold Free at h
  push Not at h
  obtain ⟨q, hq, hother⟩ := h
  constructor
  · have hknown : s.dialect.operators.contains p.operator.primary = true := by
      rw [Registry.contains_eq, hq, Option.isSome_some]
    rw [filed_eq, Registry.ensure_of_contains hknown]
    rfl
  · intro o ho
    rw [get?_filed, hq] at ho
    cases ho
    exact hother

end Settings

/-! ## The condition of a comparison -/

namespace Resolver

open Run

variable {C : Type} {r : Resolver C} {entity : String} {c : Comparison} {t u : Trace}

/-- A comparison whose path and values have been found is handed over, once. -/
theorem exec_comparison {x : List PathSegment × ValueType} {values : List Value}
    (hpath : (r.path entity c.selector).exec t = (.ok x, u))
    (hvalues : r.settings.convertAll (r.maker c.operator.primary x.2).argumentType c.arguments =
      .ok (some values)) :
    (r.comparison entity c).exec t =
      (((r.maker c.operator.primary x.2).make (r.construction entity c x values).leaf).map some,
        u.hand (r.construction entity c x values)) := by
  rw [comparison_eq_conclude, exec_bind, hpath]
  dsimp only
  rw [hvalues, ofExcept_ok_bind, conclude, exec_bind, exec_construct]
  cases (r.maker c.operator.primary x.2).make (r.construction entity c x values).leaf <;> rfl

/-- The path of the comparison resolves to a type that has no predicate of its own, and its
arguments convert to the type at which the predicate wants them. -/
def Suits (r : Resolver C) (p : CustomPredicate C) (entity : String) (c : Comparison) (t : Trace)
    (path : List PathSegment) : Prop :=
  ∃ type u, (r.path entity c.selector).exec t = (.ok (path, type), u) ∧
    (r.settings.predicates.get? (p.operator.primary, some type)).join = none ∧
    ∀ a ∈ c.arguments, (r.settings.converters.convert a p.argumentType).isSome = true

/-- The predicate makes the condition of the comparison: it gets the only leaf that is handed over,
with the values at its own type, and what it says is the condition. -/
def Makes (r : Resolver C) (p : CustomPredicate C) (entity : String) (c : Comparison) (t : Trace)
    (path : List PathSegment) : Prop :=
  let values := c.arguments.filterMap (r.settings.converters.convert · p.argumentType)
  let leaf : Leaf := ⟨entity, c.selector, path, c.operator, values, p.argumentType⟩
  ((r.comparison entity c).exec t).1 = ((p.build leaf).mapError Report.toFailure).map some ∧
    ((r.comparison entity c).exec t).2.built = t.built ++ [⟨leaf, true⟩]

/-- If the symbol was free, the predicate makes the condition of a comparison that is written with
it. -/
theorem makes_of_free {s : Settings C} {p : CustomPredicate C} (hfree : s.Free p)
    (hr : r.settings = s.filed p)
    (ho : (s.filed p).dialect.operators.get? p.operator.primary = some c.operator)
    {path : List PathSegment} (hsuits : r.Suits p entity c t path) :
    r.Makes p entity c t path := by
  obtain ⟨type, u, hpath, huntyped, hconverts⟩ := hsuits
  have hmaker : r.maker c.operator.primary type =
      ⟨true, p.argumentType, fun l => (p.build l).mapError Report.toFailure⟩ := by
    rw [hr] at huntyped
    rw [maker, hr, hfree.primary_eq ho, Settings.predicate?_filed huntyped]
  have hvalues := Settings.convertAll_of_forall hconverts
  have hexec := exec_comparison hpath (by rw [hmaker]; exact hvalues)
  rw [construction, hmaker] at hexec
  have hbuilt := built_path r entity c.selector t
  rw [hpath] at hbuilt
  rw [Makes, hexec]
  exact ⟨rfl, congrArg (· ++ _) hbuilt⟩

/-- If it was not, the comparison comes to what it would come to without the predicate. -/
theorem comparison_of_not_free {s : Settings C} {p : CustomPredicate C} (h : ¬ s.Free p)
    (hr : r.settings = s.filed p)
    (ho : (s.filed p).dialect.operators.get? p.operator.primary = some c.operator) :
    r.comparison entity c = { r with settings := s }.comparison entity c := by
  obtain ⟨heq, hother⟩ := Settings.eq_of_not_free h
  have hmaker : r.maker c.operator.primary =
      { r with settings := s }.maker c.operator.primary := by
    funext type
    simp only [maker, hr, Settings.predicate?_filed_of_ne (hother _ ho)]
  have hvalues : ∀ type,
      (s.filed p).convertAll type c.arguments = s.convertAll type c.arguments := by
    intro type
    rw [heq]
    apply Settings.convertAll_congr <;> rfl
  have hpath : r.path entity c.selector = { r with settings := s }.path entity c.selector := by
    have hsame := hr.trans heq
    obtain ⟨settings, describer, cached, builder⟩ := r
    subst hsame
    rfl
  rw [comparison_eq, comparison_eq, hmaker, hpath]
  refine bind_congr fun x => ?_
  dsimp only
  rw [hr, hvalues]

/-- Which comparisons a custom predicate makes, of those that are written with the primary symbol of
its operator. If the symbol was free, it makes each one that suits it. If the symbol stood for an
operator of another name, it makes none: each comparison comes to what it comes to without the
predicate. -/
theorem comparison_predicate (s : Settings C) {p : CustomPredicate C}
    (hall : p.attributeType = none) :
    ∃ s', s.apply (.predicate p) = .ok s' ∧
      ∀ (r : Resolver C) (entity text : String) (c : Comparison), r.settings = s' →
        s'.dialect.Writes text p.operator.primary c →
        (s.Free p → ∀ t path, r.Suits p entity c t path → r.Makes p entity c t path) ∧
        (¬ s.Free p → r.comparison entity c = { r with settings := s }.comparison entity c) := by
  refine ⟨s.filed p, by rw [Settings.apply, Settings.change, hall]; rfl, ?_⟩
  intro r entity text c hr hwrites
  have ho := hwrites.operator
  constructor
  · intro hfree t path hsuits
    exact makes_of_free hfree hr ho hsuits
  · intro h
    exact comparison_of_not_free h hr ho

/-- Conditions that tell who has made them: the builder says no. -/
def doubtful : ConditionBuilder Bool := ⟨fun _ => .ok false, (· && ·), (· || ·), true⟩

/-- A predicate for a symbol that says yes. -/
def yes (symbol : String) : CustomPredicate Bool :=
  ⟨⟨symbol, [], false⟩, none, .int .i32, fun _ => .ok true⟩

/-- The schema in which all is a number. -/
def numbers : Describer := fun _ name => some (.basic name (.int .i32))

/-- The path of an age. -/
def age : List PathSegment := [⟨"Person", .basic "age" (.int .i32)⟩]

/-- The age that is compared in a filter. -/
def older : Comparison := ⟨⟨"=gt=", [">"], false⟩, "age", ["5"]⟩

/-- The predicate for `=gt=` makes the comparison, though the operator that the symbol stands for
has a further symbol. -/
theorem comparison_predicate_greater :
    (yes "=gt=").attributeType = none ∧
      ∃ s', ({} : Settings Bool).apply (.predicate (yes "=gt=")) = .ok s' ∧
        s'.dialect.Writes "name==1,age=gt=5" "=gt=" older ∧
        ({} : Settings Bool).Free (yes "=gt=") ∧
        (⟨s', numbers, true, doubtful⟩ : Resolver Bool).Suits (yes "=gt=") "Person" older {} age ∧
        (⟨s', numbers, true, doubtful⟩ : Resolver Bool).Makes (yes "=gt=") "Person" older {}
          age := by
  obtain ⟨s', hs, hmakes⟩ := comparison_predicate ({} : Settings Bool) (p := yes "=gt=") rfl
  cases hs
  have hwrites : (({} : Settings Bool).filed (yes "=gt=")).dialect.Writes "name==1,age=gt=5"
      "=gt=" older :=
    ⟨.comma (.last (.clause ⟨"name", "==", .value (.bare "1")⟩))
      (.last (.last (.clause ⟨"age", "=gt=", .value (.bare "5")⟩))),
      by with_unfolding_all rfl, by with_unfolding_all rfl, _,
      List.mem_cons_of_mem _ List.mem_cons_self, rfl, rfl⟩
  have hfree : ({} : Settings Bool).Free (yes "=gt=") := by
    intro o ho
    have hgreater : ({} : Settings Bool).dialect.operators.get? "=gt=" =
        some ⟨"=gt=", [">"], false⟩ := rfl
    cases hgreater.symm.trans ho
    rfl
  have hsuits : (⟨({} : Settings Bool).filed (yes "=gt="), numbers, true, doubtful⟩ :
      Resolver Bool).Suits (yes "=gt=") "Person" older {} age :=
    ⟨.int .i32, _, rfl, rfl, by decide⟩
  exact ⟨rfl, _, rfl, hwrites, hfree, hsuits,
    (hmakes _ "Person" _ older rfl hwrites).1 hfree {} age hsuits⟩

/-- A predicate need not make what is written with the symbol of its operator: `>` stands for the
operator `=gt=`, and the builder is asked. -/
theorem not_forall_makes :
    ¬ ∀ (s s' : Settings Bool) (p : CustomPredicate Bool), p.attributeType = none →
      s.apply (.predicate p) = .ok s' →
      ∀ (r : Resolver Bool) (entity text : String) (c : Comparison), r.settings = s' →
        s'.dialect.Writes text p.operator.primary c →
        ∀ t path, r.Suits p entity c t path → r.Makes p entity c t path := by
  intro h
  have hwrites : (({} : Settings Bool).filed (yes ">")).dialect.Writes "age>5" ">" older :=
    ⟨.last (.last (.clause ⟨"age", ">", .value (.bare "5")⟩)), by with_unfolding_all rfl,
      by with_unfolding_all rfl, _, List.mem_cons_self, rfl, rfl⟩
  have hsuits : (⟨({} : Settings Bool).filed (yes ">"), numbers, true, doubtful⟩ :
      Resolver Bool).Suits (yes ">") "Person" older {} age :=
    ⟨.int .i32, _, rfl, rfl, by decide⟩
  have hmakes := h {} _ (yes ">") rfl rfl _ "Person" "age>5" older rfl hwrites {} age hsuits
  cases hmakes.1

end Resolver

end FilterQuery
