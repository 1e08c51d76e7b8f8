/-
# FilterQuery.Proofs.Resolve.Walks -- the steps of resolving, one equation each

Each function of the resolver is said here to be a row of smaller runs, with the data that goes
from one to the next under a name: where a walk has come to after an attribute (`Walk.onTo`), what
a finished walk amounts to (`Walk.outcome`), by whom and at which type a condition is made
(`Resolver.maker`), and what becomes of a comparison with a path and values (`Resolver.conclude`).
What is proved of resolving elsewhere uses these equations and does not open the functions
themselves.
-/

import FilterQuery.Proofs.Resolve.Runs

namespace FilterQuery

/-! ## Following a selector -/

theorem AccessLists.allows_of_check {l : AccessLists} {entity name : String}
    (h : l.check entity name = .ok ()) : l.allows entity name = true := by
  rw [check] at h
  split at h
  · assumption
  · cases h

namespace Walk

/-- The walk after an attribute of the entity that it has reached. -/
def onTo (w : Walk) (a : Attribute) : Walk :=
  match a.target? with
  | some target => ⟨target, w.path ++ [⟨w.entity, a⟩], none⟩
  | none => ⟨w.entity, w.path ++ [⟨w.entity, a⟩], some a.comparisonType⟩

@[simp] theorem path_onTo (w : Walk) (a : Attribute) :
    (w.onTo a).path = w.path ++ [⟨w.entity, a⟩] := by
  rw [onTo]
  split <;> rfl

/-- The path of a finished walk and its type; a walk without steps has none. -/
def outcome (w : Walk) : Option (List PathSegment × ValueType) :=
  match w.scalar, w.path.getLast? with
  | some t, _ => some (w.path, t)
  | none, some last => some (w.path, last.attr.valueType)
  | none, none => none

theorem outcome_path {w : Walk} {path : List PathSegment} {t : ValueType}
    (h : w.outcome = some (path, t)) : path = w.path := by
  rw [outcome] at h
  split at h <;> cases h <;> rfl

/-- What a walk along the selector comes to: its outcome, or a failure if it has none. -/
def found (w : Walk) (entity selector : String) : Except Failure (List PathSegment × ValueType) :=
  match w.outcome with
  | some x => .ok x
  | none => .error (.unknownSelector entity selector)

theorem found_eq_ok_iff {w : Walk} {entity selector : String} {x : List PathSegment × ValueType} :
    w.found entity selector = .ok x ↔ w.outcome = some x := by
  unfold found
  cases w.outcome <;> simp

end Walk

namespace Resolver

variable {C : Type} (r : Resolver C)

theorem enter_of_scalar {w : Walk} (h : w.scalar.isSome = true) (name : String) :
    r.enter w name = throw (.unknownSelector w.entity name) := by
  rw [enter, if_pos h]
  rfl

theorem enter_of_entity {w : Walk} (h : w.scalar.isSome = false) (name : String) :
    r.enter w name =
      (Run.ofExcept (r.settings.access.check w.entity name) >>= fun _ =>
        r.describe w.entity name >>= fun a? =>
          match a? with
          | none => throw (.unknownSelector w.entity name)
          | some a => pure (w.onTo a)) := by
  rw [enter, if_neg (by rw [h]; exact Bool.false_ne_true)]
  refine bind_congr fun _ => bind_congr fun a? => ?_
  cases a? with
  | none => rfl
  | some a =>
    simp only [Walk.onTo]
    cases a.target? <;> rfl

/-- A segment stands for one name at the least. -/
theorem expand_ne_nil (entity segment : String) : r.expand entity segment ≠ [] := by
  unfold expand
  split
  · exact Text.Dotted.parts_ne_nil _
  · exact List.cons_ne_nil segment []

theorem path_eq (entity selector : String) :
    r.path entity selector =
      ((Text.Dotted.parts selector).foldlM r.follow { entity := entity } >>= fun w =>
        match w.outcome with
        | some x => pure x
        | none => throw (.unknownSelector entity selector)) := by
  rw [path]
  refine bind_congr fun w => ?_
  rw [Walk.outcome]
  rcases w.scalar with _ | t <;> rcases w.path.getLast? with _ | p <;> rfl

theorem path_eq_found (entity selector : String) :
    r.path entity selector =
      ((Text.Dotted.parts selector).foldlM r.follow { entity := entity } >>= fun w =>
        Run.ofExcept (w.found entity selector)) := by
  rw [path_eq]
  refine bind_congr fun w => ?_
  unfold Walk.found
  cases w.outcome <;> rfl

/-- A path that has been found is the outcome of the walk along the segments. -/
theorem exec_path_eq_ok {r : Resolver C} {entity selector : String} {t u : Trace}
    {x : List PathSegment × ValueType} (h : (r.path entity selector).exec t = (.ok x, u)) :
    ∃ w, ((Text.Dotted.parts selector).foldlM r.follow { entity := entity }).exec t = (.ok w, u) ∧
      w.outcome = some x := by
  rw [path_eq_found] at h
  obtain ⟨w, v, hw, h⟩ := Run.exec_bind_eq_ok h
  obtain ⟨hfound, rfl⟩ := Prod.mk.inj h
  exact ⟨w, hw, Walk.found_eq_ok_iff.1 hfound⟩

/-! ## Making a condition -/

/-- Who makes a condition of a leaf, be it a custom predicate or not, and the type at which the
arguments are read. -/
structure Maker (C : Type) where
  custom : Bool
  argumentType : ValueType
  make : Leaf → Except Failure C

/-- The maker for an operator and the type of a path: a custom predicate, or else the builder. -/
def maker (symbol : String) (t : ValueType) : Maker C :=
  match r.settings.predicate? symbol t with
  | some p => ⟨true, p.argumentType, fun l => (p.build l).mapError Report.toFailure⟩
  | none => ⟨false, t, r.builder.leaf⟩

theorem comparison_eq (entity : String) (c : Comparison) :
    r.comparison entity c =
      (r.path entity c.selector >>= fun x =>
        let m := r.maker c.operator.primary x.2
        Run.ofExcept (r.settings.convertAll m.argumentType c.arguments) >>= fun values? =>
          match values? with
          | none => pure none
          | some values =>
            let leaf : Leaf := ⟨entity, c.selector, x.1, c.operator, values, m.argumentType⟩
            construct ⟨leaf, m.custom⟩ (m.make leaf) >>= fun y => pure (some y)) := by
  rw [comparison]
  refine bind_congr ?_
  rintro ⟨path, t⟩
  simp only [maker]
  cases r.settings.predicate? c.operator.primary t with
  | none =>
    dsimp only
    refine bind_congr fun values? => ?_
    cases values? <;> rfl
  | some p =>
    dsimp only
    refine bind_congr fun values? => ?_
    cases values? <;> rfl

/-- The leaf that is made of a comparison with a path and values, and who gets it. -/
def construction (entity : String) (c : Comparison) (x : List PathSegment × ValueType)
    (values : List Value) : Construction :=
  let m := r.maker c.operator.primary x.2
  ⟨⟨entity, c.selector, x.1, c.operator, values, m.argumentType⟩, m.custom⟩

/-- What becomes of a comparison whose path and values have been found; it is dropped if it has no
values. -/
def conclude (entity : String) (c : Comparison) (x : List PathSegment × ValueType) :
    Option (List Value) → Run (Option C)
  | none => pure none
  | some values =>
    let made := r.construction entity c x values
    construct made ((r.maker c.operator.primary x.2).make made.leaf) >>= fun y => pure (some y)

/-- A comparison is a path, then values, and what becomes of it with these. -/
theorem comparison_eq_conclude (entity : String) (c : Comparison) :
    r.comparison entity c =
      (r.path entity c.selector >>= fun x =>
        Run.ofExcept (r.settings.convertAll (r.maker c.operator.primary x.2).argumentType
          c.arguments) >>= r.conclude entity c x) := by
  rw [comparison_eq]
  refine bind_congr fun x => bind_congr fun values? => ?_
  cases values? <;> rfl

end Resolver

end FilterQuery
