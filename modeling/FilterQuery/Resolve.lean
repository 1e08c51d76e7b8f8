/-
# FilterQuery.Resolve -- from trees to conditions

Resolving takes the comparisons of a tree from left to right. Each one's selector is followed
through the schema, its arguments are read at the type that the path ends with, and a condition
is built; the conditions of a logical node are joined from the left. The first comparison that
fails ends it.

A selector is followed segment by segment. A segment may stand for a path of its own (the
remapping of the entity reached so far); the parts of that path are taken as they are. Each part
is checked against the access lists before the schema is asked for it. Behind a scalar nothing
can follow.

Two things outlast a failure: what the cache has learnt and which leaves have been handed to the
storage layer. They make up the `Trace` of a run.
-/

import FilterQuery.Node
import FilterQuery.Schema.Cache
import FilterQuery.Settings
import FilterQuery.Text.Dotted

namespace FilterQuery

/-- A leaf handed to the storage layer, or to a custom predicate, which built a condition from it or
failed to. -/
structure Construction where
  leaf : Leaf
  custom : Bool
  deriving Repr

/-- What a run leaves behind: the remembered attributes, and the leaves that were handed over, in
order. -/
structure Trace where
  cache : SchemaCache := .empty
  built : List Construction := []

/-- A run that may fail and leaves a trace in any case. -/
abbrev Run := ExceptT Failure (StateM Trace)

/-- A result as a run that leaves no trace. -/
def Run.ofExcept {α : Type} (x : Except Failure α) : Run α := ExceptT.mk (pure x)

/-- What resolving depends on, and whether attributes are remembered. -/
structure Resolver (C : Type) where
  settings : Settings C
  describer : Describer
  cached : Bool
  builder : ConditionBuilder C

/-- How far a selector has been followed: to an entity, or to a scalar and its owner. -/
structure Walk where
  entity : String
  path : List PathSegment := []
  scalar : Option ValueType := none
  deriving Repr

namespace Resolver

variable {C : Type}

/-- The attribute of an entity with a name. -/
def describe (r : Resolver C) (entity name : String) : Run (Option Attribute) :=
  if r.cached then
    modifyGet fun trace =>
      let (a, cache) := trace.cache.describe r.describer entity name
      (a, { trace with cache := cache })
  else pure (r.describer entity name)

/-- Goes on to an attribute. -/
def enter (r : Resolver C) (w : Walk) (name : String) : Run Walk := do
  if w.scalar.isSome then throw (.unknownSelector w.entity name)
  Run.ofExcept (r.settings.access.check w.entity name)
  match ← r.describe w.entity name with
  | none => throw (.unknownSelector w.entity name)
  | some a =>
    let path := w.path ++ [⟨w.entity, a⟩]
    match a.target? with
    | some target => return ⟨target, path, none⟩
    | none => return ⟨w.entity, path, some a.comparisonType⟩

/-- The names that a segment stands for on an entity. -/
def expand (r : Resolver C) (entity segment : String) : List String :=
  match r.settings.remapping? entity segment with
  | some target => Text.Dotted.parts target
  | none => [segment]

/-- Follows a segment of a selector. -/
def follow (r : Resolver C) (w : Walk) (segment : String) : Run Walk :=
  if w.scalar.isSome then throw (.unknownSelector w.entity segment)
  else (r.expand w.entity segment).foldlM r.enter w

/-- The path of a selector and the type at which arguments are compared with it. -/
def path (r : Resolver C) (entity selector : String) : Run (List PathSegment × ValueType) := do
  let w ← (Text.Dotted.parts selector).foldlM r.follow { entity := entity }
  match w.scalar, w.path.getLast? with
  | some t, _ => return (w.path, t)
  | none, some last => return (w.path, last.attr.valueType)
  | none, none => throw (.unknownSelector entity selector)

/-- Hands a leaf over, which builds a condition or fails. -/
def construct (c : Construction) (condition : Except Failure C) : Run C := do
  modify fun trace => { trace with built := trace.built ++ [c] }
  Run.ofExcept condition

/-- The condition of a comparison; there is none when the comparison is dropped. -/
def comparison (r : Resolver C) (entity : String) (c : Comparison) : Run (Option C) := do
  let (path, t) ← r.path entity c.selector
  let leaf : Leaf := ⟨entity, c.selector, path, c.operator, [], t⟩
  match r.settings.predicate? c.operator.primary t with
  | some p =>
    match ← Run.ofExcept (r.settings.convertAll p.argumentType c.arguments) with
    | none => return none
    | some values =>
      let leaf := leaf.withValues values p.argumentType
      return some (← construct ⟨leaf, true⟩ ((p.build leaf).mapError Report.toFailure))
  | none =>
    match ← Run.ofExcept (r.settings.convertAll t c.arguments) with
    | none => return none
    | some values =>
      let leaf := leaf.withValues values t
      return some (← construct ⟨leaf, false⟩ (r.builder.leaf leaf))

/-- Joins what there is of two conditions. -/
def combine (r : Resolver C) (op : Connective) : Option C → Option C → Option C
  | none, c => c
  | some l, none => some l
  | some l, some c =>
    match op with
    | .and => some (r.builder.and l c)
    | .or => some (r.builder.or l c)

mutual

/-- The condition of a tree; there is none when all comparisons are dropped. -/
def node (r : Resolver C) (entity : String) : Node → Run (Option C)
  | .comparison c => r.comparison entity c
  | .logical _ op children => r.nodes entity op none children

/-- The condition of some trees, joined from the left to what there is already. -/
def nodes (r : Resolver C) (entity : String) (op : Connective) (before : Option C) :
    List Node → Run (Option C)
  | [] => pure before
  | n :: rest => do
    let c ← r.node entity n
    r.nodes entity op (r.combine op before c) rest

end

/-- The condition of a filter; one that always holds when all comparisons are dropped. -/
def resolve (r : Resolver C) (n : Node) (entity : String) : Run C := do
  match ← r.node entity n with
  | some c => return c
  | none => return r.builder.always

end Resolver

end FilterQuery
