/-
# FilterQuery.Settings -- what reading and resolving filters depends on

Settings hold the dialect, the registered converters, remapped selectors, access lists, custom
predicates, and what to do with an argument that cannot be read. They start with the standard
operators and nothing else, and each change of them is a `Change`. A change that takes something
away answers what that was, or whether it was there (`Answer`).

A custom predicate is filed under the primary symbol of its operator and its attribute type. Its
operator is registered if that symbol is not a registered symbol yet. A predicate may be filed
that builds conditions of another type: it occupies its place but is never found.
-/

import FilterQuery.Dialect
import FilterQuery.Resolve.Condition
import FilterQuery.Settings.Access
import FilterQuery.Value.Convert

namespace FilterQuery

/-- What to do with an argument that is no text of its type: the filter fails, the comparison is
dropped, or the null value stands for the argument. -/
inductive FailurePolicy where
  | reject
  | skip
  | passNull
  deriving Repr, DecidableEq

/-- The settings of a compiler whose conditions have type `C`. Paths that stand for selectors are
filed by entity and selector, custom predicates by primary symbol and attribute type; where a
predicate for conditions of another type is filed, there is none. -/
structure Settings (C : Type) where
  dialect : Dialect := {}
  converters : Converters := .empty
  remappings : Table String (Table String String) := .empty
  access : AccessLists := {}
  predicates : Table (String × Option ValueType) (Option (CustomPredicate C)) := .empty
  policy : FailurePolicy := .reject
  cacheEnabled : Bool := true

namespace Settings

variable {C : Type}

/-- A change of settings. A remapping lets a path stand for a selector on an entity, a foreign
predicate is one for conditions of another type, and the nesting limit must not be zero. -/
inductive Change (C : Type) where
  | operator (o : Operator)
  | dropOperator (symbol : String)
  | converter (t : ValueType) (f : Converter)
  | dropConverter (t : ValueType)
  | remap (entity selector path : String)
  | unremap (entity selector : String)
  | whitelist (entity : String) (names : List String)
  | blacklist (entity : String) (names : List String)
  | clearWhitelist (entity : String)
  | clearBlacklist (entity : String)
  | predicate (p : CustomPredicate C)
  | foreignPredicate (o : Operator) (attributeType : Option ValueType)
  | dropPredicate (symbol : String) (attributeType : Option ValueType)
  | policy (p : FailurePolicy)
  | cache (enabled : Bool)
  | maxDepth (n : Nat)

/-- What a change answers: that it has been made, the operator or the path that it has taken away,
if there was one, or whether it has taken anything away. -/
inductive Answer where
  | made
  | operator (dropped : Option Operator)
  | path (dropped : Option String)
  | dropped (found : Bool)

/-- The path that stands for a selector on an entity. -/
def remapping? (s : Settings C) (entity selector : String) : Option String :=
  (s.remappings.get? entity).bind (·.get? selector)

/-- Lets a selector on an entity stand for itself; gives the path that it stood for. -/
def unremap (s : Settings C) (entity selector : String) : Option String × Settings C :=
  (s.remapping? entity selector,
    { s with
      remappings := s.remappings.alter entity fun old => (old.getD .empty).erase selector })

/-- The settings with other operators. -/
def withOperators (s : Settings C) (r : Registry) : Settings C :=
  { s with dialect := { s.dialect with operators := r } }

/-- The settings with an operator registered unless its primary symbol is. -/
def ensureOperator (s : Settings C) (o : Operator) : Settings C :=
  if s.dialect.operators.contains o.primary then s
  else s.withOperators (s.dialect.operators.register o)

/-- The settings with something filed for an operator and an attribute type. -/
def file (s : Settings C) (o : Operator) (t : Option ValueType)
    (p : Option (CustomPredicate C)) : Settings C :=
  ({ s with predicates := s.predicates.put (o.primary, t) p }).ensureOperator o

/-- Removes what is filed for an operator and an attribute type; gives whether anything was. -/
def unfile (s : Settings C) (symbol : String) (t : Option ValueType) : Bool × Settings C :=
  (s.predicates.contains (symbol, t), { s with predicates := s.predicates.erase (symbol, t) })

/-- Makes a change; gives its answer and the settings after it. -/
def change (s : Settings C) : Change C → Except Failure (Answer × Settings C)
  | .operator o => .ok (.made, s.withOperators (s.dialect.operators.register o))
  | .dropOperator symbol =>
    let (dropped, r) := s.dialect.operators.unregister symbol
    .ok (.operator dropped, s.withOperators r)
  | .converter t f => .ok (.made, { s with converters := s.converters.register t f })
  | .dropConverter t =>
    let (found, c) := s.converters.unregister t
    .ok (.dropped found, { s with converters := c })
  | .remap entity selector path =>
    .ok (.made, { s with
      remappings := s.remappings.alter entity fun old => (old.getD .empty).put selector path })
  | .unremap entity selector =>
    let (dropped, s) := s.unremap entity selector
    .ok (.path dropped, s)
  | .whitelist entity names => .ok (.made, { s with access := s.access.whitelist entity names })
  | .blacklist entity names => .ok (.made, { s with access := s.access.blacklist entity names })
  | .clearWhitelist entity => .ok (.made, { s with access := s.access.clearWhitelist entity })
  | .clearBlacklist entity => .ok (.made, { s with access := s.access.clearBlacklist entity })
  | .predicate p => .ok (.made, s.file p.operator p.attributeType (some p))
  | .foreignPredicate o t => .ok (.made, s.file o t none)
  | .dropPredicate symbol t =>
    let (found, s) := s.unfile symbol t
    .ok (.dropped found, s)
  | .policy p => .ok (.made, { s with policy := p })
  | .cache enabled => .ok (.made, { s with cacheEnabled := enabled })
  | .maxDepth n =>
    if n = 0 then .error .zeroDepth
    else .ok (.made, { s with dialect := { s.dialect with maxDepth := n } })

/-- The settings after a change. -/
def apply (s : Settings C) (c : Change C) : Except Failure (Settings C) :=
  (s.change c).map (·.2)

/-- The custom predicate for an operator and the type of a path: the one for attributes of that
very type, or else the one for every type. -/
def predicate? (s : Settings C) (symbol : String) (t : ValueType) : Option (CustomPredicate C) :=
  match (s.predicates.get? (symbol, some t)).join with
  | some p => some p
  | none => (s.predicates.get? (symbol, none)).join

/-- The arguments as values of a type. There are none when the comparison is to be dropped. -/
def convertAll (s : Settings C) (t : ValueType) : List String → Except Failure (Option (List Value))
  | [] => .ok (some [])
  | a :: r =>
    match s.converters.convert a t, s.policy with
    | some v, _ => (s.convertAll t r).map fun vs => vs.map (v :: ·)
    | none, .reject => .error (.inconvertible a t.name)
    | none, .skip => .ok none
    | none, .passNull => (s.convertAll t r).map fun vs => vs.map (.null :: ·)

end Settings

end FilterQuery
