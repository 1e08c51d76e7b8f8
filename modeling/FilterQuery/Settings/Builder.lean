/-
# FilterQuery.Settings.Builder -- settings from a list of steps

A builder makes changes one after the other. One of its steps replaces the operators, and must
not lose what other steps have added or will add: the builder keeps the operators that were added
and those of the custom predicates, and puts them on top of the new ones. Predicates only fill
gaps, as they do otherwise.

The first change that fails ends nothing: the steps after it are still made, but a later limit of
the depth is not, and the failure is what building comes to.
-/

import FilterQuery.Settings

namespace FilterQuery

namespace Settings

/-- A step of a builder: the operators are replaced, the extended ones are registered, or another
change is made. -/
inductive BuildStep (C : Type) where
  | operators (r : Registry)
  | extendedOperators
  | change (c : Change C)

/-- A builder between two steps, with the first failure, the operators that were added and those of
the custom predicates, in order. -/
structure Builder (C : Type) where
  failure : Option Failure := none
  settings : Settings C := {}
  added : List Operator := []
  ofPredicates : List Operator := []

namespace Builder

variable {C : Type}

/-- Makes a change; a failure is kept if it is the first, and changes nothing. -/
def change (b : Builder C) (c : Change C) : Builder C :=
  match b.settings.apply c with
  | .ok s => { b with settings := s }
  | .error f => { b with failure := b.failure.or (some f) }

/-- Registers an operator and keeps it for a later replacement. -/
def add (b : Builder C) (o : Operator) : Builder C :=
  { b.change (.operator o) with added := b.added ++ [o] }

/-- Files something for an operator and keeps that for a later replacement. -/
def file (b : Builder C) (o : Operator) (c : Change C) : Builder C :=
  { b.change c with ofPredicates := b.ofPredicates ++ [o] }

/-- Makes a step. -/
def step (b : Builder C) : BuildStep C → Builder C
  | .operators r =>
    let base := (Registry.ofList r.operators).registerAll b.added
    { b with
      settings := b.ofPredicates.foldl ensureOperator (b.settings.withOperators base) }
  | .extendedOperators => Operator.extended.foldl add b
  | .change (.operator o) => b.add o
  | .change (.predicate p) => b.file p.operator (.predicate p)
  | .change (.foreignPredicate o t) => b.file o (.foreignPredicate o t)
  | .change (.maxDepth n) => if b.failure.isSome then b else b.change (.maxDepth n)
  | .change c => b.change c

end Builder

/-- The settings that some steps build. -/
def build {C : Type} (steps : List (BuildStep C)) : Except Failure (Settings C) :=
  let b := steps.foldl Builder.step {}
  match b.failure with
  | some f => .error f
  | none => .ok b.settings

end Settings

end FilterQuery
