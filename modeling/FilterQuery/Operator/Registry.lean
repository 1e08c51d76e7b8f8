/-
# FilterQuery.Operator.Registry -- the comparison symbols that a dialect knows

A registry maps symbols to operators. Registering an operator maps each of its symbols to it and
takes over symbols that belonged to others. Removing an operator by one of its symbols takes away
that entry, then each further symbol of the removed operator that still belongs to an operator
with the same primary symbol.
-/

import FilterQuery.Operator
import FilterQuery.Table

namespace FilterQuery

/-- The operators of a dialect by symbol. -/
structure Registry where
  table : Table String Operator
  deriving Repr

namespace Registry

/-- The registry without operators. -/
def empty : Registry := ⟨.empty⟩

/-- The operator that `symbol` stands for. -/
def get? (r : Registry) (symbol : String) : Option Operator := r.table.get? symbol

/-- Whether `symbol` is registered. -/
def contains (r : Registry) (symbol : String) : Bool := r.table.contains symbol

/-- The registry in which all symbols of `o` stand for `o`. -/
def register (r : Registry) (o : Operator) : Registry :=
  ⟨o.symbols.foldl (fun t s => t.put s o) r.table⟩

/-- The registry with the operators registered one after the other. -/
def registerAll (r : Registry) (os : List Operator) : Registry := os.foldl register r

/-- The registry of the given operators. -/
def ofList (os : List Operator) : Registry := empty.registerAll os

/-- The registry of the standard operators. -/
def standard : Registry := ofList Operator.standard

/-- The table without `symbol` if that stands for an operator with the primary symbol of `o`. -/
def release (o : Operator) (t : Table String Operator) (symbol : String) :
    Table String Operator :=
  match t.get? symbol with
  | some p => if p == o then t.erase symbol else t
  | none => t

/-- Removes the operator that `symbol` stands for; gives it and what is left. -/
def unregister (r : Registry) (symbol : String) : Option Operator × Registry :=
  match r.get? symbol with
  | none => (none, r)
  | some o => (some o, ⟨o.symbols.foldl (release o) (r.table.erase symbol)⟩)

/-- The first operator for each primary symbol. -/
def firstByPrimary : List Operator → List Operator
  | [] => []
  | o :: r => o :: (firstByPrimary r).filter fun p => !(p == o)

/-- The registered operators, one for each primary symbol, in the order of these. -/
def operators (r : Registry) : List Operator :=
  (firstByPrimary r.table.values).mergeSort fun a b => decide (a.primary ≤ b.primary)

/-- The registered symbols in ascending order. -/
def symbols (r : Registry) : List String := r.table.keys.mergeSort fun a b => decide (a ≤ b)

/-- The entries in ascending order of their symbols. -/
def entries (r : Registry) : List (String × Operator) :=
  r.table.entries.mergeSort fun a b => decide (a.1 ≤ b.1)

/-- The number of registered symbols. -/
def size (r : Registry) : Nat := r.table.size

end Registry

end FilterQuery
