/-
# FilterQuery.Operator -- comparison operators

An operator has a primary symbol, further symbols that mean the same, and a flag that says
whether its right hand side is a list. A comparison symbol is `=letters=` with any number of
ASCII letters (none gives `==`), one of `<`, `>`, `<=`, `>=`, or `!=`.

Two operators count as the same when their primary symbols are equal: that is what `==` on
operators says. Equality of values (`=`) tells apart operators with different further symbols.
-/

import FilterQuery.Error

namespace FilterQuery

/-- Whether `c` is an ASCII letter. -/
def Text.isLetter (c : Char) : Bool := c.isAlpha

/-- Whether a text has the shape of a comparison symbol. -/
def isSymbolText : List Char → Bool
  | ['<'] => true
  | ['>'] => true
  | ['<', '='] => true
  | ['>', '='] => true
  | ['!', '='] => true
  | '=' :: r => r.dropWhile Text.isLetter == ['=']
  | _ => false

/-- Whether `s` is a comparison symbol. -/
def isSymbol (s : String) : Bool := isSymbolText s.toList

/-- A comparison operator. It is known by its primary symbol, and aliases are further symbols with
the same meaning. It takes a list of arguments, or otherwise exactly one. -/
structure Operator where
  primary : String
  aliases : List String := []
  multi : Bool := false
  deriving Repr

namespace Operator

/-- Operators are the same when their primary symbols are. -/
instance : BEq Operator := ⟨fun a b => a.primary == b.primary⟩

theorem beq_iff {a b : Operator} : (a == b) = true ↔ a.primary = b.primary := by
  simp only [BEq.beq, decide_eq_true_eq]

/-- All symbols, the primary one first. -/
def symbols (o : Operator) : List String := o.primary :: o.aliases

/-- Whether `s` is one of the operator's symbols. -/
def hasSymbol (o : Operator) (s : String) : Bool := o.symbols.contains s

/-- The operator with the given symbols, the first of them primary. All must be comparison
symbols and there must be one. -/
def ofSymbols : List String → Bool → Except Failure Operator
  | [], _ => .error .noSymbol
  | s :: r, multi =>
    match (s :: r).find? (fun t => !isSymbol t) with
    | some bad => .error (.badSymbol bad)
    | none => .ok ⟨s, r, multi⟩

/-- The operator with one symbol and one argument. -/
def single (s : String) : Except Failure Operator := ofSymbols [s] false

/-! ## The operators of the language -/

/-- The operators that every dialect has unless it says otherwise. -/
def standard : List Operator :=
  [⟨"==", [], false⟩, ⟨"!=", [], false⟩, ⟨"=gt=", [">"], false⟩, ⟨"=ge=", [">="], false⟩,
   ⟨"=lt=", ["<"], false⟩, ⟨"=le=", ["<="], false⟩, ⟨"=in=", [], true⟩, ⟨"=out=", [], true⟩]

/-- Tests for null, patterns, comparisons without regard to case, and ranges. -/
def extended : List Operator :=
  [⟨"=isnull=", ["=null=", "=na="], false⟩, ⟨"=notnull=", ["=nn=", "=nonnull="], false⟩,
   ⟨"=like=", ["=ke="], false⟩, ⟨"=notlike=", ["=nk="], false⟩, ⟨"=icase=", ["=ic="], false⟩,
   ⟨"=ilike=", ["=ik="], false⟩, ⟨"=inotlike=", ["=ni="], false⟩, ⟨"=bt=", [], true⟩,
   ⟨"=nb=", [], true⟩]

end Operator

end FilterQuery
