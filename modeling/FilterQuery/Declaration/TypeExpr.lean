/-
# FilterQuery.Declaration.TypeExpr -- types as declarations write them

The type of a field is written as text. Little of that text matters for a schema: the last name of
a path, the arguments in angle brackets behind it, and what a reference leads to. So a type
expression keeps these parts apart and everything else as text.

Texts of type expressions are closed up: they hold no spaces, and in every list of arguments or
parameters the lifetimes come first.
-/

namespace FilterQuery

/-! ## Lists in angle brackets -/

/-- An item of a list in angle brackets, as text. -/
structure ListedItem where
  lifetime : Bool
  text : String
  deriving Repr, DecidableEq

namespace ListedItem

/-- The texts of items with a comma behind each, and behind the last only if `trailing`. -/
def punctuate (trailing : Bool) : List ListedItem → List ListedItem
  | [] => []
  | [i] => [if trailing then { i with text := i.text ++ "," } else i]
  | i :: r => { i with text := i.text ++ "," } :: punctuate trailing r

/-- The text of a list without its brackets. Lifetimes come first, and each item keeps the comma
behind it. A comma is put in where a lifetime that had none is no longer the last item. -/
def listText (items : List ListedItem) (trailing : Bool) : String :=
  let punctuated := punctuate trailing items
  let text (is : List ListedItem) := String.join (is.map (·.text))
  let lifetimes := text (punctuated.filter (·.lifetime))
  let others := text (punctuated.filter fun i => !i.lifetime)
  let lastIsLifetime := (items.getLast?.map (·.lifetime)).getD false
  let comma := if lastIsLifetime && !trailing && others ≠ "" then "," else ""
  lifetimes ++ comma ++ others

end ListedItem

/-! ## Type expressions -/

mutual

/-- A type as it is written. A path consists of the text before its last name, that name, and what
follows; a reference of its mark and the type that it leads to. -/
inductive TypeExpr where
  | path (lead name : String) (arguments : TypeArguments)
  | reference (mark : String) (target : TypeExpr)
  | bracketed (t : TypeExpr)
  | other (text : String)

/-- What follows the last name of a path. A list in angle brackets consists of the opening mark, the
items, and whether a comma stands behind the last. -/
inductive TypeArguments where
  | absent
  | angle (opening : String) (items : List TypeArgument) (trailing : Bool)
  | other (text : String)

/-- An item of a list in angle brackets: a lifetime, a type, or else a constant, a binding or a
constraint. -/
inductive TypeArgument where
  | lifetime (text : String)
  | type (t : TypeExpr)
  | other (text : String)

end

namespace TypeExpr

mutual

/-- The closed up text of a type. -/
def text : TypeExpr → String
  | path lead name arguments => lead ++ name ++ argumentsText arguments
  | reference mark target => mark ++ text target
  | bracketed t => "(" ++ text t ++ ")"
  | other t => t

/-- The text of what follows the last name of a path. -/
def argumentsText : TypeArguments → String
  | .absent => ""
  | .angle opening items trailing =>
    opening ++ ListedItem.listText (listedItems items) trailing ++ ">"
  | .other t => t

/-- The items of a list as text. -/
def listedItems : List TypeArgument → List ListedItem
  | [] => []
  | .lifetime t :: r => ⟨true, t⟩ :: listedItems r
  | .type t :: r => ⟨false, text t⟩ :: listedItems r
  | .other t :: r => ⟨false, t⟩ :: listedItems r

end

/-- The name of a type: the last name of a path, also behind references. -/
def name? : TypeExpr → Option String
  | path _ name _ => some name
  | reference _ target => target.name?
  | bracketed _ | other _ => none

end TypeExpr

namespace TypeArguments

/-- The first type among the items of a list. -/
def firstType? : TypeArguments → Option TypeExpr
  | .angle _ items _ => items.findSome? fun
    | .type t => some t
    | _ => none
  | _ => none

/-- Whether there are no arguments; a list in angle brackets may be empty. -/
def isEmpty : TypeArguments → Bool
  | .absent => true
  | .angle _ items _ => items.isEmpty
  | .other _ => false

/-- Whether nothing is written. -/
def isAbsent : TypeArguments → Bool
  | .absent => true
  | _ => false

end TypeArguments

end FilterQuery
