/-
# FilterQuery.Declaration.Parameters -- the parameters of a declared type

A declaration may take parameters: lifetimes, types and constants. What is generated for it names
them twice. Where they are introduced they keep their attributes and bounds and lose their
defaults; where the declared type is named only their names stand. The declaration itself shows
them complete, with their defaults.
-/

import FilterQuery.Declaration.TypeExpr

namespace FilterQuery

/-- What a parameter stands for. -/
inductive ParameterKind where
  | lifetime
  | type
  | constant
  deriving Repr, DecidableEq

/-- A parameter of a declaration, its parts as texts. The bounds of a constant are its type. -/
structure Parameter where
  kind : ParameterKind
  name : String
  bounds : String
  attributes : String := ""
  default : String := ""
  deriving Repr, DecidableEq

namespace Parameter

/-- The text that introduces a parameter. -/
def declared (p : Parameter) : String :=
  let name := p.attributes ++ if p.kind = .constant then "const" ++ p.name else p.name
  if p.bounds = "" then name else name ++ ":" ++ p.bounds

/-- The text that introduces a parameter with its default. -/
def complete (p : Parameter) : String :=
  if p.default = "" then p.declared else p.declared ++ "=" ++ p.default

/-- The parameter as an item of a list, by what introduces it. -/
def declaredItem (p : Parameter) : ListedItem := ⟨p.kind = .lifetime, p.declared⟩

/-- The parameter as an item of a list, with its default. -/
def completeItem (p : Parameter) : ListedItem := ⟨p.kind = .lifetime, p.complete⟩

/-- The parameter as an item of a list, by its name. -/
def namedItem (p : Parameter) : ListedItem := ⟨p.kind = .lifetime, p.name⟩

end Parameter

/-- The parameters of a declaration, and whether a comma stands behind the last. -/
structure Parameters where
  items : List Parameter := []
  trailing : Bool := false
  deriving Repr, DecidableEq

namespace Parameters

/-- A list in angle brackets; nothing if there are no parameters. -/
def bracketed (p : Parameters) (item : Parameter → ListedItem) : String :=
  if p.items.isEmpty then ""
  else "<" ++ ListedItem.listText (p.items.map item) p.trailing ++ ">"

/-- The text that introduces the parameters. -/
def declared (p : Parameters) : String := p.bracketed Parameter.declaredItem

/-- The text that introduces the parameters with their defaults. -/
def complete (p : Parameters) : String := p.bracketed Parameter.completeItem

/-- The names of the parameters behind the name of the declared type. -/
def named (p : Parameters) : String := p.bracketed Parameter.namedItem

end Parameters

end FilterQuery
