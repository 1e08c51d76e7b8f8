/-
# FilterQuery.Declaration.Enumeration -- enumeration types of declared enumerations

An enumeration whose variants carry no data declares an enumeration type. The enumeration and its
variants may be renamed.
-/

import FilterQuery.Code.Token.Lexer
import FilterQuery.Declaration.Options
import FilterQuery.Declaration.Record
import FilterQuery.Value.Type

namespace FilterQuery

/-- A variant of a declared enumeration. -/
structure VariantDeclaration where
  name : String
  carriesData : Bool := false
  options : List WrittenOption := []
  deriving Repr, DecidableEq

/-- A declared enumeration. -/
structure EnumDeclaration where
  name : String
  options : List WrittenOption := []
  variants : List VariantDeclaration
  deriving Repr, DecidableEq

/-- Whether the text behind the name of a variant gives it data. A number that it is given is
none. -/
def VariantDeclaration.isData (text : String) : Bool :=
  match Code.Token.read text with
  | [] | .mark '=' _ :: _ => false
  | _ => true

namespace EnumDeclaration

/-- The options of variants: their name. -/
def variantOption : String → Option (OptionEffect String)
  | "rename" => some (.key fun v _ => v)
  | _ => none

/-- The name of a variant. -/
def variantName (e : EnumDeclaration) (v : VariantDeclaration) :
    Except DeclarationFailure String :=
  if v.carriesData then .error (.variantData e.name v.name)
  else readOptions .variant variantOption v.name v.options

/-- The enumeration type that is declared. -/
def enumType (e : EnumDeclaration) : Except DeclarationFailure EnumType := do
  let name ← readOptions .enumeration nameOption e.name e.options
  return ⟨name, ← e.variants.mapM e.variantName⟩

end EnumDeclaration

end FilterQuery
