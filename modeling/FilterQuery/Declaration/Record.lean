/-
# FilterQuery.Declaration.Record -- schemas of declared records

A record with named fields declares an entity with an attribute for each field. Which attribute,
its options and the shape of its type decide together. What is generated still speaks of other
declared types by their type expressions: their names as entities and their enumerations become
known only when all declarations come together, and `EntityTemplate.instantiate` puts them in.

A field that is embedded or associated makes the record depend on the type of its values.
-/

import FilterQuery.Declaration.Inference
import FilterQuery.Declaration.Options
import FilterQuery.Declaration.Parameters
import FilterQuery.Schema.Family

namespace FilterQuery

/-! ## Declarations -/

/-- A field of a declared record. -/
structure FieldDeclaration where
  name : Option String
  type : TypeExpr
  options : List WrittenOption := []

/-- A declared record. There are no fields to speak of in a record without a list of fields. -/
structure RecordDeclaration where
  name : String
  parameters : Parameters := {}
  options : List WrittenOption := []
  fields : Option (List FieldDeclaration)

/-! ## Options -/

/-- What the options of a field say: that it holds a value object, an entity or a variant of an
enumeration, that it is no attribute, or how the attribute and its type are named. -/
structure FieldOptions where
  embedded : Bool := false
  association : Bool := false
  enumeration : Bool := false
  skip : Bool := false
  rename : Option String := none
  valueType : Option String := none
  deriving Repr, DecidableEq

namespace FieldOptions

/-- The options of fields. -/
def admitted : String → Option (OptionEffect FieldOptions)
  | "embedded" => some (.flag fun o => { o with embedded := true })
  | "association" => some (.flag fun o => { o with association := true })
  | "enumeration" => some (.flag fun o => { o with enumeration := true })
  | "skip" => some (.flag fun o => { o with skip := true })
  | "rename" => some (.key fun v o => { o with rename := some v })
  | "value_type" => some (.key fun v o => { o with valueType := some v })
  | _ => none

/-- Whether the options say different things about the type of the field. -/
def conflicting (o : FieldOptions) : Bool :=
  1 < [o.embedded, o.association, o.enumeration, o.valueType.isSome].countP (·)

/-- What some options say, if they agree. -/
def read (options : List WrittenOption) : Except DeclarationFailure FieldOptions := do
  let o ← readOptions .field admitted {} options
  if o.conflicting then throw .conflictingOptions
  return o

end FieldOptions

/-- The options of records and enumerations: their name. -/
def nameOption : String → Option (OptionEffect String)
  | "name" => some (.key fun v _ => v)
  | _ => none

/-! ## Templates -/

/-- The type of a generated attribute: one that is known, or the enumeration or the entity that a
type declares. -/
inductive TypeTemplate where
  | known (t : ValueType)
  | enumeration (t : TypeExpr)
  | entity (t : TypeExpr)

/-- A generated attribute. An association refers to one entity or to many, and the elements of a
collection are scalars or value objects. -/
inductive AttributeTemplate where
  | basic (name : String) (t : TypeTemplate)
  | embedded (name : String) (target : TypeExpr)
  | association (name : String) (target : TypeExpr) (collection : Bool)
  | elementCollection (name : String) (t : TypeTemplate)

/-- What is generated for a declared record. The types that the entity depends on are listed with
repetitions. -/
structure EntityTemplate where
  name : String
  parameters : Parameters
  entityName : String
  attributes : List AttributeTemplate
  dependencies : List TypeExpr

namespace FieldDeclaration

/-- The type of the values of a field that refers to no entity. -/
def valueTemplate (o : FieldOptions) (inner : TypeExpr) :
    Except DeclarationFailure TypeTemplate :=
  if o.enumeration then .ok (.enumeration inner)
  else match o.valueType.or inner.name? with
    | some name => .ok (.known (.ofDeclaredName name))
    | none => .error .unnamedType

/-- What a field adds to an entity: an attribute, and a type that it makes the entity depend on. -/
structure Contribution where
  attribute? : Option AttributeTemplate := none
  dependency? : Option TypeExpr := none

/-- What a field with a name adds to an entity, by what its options say. -/
def contribute (o : FieldOptions) (name : String) (t : TypeExpr) :
    Except DeclarationFailure Contribution :=
  let shape := t.shape
  if o.association then
    .ok ⟨some (.association name shape.inner shape.collection), some shape.inner⟩
  else if o.embedded then
    .ok ⟨some (if shape.collection then .elementCollection name (.entity shape.inner)
      else .embedded name shape.inner), some shape.inner⟩
  else do
    let type ← valueTemplate o shape.inner
    return ⟨some (if shape.collection then .elementCollection name type else .basic name type),
      none⟩

/-- What a field adds to an entity. -/
def contribution (f : FieldDeclaration) : Except DeclarationFailure Contribution := do
  let o ← FieldOptions.read f.options
  match o.skip, o.rename.or f.name with
  | false, some name => contribute o name f.type
  | _, _ => return {}

end FieldDeclaration

namespace RecordDeclaration

/-- The fields of a record, if all of them have names. -/
def namedFields? (r : RecordDeclaration) : Option (List FieldDeclaration) :=
  r.fields.filter fun fields => fields.all (·.name.isSome)

/-- The entity that a record declares. -/
def entity (r : RecordDeclaration) : Except DeclarationFailure EntityTemplate := do
  let entityName ← readOptions .record nameOption r.name r.options
  match r.namedFields? with
  | none => throw (.unnamedFields r.name)
  | some fields =>
    let contributions ← fields.mapM FieldDeclaration.contribution
    return ⟨r.name, r.parameters, entityName, contributions.filterMap (·.attribute?),
      contributions.filterMap (·.dependency?)⟩

end RecordDeclaration

/-! ## Instances -/

/-- What declared types come to: an entity, by its name, or an enumeration. -/
structure DeclaredTypes where
  entityName : TypeExpr → String
  enumType : TypeExpr → EnumType

namespace DeclaredTypes

/-- The type of an attribute. -/
def valueType (d : DeclaredTypes) : TypeTemplate → ValueType
  | .known t => t
  | .enumeration t => .enum (d.enumType t)
  | .entity t => .entity (d.entityName t)

/-- An attribute. -/
def attr (d : DeclaredTypes) : AttributeTemplate → Attribute
  | .basic name t => .basic name (d.valueType t)
  | .embedded name target => .embedded name (d.entityName target)
  | .association name target collection => .association name (d.entityName target) collection
  | .elementCollection name t => .elementCollection name (d.valueType t)

end DeclaredTypes

namespace EntityTemplate

/-- The type that is declared, with its parameters. -/
def selfType (e : EntityTemplate) : String := e.name ++ e.parameters.named

/-- The entity type that a template comes to. Types are known by their texts. -/
def instantiate (d : DeclaredTypes) (e : EntityTemplate) : EntityType where
  key := e.selfType
  schema := .ofAttributes e.entityName (e.attributes.map d.attr)
  dependencies := e.dependencies.map TypeExpr.text

end EntityTemplate

end FilterQuery
