/-
# FilterQuery.Declaration.Inference -- what the type of a field says about an attribute

Some names say nothing about values: optional and shared ones are looked through, however many of
them stand around each other. Others are collections of their argument. Beneath the wrappers, at
most one collection and the wrappers of its elements lies the type that matters, and its name says
of which type the values are.

Without an argument that is a type, the name of a wrapper or a collection is a name as any other.
-/

import FilterQuery.Declaration.TypeExpr
import FilterQuery.Value.Type

namespace FilterQuery

namespace TypeExpr

/-- The names that are looked through. -/
def wrappers : List String := ["Option", "Box", "Arc", "Rc"]

/-- The names of collections. -/
def collections : List String := ["Vec", "HashSet", "BTreeSet", "VecDeque", "LinkedList"]

mutual

/-- The type beneath all wrappers around it. -/
def unwrap : TypeExpr → TypeExpr
  | path lead name (.angle opening items trailing) =>
    if wrappers.contains name then
      (unwrapFirst? items).getD (path lead name (.angle opening items trailing))
    else path lead name (.angle opening items trailing)
  | t => t

/-- The type beneath all wrappers around the first type of a list. -/
def unwrapFirst? : List TypeArgument → Option TypeExpr
  | [] => none
  | .type t :: _ => some (unwrap t)
  | _ :: r => unwrapFirst? r

end

/-- The type of the elements, if a type is a collection. -/
def element? : TypeExpr → Option TypeExpr
  | path _ name arguments => if collections.contains name then arguments.firstType? else none
  | _ => none

end TypeExpr

/-- What the type of a field comes to: the type of the values, and whether there can be many of
them. -/
structure FieldShape where
  inner : TypeExpr
  collection : Bool

/-- The shape of a field of type `t`. -/
def TypeExpr.shape (t : TypeExpr) : FieldShape :=
  match t.unwrap.element? with
  | some e => ⟨e.unwrap, true⟩
  | none => ⟨t.unwrap, false⟩

namespace ValueType

/-- The scalar type that goes by a name in declarations. -/
def scalar? : String → Option ValueType
  | "bool" => some bool
  | "i8" => some (int .i8)
  | "i16" => some (int .i16)
  | "i32" => some (int .i32)
  | "i64" | "isize" => some (int .i64)
  | "u8" => some (int .u8)
  | "u16" => some (int .u16)
  | "u32" => some (int .u32)
  | "u64" | "usize" => some (int .u64)
  | "f32" => some (float .f32)
  | "f64" => some (float .f64)
  | "char" => some char
  | "String" | "str" => some string
  | "Uuid" => some uuid
  | "NaiveDate" => some date
  | "NaiveTime" => some time
  | "NaiveDateTime" => some dateTime
  | "DateTime" => some offsetDateTime
  | _ => none

/-- The type that goes by a name in declarations: a scalar type or a custom one. -/
def ofDeclaredName (name : String) : ValueType := (scalar? name).getD (custom name)

end ValueType

end FilterQuery
