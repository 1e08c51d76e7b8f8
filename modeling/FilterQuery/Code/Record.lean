/-
# FilterQuery.Code.Record -- records, unions and enumerations

The items that list what values consist of. Variants lose what is said of their visibility. A field
without a name of its own that is a record or a union is shown as it is written.
-/

import FilterQuery.Code.Statement

namespace FilterQuery.Code

/-- Whether brackets behind the word `pub` say to whom something is visible. -/
def isRestriction : Row → Bool
  | .group .round inside :: _ =>
    isWord "in" inside || (isWordOf ["crate", "self", "super"] inside && inside.tail.isEmpty)
  | _ => false

/-- To whom something is visible. -/
def visibility : Reader String :=
  ifAhead (isWord "pub") (inOrder [word "pub", ifAhead isRestriction anyGroup])

namespace Grammar

/-! ## Fields -/

/-- The type of a field. Without a name for it, the field can be a record or a union itself. -/
def fieldType (g : Grammar) (nameless : Bool) : Reader String :=
  let isNested (r : Row) := nameless && (isWord "struct" r || isWordBlock "union" r)
  choose [(isNested, asWritten (inOrder [anyWord, anyGroup])), (fun _ => true, g.typeText)]

/-- A field with a name. -/
def namedField (g : Grammar) : Reader String := do
  let announced ← inOrder [g.attributes, visibility]
  let nameless := isWord "_" (← get)
  inOrder [return announced, choose [(isWord "_", anyWord), (fun _ => true, name)], sign ":",
    g.fieldType nameless]

/-- Fields with names. -/
def namedFields (g : Grammar) : Reader String := group .curly (listed g.namedField)

/-- Fields without names. -/
def placedFields (g : Grammar) : Reader String :=
  group .round (listed (inOrder [g.attributes, visibility, g.typeText]))

/-! ## Items -/

/-- A record. Conditions stand behind fields without names and before fields with names. -/
def record (g : Grammar) : Reader String :=
  inOrder [word "struct", name, g.parametersText, choose [
    (isGroup .round, inOrder [g.placedFields, g.conditions, sign ";"]),
    (fun _ => true, inOrder [g.conditions, choose [
      (isGroup .curly, g.namedFields), (fun _ => true, sign ";")]])]]

/-- A union. -/
def union (g : Grammar) : Reader String :=
  inOrder [word "union", name, g.parametersText, g.conditions, g.namedFields]

/-- A variant of an enumeration. -/
def variant (g : Grammar) : Reader String := do
  let attributes ← g.attributes
  let _ ← visibility
  inOrder [return attributes, name,
    choose [
      (isGroup .curly, g.namedFields),
      (isGroup .round, g.placedFields),
      (fun _ => true, return "")],
    ifAhead (isSign "=") (inOrder [sign "=", g.value true])]

/-- An enumeration. -/
def enumeration (g : Grammar) : Reader String :=
  inOrder [word "enum", name, g.parametersText, g.conditions, group .curly (listed g.variant)]

end Grammar

end FilterQuery.Code
