/-
# FilterQuery.Declaration.TypeExpr.Reader -- types and parameters as text

A text writes a type if all of it is one. A text writes parameters if it is empty or starts with a
list of them in angle brackets.
-/

import FilterQuery.Code.Language

namespace FilterQuery

open Code

/-- The type that a text writes. -/
def TypeExpr.read? (s : String) : Option TypeExpr := Language.read? (·.anyType true) s

/-- The parameters that a text writes. What stands behind the closing bracket is passed over. -/
def Parameters.read? (s : String) : Option Parameters :=
  Language.read? (fun g => do
    let p ← g.parameters
    set ([] : Row)
    return p) s

end FilterQuery
