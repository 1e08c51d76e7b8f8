/-
# FilterQuery.Sql -- conditions as text in the manner of SQL

A comparison becomes a condition on a column that is named by the path of attributes. The
operators of the language that SQL has too are written its way, by their primary symbols; all
others are written with their symbol and a list of values.
-/

import FilterQuery.Resolve.Condition

namespace FilterQuery

namespace Sql

/-- A pattern with `%` for each `*`. -/
def pattern (s : String) : String :=
  String.ofList (s.toList.map fun c => if c = '*' then '%' else c)

/-- The condition of a leaf. -/
def leaf (l : Leaf) : String :=
  let column := l.attributePath
  let values := l.values.map Value.render
  let first := values.headD ""
  let last := values.getLastD ""
  let list := String.intercalate ", " values
  match l.operator.primary with
  | "==" => s!"{column} = {first}"
  | "!=" => s!"{column} <> {first}"
  | "=gt=" => s!"{column} > {first}"
  | "=ge=" => s!"{column} >= {first}"
  | "=lt=" => s!"{column} < {first}"
  | "=le=" => s!"{column} <= {first}"
  | "=in=" => s!"{column} IN ({list})"
  | "=out=" => s!"{column} NOT IN ({list})"
  | "=bt=" => s!"{column} BETWEEN {first} AND {last}"
  | "=like=" =>
    let text := pattern first
    s!"{column} LIKE {text}"
  | symbol => s!"{column} {symbol} ({list})"

/-- Texts as conditions. -/
def builder : ConditionBuilder String where
  leaf l := .ok (leaf l)
  and l r := s!"({l} AND {r})"
  or l r := s!"({l} OR {r})"
  always := "1 = 1"

end Sql

end FilterQuery
