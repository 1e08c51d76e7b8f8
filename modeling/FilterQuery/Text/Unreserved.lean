/-
# FilterQuery.Text.Unreserved -- characters that need no quotes

Selectors and bare arguments are runs of *unreserved* characters: all of Unicode but blanks and
the twelve characters that the query language uses for itself.
-/

import FilterQuery.Text.Blank

namespace FilterQuery.Text

/-- The characters that the query language uses for itself. -/
def reserved : List Char :=
  ['"', '\'', '(', ')', ';', ',', '=', '!', '~', '<', '>', ' ']

/-- Whether `c` may stand in a text that is not quoted. -/
def isUnreserved (c : Char) : Bool := !reserved.contains c && !isBlank c

/-- Whether `s` can be written without quotes: it is not empty and all of it is unreserved. -/
def isBare (s : String) : Bool := !s.toList.isEmpty && s.toList.all isUnreserved

end FilterQuery.Text
