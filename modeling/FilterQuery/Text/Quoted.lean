/-
# FilterQuery.Text.Quoted -- quoted text

A quoted text stands between two equal quotes, and a backslash takes the character after it as
it is. `escape` writes the inside of a text in single quotes, with a backslash before each quote
and each backslash; `read` accepts a backslash before any character and both kinds of quote.
-/

namespace FilterQuery.Text.Quoted

/-- The inside of `cs` in single quotes. -/
def escape : List Char → List Char
  | [] => []
  | c :: r => if c = '\'' ∨ c = '\\' then '\\' :: c :: escape r else c :: escape r

/-- The text in single quotes. -/
def quote (s : String) : String := String.ofList ('\'' :: escape s.toList ++ ['\''])

/-- What reading the inside of a quoted text gives: the characters that it stands for, those that
were read, the closing quote included, and what follows. -/
structure Reading where
  text : List Char
  spelled : List Char
  rest : List Char

/-- Reads up to the closing `mark`; the opening one has been read. There is no reading when the
text ends first, be it directly behind a backslash. -/
def read (mark : Char) : List Char → Option Reading
  | [] => none
  | ['\\'] => none
  | '\\' :: c :: r => (read mark r).map fun d => ⟨c :: d.text, '\\' :: c :: d.spelled, d.rest⟩
  | c :: r =>
    if c = mark then some ⟨[], [c], r⟩
    else (read mark r).map fun d => ⟨c :: d.text, c :: d.spelled, d.rest⟩

/-- Reading loses nothing: what was read and what follows make up the text. -/
theorem spelled_append_rest {mark : Char} {cs : List Char} {d : Reading}
    (h : read mark cs = some d) : d.spelled ++ d.rest = cs := by
  fun_induction read mark cs generalizing d with
  | case1 => simp at h
  | case2 => simp at h
  | case3 c r ih =>
    obtain ⟨e, he, rfl⟩ := Option.map_eq_some_iff.1 h
    simp [ih he]
  | case4 c r _ =>
    cases h
    simp
  | case5 c r _ _ _ ih =>
    obtain ⟨e, he, rfl⟩ := Option.map_eq_some_iff.1 h
    simp [ih he]

end FilterQuery.Text.Quoted
