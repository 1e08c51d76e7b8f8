/-
# FilterQuery.Proofs.Language.Delimiting -- lexemes do not see past a delimiter

A semicolon, a comma and a closing parenthesis end whatever lexeme stands before them: none of them
prolongs a bare text or a comparison symbol, and a quoted text that has been read has its own end.
So a lexeme that is found in a text is found in the same place when a delimiter follows the text
(`scan_append`), and the lexemes of a text are the same with a delimiter and anything else behind
them (`Lexes.append`).

Only what is found stays as it is. A text that ends in an open quote, or in a lone `=`, has no
lexeme there, and what follows may give it one.
-/

import FilterQuery.Proofs.Language.Lexemes

namespace FilterQuery

open Text

/-! ## Runs that end -/

section Runs

variable {p : Char → Bool} {rest : List Char}

/-- A run is not prolonged by what begins outside of it. -/
theorem takeWhile_append_of_head? (h : ∀ c ∈ rest.head?, p c = false) (cs : List Char) :
    (cs ++ rest).takeWhile p = cs.takeWhile p := by
  induction cs with
  | nil =>
    cases rest with
    | nil => rfl
    | cons c r => rw [List.nil_append, List.takeWhile_cons_of_neg (by simp [h c rfl])]; rfl
  | cons c cs ih =>
    rw [List.cons_append, List.takeWhile_cons, List.takeWhile_cons, ih]

/-- It leaves the same, and what was appended. -/
theorem dropWhile_append_of_head? (h : ∀ c ∈ rest.head?, p c = false) (cs : List Char) :
    (cs ++ rest).dropWhile p = cs.dropWhile p ++ rest := by
  induction cs with
  | nil =>
    cases rest with
    | nil => rfl
    | cons c r => rw [List.nil_append, List.dropWhile_cons_of_neg (by simp [h c rfl])]; rfl
  | cons c cs ih =>
    rw [List.cons_append, List.dropWhile_cons, List.dropWhile_cons, ih]
    split <;> rfl

variable {row : List Char}

/-- A run that ends is taken whole, and no more than it. -/
theorem takeWhile_append_of_forall (hrow : ∀ c ∈ row, p c = true)
    (h : ∀ c ∈ rest.head?, p c = false) : (row ++ rest).takeWhile p = row := by
  have hrest : rest.takeWhile p = [] := takeWhile_append_of_head? h []
  rw [List.takeWhile_append_of_pos hrow, hrest, List.append_nil]

theorem dropWhile_append_of_forall (hrow : ∀ c ∈ row, p c = true)
    (h : ∀ c ∈ rest.head?, p c = false) : (row ++ rest).dropWhile p = rest := by
  have hrest : rest.dropWhile p = rest := dropWhile_append_of_head? h []
  rw [List.dropWhile_append_of_pos hrow, hrest]

end Runs

/-! ## Delimiters -/

/-- The text is empty or begins with what may follow a constraint in canonical text. -/
def Delimited (cs : List Char) : Prop := ∀ c ∈ cs.head?, c = ';' ∨ c = ',' ∨ c = ')'

theorem Delimited.nil : Delimited [] := by
  intro c hc
  cases hc

theorem Delimited.cons {c : Char} (h : c = ';' ∨ c = ',' ∨ c = ')') (cs : List Char) :
    Delimited (c :: cs) := by
  intro c' hc
  cases hc
  exact h

/-- What none of the delimiters is, the first character is not. -/
theorem Delimited.head?_eq_false {p : Char → Bool} {cs : List Char} (h : Delimited cs)
    (hp : p ';' = false ∧ p ',' = false ∧ p ')' = false) : ∀ c ∈ cs.head?, p c = false := by
  obtain ⟨hsemicolon, hcomma, hclosing⟩ := hp
  intro c hc
  rcases h c hc with rfl | rfl | rfl
  · exact hsemicolon
  · exact hcomma
  · exact hclosing

/-- A bare text ends before what is delimited. -/
theorem Delimited.ends {cs : List Char} (h : Delimited cs) :
    ∀ c ∈ cs.head?, isUnreserved c = false :=
  h.head?_eq_false (by decide)

/-- The letters of a comparison symbol end there, too. -/
theorem Delimited.not_letter {cs : List Char} (h : Delimited cs) :
    ∀ c ∈ cs.head?, isLetter c = false :=
  h.head?_eq_false (by decide)

/-- No blank stands in front of a delimiter. -/
theorem Delimited.not_blank {cs : List Char} (h : Delimited cs) :
    ∀ c ∈ cs.head?, isBlank c = false :=
  h.head?_eq_false (by decide)

theorem Delimited.head?_ne {cs : List Char} (h : Delimited cs) : cs.head? ≠ some '=' := by
  intro hc
  rcases h '=' hc with h | h | h <;> exact absurd h (by decide)

/-! ## One lexeme in front of a delimiter -/

namespace Text.Quoted

/-- A character that is no backslash ends the text or stands for itself. -/
theorem read_cons_of_ne {mark c : Char} (h : c ≠ '\\') (r : List Char) :
    read mark (c :: r) =
      if c = mark then some ⟨[], [c], r⟩
      else (read mark r).map fun d => ⟨c :: d.text, c :: d.spelled, d.rest⟩ := by
  rw [read]
  · exact fun hc _ => h hc
  · exact fun _ _ hc _ => h hc

theorem ne_backslash {c : Char} {r : List Char} (hnil : c = '\\' → r = [] → False)
    (hcons : ∀ c' r', c = '\\' → r = c' :: r' → False) : c ≠ '\\' := by
  intro hc
  cases r with
  | nil => exact hnil hc rfl
  | cons c' r' => exact hcons c' r' hc rfl

/-- A quoted text that ends is read in the same way whatever follows. -/
theorem read_append {mark : Char} {cs : List Char} {d : Reading} (h : read mark cs = some d)
    (rest : List Char) : read mark (cs ++ rest) = some ⟨d.text, d.spelled, d.rest ++ rest⟩ := by
  fun_induction read mark cs generalizing d with
  | case1 => cases h
  | case2 => cases h
  | case3 c r ih =>
    obtain ⟨e, he, rfl⟩ := Option.map_eq_some_iff.1 h
    show (read mark (r ++ rest)).map _ = _
    rw [ih he]
    rfl
  | case4 r hnil hcons =>
    cases h
    rw [List.cons_append, read_cons_of_ne (ne_backslash hnil hcons), if_pos rfl]
  | case5 c r hnil hcons hc ih =>
    obtain ⟨e, he, rfl⟩ := Option.map_eq_some_iff.1 h
    rw [List.cons_append, read_cons_of_ne (ne_backslash hnil hcons), if_neg hc, ih he]
    rfl

end Text.Quoted

namespace Scan

variable {l : Lexeme} {cs s r rest : List Char}

theorem quotation_append {mark : Char} (h : quotation mark cs = .found l s r) :
    quotation mark (cs ++ rest) = .found l s (r ++ rest) := by
  simp only [quotation] at h
  split at h
  · rename_i d hd
    cases h
    rw [quotation, Quoted.read_append hd]
  · cases h

theorem equalsSign_append (h : equalsSign cs = .found l s r) (hrest : Delimited rest) :
    equalsSign (cs ++ rest) = .found l s (r ++ rest) := by
  simp only [equalsSign] at h ⊢
  rw [takeWhile_append_of_head? hrest.not_letter, dropWhile_append_of_head? hrest.not_letter]
  split at h
  · rename_i r' hr
    cases h
    rw [hr]
    rfl
  · cases h

theorem angle_append {c : Char} (h : angle c cs = .found l s r) (hrest : Delimited rest) :
    angle c (cs ++ rest) = .found l s (r ++ rest) := by
  cases cs with
  | nil =>
    -- the symbol is the last character, so what follows must not prolong it
    cases h
    rw [List.nil_append, angle]
    rintro r' rfl
    exact hrest.head?_ne rfl
  | cons c' cs =>
    simp only [angle] at h
    split at h
    · rename_i hcs
      cases hcs
      cases h
      rfl
    · rename_i hcs
      cases h
      rw [angle]
      rintro r' hr'
      cases hr'
      exact hcs _ rfl

theorem exclamation_append (h : exclamation cs = .found l s r) :
    exclamation (cs ++ rest) = .found l s (r ++ rest) := by
  simp only [exclamation] at h
  split at h
  · cases h
    rfl
  · cases h

theorem run_append (h : run cs = .found l s r) (hrest : Delimited rest) :
    run (cs ++ rest) = .found l s (r ++ rest) := by
  cases h
  rw [run, takeWhile_append_of_head? hrest.ends, dropWhile_append_of_head? hrest.ends]

end Scan

/-- A lexeme other than the end is found in the same place when a delimiter follows the text. -/
theorem scan_append {l : Lexeme} {cs s r rest : List Char} (h : scan cs = .found l s r)
    (hl : l ≠ .eof) (hrest : Delimited rest) : scan (cs ++ rest) = .found l s (r ++ rest) := by
  cases cs with
  | nil =>
    cases h
    exact absurd rfl hl
  | cons c t =>
    -- what follows does not change the first character
    rw [List.cons_append, scan_cons_iff]
    have hbegins := scan_cons_iff.1 h
    generalize hx : Scan.found l s r = x at hbegins
    cases hbegins with
    | mark hc =>
      cases hx
      exact .mark hc
    | quotation hc =>
      rw [← Scan.quotation_append hx.symm]
      exact .quotation hc
    | equalsSign hc =>
      rw [← Scan.equalsSign_append hx.symm hrest]
      exact .equalsSign hc
    | angle hc =>
      rw [← Scan.angle_append hx.symm hrest]
      exact .angle hc
    | exclamation hc =>
      rw [← Scan.exclamation_append hx.symm]
      exact .exclamation hc
    | run hc =>
      rw [← Scan.run_append hx.symm hrest]
      exact .run hc
    | illegal _ => cases hx

/-! ## The lexemes of a text in front of a delimiter -/

/-- Blanks in front of a text do not show in its lexemes. -/
theorem Lexes.of_skipBlanks_eq {cs ds : List Char} {ls : List Lexeme} (hl : Lexes cs ls)
    (h : skipBlanks cs = skipBlanks ds) : Lexes ds ls := by
  cases hl with
  | eof hb => exact .eof (h ▸ hb)
  | token hs hne hr => exact .token (h ▸ hs) hne hr

/-- The lexemes of a text, and behind a delimiter those of what follows. -/
theorem Lexes.append {cs rest : List Char} {ls ms : List Lexeme} (h : Lexes cs ls)
    (h' : Lexes rest ms) (hrest : Delimited rest) : Lexes (cs ++ rest) (ls ++ ms) := by
  have hskip : ∀ ds, skipBlanks (ds ++ rest) = skipBlanks ds ++ rest :=
    dropWhile_append_of_head? hrest.not_blank
  induction h with
  | eof hb =>
    refine h'.of_skipBlanks_eq ?_
    rw [hskip, hb]
    exact hskip []
  | token hs hne _ ih =>
    have hscan := scan_append hs hne hrest
    rw [← hskip] at hscan
    exact .token hscan hne ih

end FilterQuery
