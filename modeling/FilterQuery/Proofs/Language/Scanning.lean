/-
# FilterQuery.Proofs.Language.Scanning -- what is found is what is spelled

How a lexeme may be spelled, and what must not follow it, is told without the tokenizer
(`Lexeme.Spells`, `Lexeme.Stops`). That is all of scanning: a lexeme is found in a text just when
the text is one of its spellings and something that does not prolong it (`scan_eq_found_iff`). And
wherever a spelling of any lexeme begins something is found, be it a longer one
(`exists_found_of_spells`), so scanning fails just where none begins.

The same is told of a step, which skips blanks before it scans (`Cursor.next_of_spells`).
-/

import FilterQuery.Proofs.Language.Spelling
import FilterQuery.Proofs.Language.Tiling

namespace FilterQuery

open Text

/-! ## Spellings that are found -/

/-- Content that unescapes is read up to the quote behind it. -/
theorem Text.Quoted.read_of_unescapes {mark : Char} {content text : List Char}
    (hmark : mark ≠ '\\') (h : Unescapes mark content text) (rest : List Char) :
    read mark (content ++ mark :: rest) = some ⟨text, content ++ [mark], rest⟩ := by
  induction h with
  | nil => rw [List.nil_append, read_cons_of_ne hmark, if_pos rfl, List.nil_append]
  | plain hne hbackslash _ ih =>
    rw [List.cons_append, read_cons_of_ne hbackslash, if_neg hne, ih]
    rfl
  | @escaped c content text _ ih =>
    show (read mark (content ++ mark :: rest)).map _ = _
    rw [ih]
    rfl

theorem ne_backslash_of_quote {mark : Char} (h : mark = '"' ∨ mark = '\'') : mark ≠ '\\' := by
  rcases h with rfl | rfl <;> decide

variable {l : Lexeme} {cs s r rest : List Char}

/-- A lexeme is found where it is spelled, unless what follows prolongs it. -/
theorem scan_of_spells (h : l.Spells s) (hstops : l.Stops rest) :
    scan (s ++ rest) = .found l s rest := by
  cases h with
  | mark h => exact scan_cons_iff.2 (.mark h)
  | operator h => exact scan_symbol h hstops
  | bare h => exact scan_bare h hstops
  | quoted hmark hcontent =>
    have hread := Quoted.read_of_unescapes (ne_backslash_of_quote hmark) hcontent rest
    rw [List.cons_append, List.append_assoc, List.singleton_append]
    rw [scan_cons_iff.2 (.quotation hmark), Scan.quotation, hread]
    simp only [String.ofList_toList]

/-- The end has no spelling. -/
theorem Lexeme.Spells.ne_eof (h : l.Spells s) : l ≠ .eof := by
  rintro rfl
  cases h with
  | mark h => simp [Lexeme.marks] at h

/-- Scanning finds exactly the lexemes that are spelled and stop. -/
theorem scan_eq_found_iff (hl : l ≠ .eof) :
    scan cs = .found l s r ↔ cs = s ++ r ∧ l.Spells s ∧ l.Stops r := by
  constructor
  · intro h
    have happend := Scan.spelled_append_rest cs
    rw [h] at happend
    exact ⟨happend.symm, spells_of_scan h hl⟩
  · rintro ⟨rfl, hspells, hstops⟩
    exact scan_of_spells hspells hstops

theorem Scan.exists_angle_eq_found (c : Char) (t : List Char) :
    ∃ l s r, angle c t = .found l s r := by
  rw [angle.eq_def]
  split <;> exact ⟨_, _, _, rfl⟩

/-- Where a spelling begins something is found; it may be a longer one, of another lexeme. -/
theorem exists_found_of_spells (h : l.Spells s) (rest : List Char) :
    ∃ l' s' r', scan (s ++ rest) = .found l' s' r' := by
  by_cases hstops : l.Stops rest
  · exact ⟨l, s, rest, scan_of_spells h hstops⟩
  · cases h with
    | mark h =>
      refine absurd ?_ hstops
      simp only [Lexeme.marks, List.mem_cons, Prod.mk.injEq, List.not_mem_nil, or_false] at h
      rcases h with ⟨-, rfl⟩ | ⟨-, rfl⟩ | ⟨-, rfl⟩ | ⟨-, rfl⟩ <;> trivial
    | operator h =>
      -- only the symbols of one character can be prolonged
      rw [Lexeme.Stops, Classical.not_imp] at hstops
      obtain ⟨rfl | rfl, -⟩ := hstops
      · exact Scan.exists_angle_eq_found '<' rest
      · exact Scan.exists_angle_eq_found '>' rest
    | bare h =>
      obtain ⟨c, r, hcr, hc⟩ := exists_cons_of_isBare h
      rw [hcr]
      exact ⟨_, _, _, scan_cons_iff.2 (.run hc)⟩
    | quoted => exact absurd trivial hstops

/-- No blank begins the spelling of a lexeme. -/
theorem Lexeme.Spells.exists_cons (h : l.Spells s) : ∃ c t, s = c :: t ∧ isBlank c = false := by
  cases h with
  | @mark c _ h =>
    refine ⟨c, [], rfl, ?_⟩
    simp only [Lexeme.marks, List.mem_cons, Prod.mk.injEq, List.not_mem_nil, or_false] at h
    rcases h with ⟨rfl, -⟩ | ⟨rfl, -⟩ | ⟨rfl, -⟩ | ⟨rfl, -⟩ <;> decide
  | operator h =>
    obtain ⟨c, t, hct, -, hblank⟩ := exists_cons_of_isSymbol h
    exact ⟨c, t, hct, hblank⟩
  | bare h =>
    obtain ⟨c, t, hct, hc⟩ := exists_cons_of_isBare h
    exact ⟨c, t, hct, isBlank_of_isUnreserved hc⟩
  | quoted hmark => exact ⟨_, _, rfl, by rcases hmark with rfl | rfl <;> decide⟩

/-! ## Steps that find -/

theorem skipBlanks_append {gap : List Char} (h : ∀ c ∈ gap, isBlank c = true) (cs : List Char) :
    skipBlanks (gap ++ cs) = skipBlanks cs :=
  List.dropWhile_append_of_pos h

theorem leadingBlanks_append {gap : List Char} (h : ∀ c ∈ gap, isBlank c = true)
    (cs : List Char) : leadingBlanks (gap ++ cs) = gap ++ leadingBlanks cs :=
  List.takeWhile_append_of_pos h

/-- A step from blanks is a step from behind them. -/
theorem Cursor.next_skip {gap : List Char} (hgap : ∀ c ∈ gap, isBlank c = true) (p : Position)
    (cs : List Char) : Cursor.next ⟨p, gap ++ cs⟩ = Cursor.next ⟨p.after gap, cs⟩ := by
  rw [next_eq, next_eq, skipBlanks_append hgap, leadingBlanks_append hgap, Position.after_append]

/-- What a step gives that has scanned this at a place. -/
def Scan.outcome (p : Position) : Scan → Except LexicalFault Token × Cursor
  | found l s r => (.ok ⟨l, p⟩, ⟨p.after s, r⟩)
  | illegal x s r => (.error ⟨x, p.offset⟩, ⟨p.after s, r⟩)

/-- Where no blank stands a step is one scan. -/
theorem Cursor.next_cons {c : Char} (hc : isBlank c = false) (p : Position) (t : List Char) :
    Cursor.next ⟨p, c :: t⟩ = (scan (c :: t)).outcome p := by
  have hleading : leadingBlanks (c :: t) = [] := by
    rw [leadingBlanks, List.takeWhile_cons_of_neg (by simp [hc])]
  rw [next_eq, skipBlanks_cons hc, hleading]
  cases scan (c :: t) <;> rfl

/-- Behind blanks a spelled lexeme is read in one step, unless what follows prolongs it. -/
theorem Cursor.next_of_spells {gap : List Char} (hgap : ∀ c ∈ gap, isBlank c = true)
    (h : l.Spells s) (hstops : l.Stops rest) (p : Position) :
    Cursor.next ⟨p, gap ++ (s ++ rest)⟩ =
      (.ok ⟨l, p.after gap⟩, ⟨(p.after gap).after s, rest⟩) := by
  obtain ⟨c, t, rfl, hc⟩ := h.exists_cons
  have hscan := scan_of_spells h hstops
  rw [List.cons_append] at hscan ⊢
  rw [next_skip hgap, next_cons hc, hscan, Scan.outcome]

/-- Where only blanks are left the end is read. -/
theorem Cursor.next_of_blanks {gap : List Char} (hgap : ∀ c ∈ gap, isBlank c = true)
    (p : Position) : Cursor.next ⟨p, gap⟩ = (.ok ⟨.eof, p.after gap⟩, ⟨p.after gap, []⟩) := by
  have hskip : skipBlanks gap = [] := List.dropWhile_eq_nil_iff.2 hgap
  have hleading : leadingBlanks gap = gap := List.takeWhile_eq_self_iff.2 hgap
  rw [next_eq, hskip, hleading]
  rfl

end FilterQuery
