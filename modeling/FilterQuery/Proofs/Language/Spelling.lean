/-
# FilterQuery.Proofs.Language.Spelling -- what written lexemes are read as

Each lexeme that canonical text is made of is read back as itself, with any text behind it that it
cannot run into: a bare text must not meet a character that could prolong it, `<` and `>` must not
meet `=`. Quoted texts and punctuation end by themselves.
-/

import FilterQuery.Node
import FilterQuery.Proofs.Language.Delimiting

namespace FilterQuery

open Text

/-! ## Quoted texts -/

namespace Text.Quoted

/-- Reading in single quotes undoes escaping. -/
theorem read_escape (cs rest : List Char) :
    read '\'' (escape cs ++ '\'' :: rest) = some ⟨cs, escape cs ++ ['\''], rest⟩ := by
  induction cs with
  | nil => rfl
  | cons c r ih =>
    by_cases hc : c = '\'' ∨ c = '\\'
    · rw [escape, if_pos hc]
      show (read '\'' (escape r ++ '\'' :: rest)).map _ = _
      rw [ih]
      rfl
    · rw [escape, if_neg hc]
      rw [not_or] at hc
      rw [List.cons_append, read, if_neg hc.1, ih]
      · rfl
      · exact fun h _ => hc.2 h
      · exact fun _ _ h _ => hc.2 h

end Text.Quoted

/-! ## Comparison symbols -/

theorem Text.isLetter_equalsSign : isLetter '=' = false := by decide

/-- The ASCII letters, by their code points. -/
theorem Text.isLetter_iff {c : Char} :
    isLetter c = true ↔ (65 ≤ c.toNat ∧ c.toNat ≤ 90) ∨ (97 ≤ c.toNat ∧ c.toNat ≤ 122) := by
  have hupper : c.isUpper = true ↔ 65 ≤ c.toNat ∧ c.toNat ≤ 90 := decide_eq_true_iff
  have hlower : c.isLower = true ↔ 97 ≤ c.toNat ∧ c.toNat ≤ 122 :=
    Bool.and_eq_true_iff.trans (and_congr decide_eq_true_iff decide_eq_true_iff)
  exact Bool.or_eq_true_iff.trans (or_congr hupper hlower)

/-- The shapes of a comparison symbol. -/
theorem isSymbolText_cases {cs : List Char} (h : isSymbolText cs = true) :
    (∃ c, (c = '<' ∨ c = '>') ∧ (cs = [c] ∨ cs = [c, '='])) ∨ cs = ['!', '='] ∨
      ∃ letters, (∀ c ∈ letters, isLetter c = true) ∧ cs = '=' :: (letters ++ ['=']) := by
  rw [isSymbolText.eq_def] at h
  split at h
  · exact .inl ⟨'<', .inl rfl, .inl rfl⟩
  · exact .inl ⟨'>', .inr rfl, .inl rfl⟩
  · exact .inl ⟨'<', .inl rfl, .inr rfl⟩
  · exact .inl ⟨'>', .inr rfl, .inr rfl⟩
  · exact .inr (.inl rfl)
  · rename_i r
    refine .inr (.inr ⟨r.takeWhile isLetter, List.all_eq_true.1 List.all_takeWhile, ?_⟩)
    rw [← eq_of_beq h, List.takeWhile_append_dropWhile]
  · cases h

/-- A comparison symbol is not empty, and begins neither a bare text nor a gap. -/
theorem exists_cons_of_isSymbol {s : String} (h : isSymbol s = true) :
    ∃ c r, s.toList = c :: r ∧ isUnreserved c = false ∧ isBlank c = false := by
  rcases isSymbolText_cases h with ⟨c, hc, h | h⟩ | h | ⟨letters, -, h⟩
  · exact ⟨c, [], h, by rcases hc with rfl | rfl <;> decide⟩
  · exact ⟨c, ['='], h, by rcases hc with rfl | rfl <;> decide⟩
  · exact ⟨'!', ['='], h, by decide⟩
  · exact ⟨'=', letters ++ ['='], h, by decide⟩

/-- A comparison symbol begins with a character that ends a bare text. -/
theorem isUnreserved_head_of_isSymbol {s : String} (h : isSymbol s = true) (rest : List Char) :
    ∀ c ∈ (s.toList ++ rest).head?, isUnreserved c = false := by
  obtain ⟨c, r, hcr, hc, -⟩ := exists_cons_of_isSymbol h
  rw [hcr]
  rintro x hx
  cases hx
  exact hc

/-- A bare text is not empty, and its first character is unreserved. -/
theorem exists_cons_of_isBare {s : String} (h : isBare s = true) :
    ∃ c r, s.toList = c :: r ∧ isUnreserved c = true := by
  simp only [isBare, Bool.and_eq_true, Bool.not_eq_true', List.isEmpty_eq_false_iff] at h
  obtain ⟨c, r, hcr⟩ := List.exists_cons_of_ne_nil h.1
  refine ⟨c, r, hcr, List.all_eq_true.1 h.2 c ?_⟩
  rw [hcr]
  exact List.mem_cons_self

/-! ## One lexeme in front of others -/

theorem isBlank_of_isUnreserved {c : Char} (h : isUnreserved c = true) : isBlank c = false := by
  simp only [isUnreserved, Bool.and_eq_true, Bool.not_eq_true'] at h
  exact h.2

/-- A run of unreserved characters ends where the next character is none. -/
theorem scan_bare {s : String} {rest : List Char} (hs : isBare s = true)
    (hrest : ∀ c ∈ rest.head?, isUnreserved c = false) :
    scan (s.toList ++ rest) = .found (.bare s) s.toList rest := by
  obtain ⟨c, r, hcr, hc⟩ := exists_cons_of_isBare hs
  have hall : ∀ c ∈ s.toList, isUnreserved c = true :=
    List.all_eq_true.1 (Bool.and_eq_true _ _ ▸ hs).2
  have hrun : Scan.run (s.toList ++ rest) = .found (.bare s) s.toList rest := by
    rw [Scan.run, takeWhile_append_of_forall hall hrest, dropWhile_append_of_forall hall hrest,
      String.ofList_toList]
  rw [hcr, List.cons_append] at hrun ⊢
  rw [← hrun]
  exact scan_cons_iff.2 (.run hc)

/-- A comparison symbol is read whole, unless it is `<` or `>` and `=` follows. -/
theorem scan_symbol {s : String} {rest : List Char} (hs : isSymbol s = true)
    (hrest : s = "<" ∨ s = ">" → rest.head? ≠ some '=') :
    scan (s.toList ++ rest) = .found (.operator s) s.toList rest := by
  have hangle : ∀ c, (s = "<" ∨ s = ">") →
      Scan.angle c rest = .found (.operator (String.ofList [c])) [c] rest := by
    intro c hc
    rw [Scan.angle]
    rintro r rfl
    exact hrest hc rfl
  have hscan : scan (s.toList ++ rest) =
      .found (.operator (String.ofList s.toList)) s.toList rest := by
    rw [isSymbol] at hs
    rcases isSymbolText_cases hs with ⟨c, hc, h | h⟩ | h | ⟨letters, hletters, h⟩
    · have hsingle : s = String.ofList [c] := by rw [← h, String.ofList_toList]
      rw [h]
      rcases hc with rfl | rfl
      · exact hangle '<' (.inl hsingle)
      · exact hangle '>' (.inr hsingle)
    · rw [h]
      rcases hc with rfl | rfl <;> rfl
    · rw [h]
      rfl
    · rw [h, List.cons_append, List.append_assoc]
      show Scan.equalsSign (letters ++ '=' :: rest) = _
      rw [Scan.equalsSign, List.takeWhile_append_of_pos hletters,
        List.dropWhile_append_of_pos hletters,
        List.takeWhile_cons_of_neg (by simp [isLetter_equalsSign]),
        List.dropWhile_cons_of_neg (by simp [isLetter_equalsSign]), List.append_nil]
      rfl
  rwa [String.ofList_toList] at hscan

namespace Lexes

variable {rest : List Char} {ls : List Lexeme}

theorem and (h : Lexes rest ls) : Lexes (';' :: rest) (.and :: ls) :=
  .token (by rw [skipBlanks_cons (by decide)]; rfl) Lexeme.noConfusion h

theorem or (h : Lexes rest ls) : Lexes (',' :: rest) (.or :: ls) :=
  .token (by rw [skipBlanks_cons (by decide)]; rfl) Lexeme.noConfusion h

theorem opening (h : Lexes rest ls) : Lexes ('(' :: rest) (.opening :: ls) :=
  .token (by rw [skipBlanks_cons (by decide)]; rfl) Lexeme.noConfusion h

theorem closing (h : Lexes rest ls) : Lexes (')' :: rest) (.closing :: ls) :=
  .token (by rw [skipBlanks_cons (by decide)]; rfl) Lexeme.noConfusion h

theorem quoted (h : Lexes rest ls) (s : String) :
    Lexes ((Quoted.quote s).toList ++ rest) (.quoted s :: ls) := by
  have hread : scan (skipBlanks ((Quoted.quote s).toList ++ rest)) =
      .found (.quoted s) ('\'' :: (Quoted.escape s.toList ++ ['\''])) rest := by
    rw [Quoted.quote, String.toList_ofList, List.cons_append, List.cons_append,
      skipBlanks_cons (by decide), List.append_assoc]
    show Scan.quotation '\'' (Quoted.escape s.toList ++ '\'' :: rest) = _
    rw [Scan.quotation, Quoted.read_escape]
    simp only [String.ofList_toList]
  exact .token hread Lexeme.noConfusion h

theorem bare (h : Lexes rest ls) {s : String} (hs : isBare s = true)
    (hrest : ∀ c ∈ rest.head?, isUnreserved c = false) :
    Lexes (s.toList ++ rest) (.bare s :: ls) := by
  obtain ⟨c, r, hcr, hc⟩ := exists_cons_of_isBare hs
  have hskip : skipBlanks (s.toList ++ rest) = s.toList ++ rest := by
    rw [hcr, List.cons_append, skipBlanks_cons (isBlank_of_isUnreserved hc)]
  have hscan := scan_bare hs hrest
  rw [← hskip] at hscan
  exact .token hscan Lexeme.noConfusion h

/-- A comparison symbol is followed by anything but `=`, which may prolong it. -/
theorem operator (h : Lexes rest ls) {s : String} (hs : isSymbol s = true)
    (hrest : rest.head? ≠ some '=') : Lexes (s.toList ++ rest) (.operator s :: ls) := by
  obtain ⟨c, r, hcr, -, hblank⟩ := exists_cons_of_isSymbol hs
  have hskip : skipBlanks (s.toList ++ rest) = s.toList ++ rest := by
    rw [hcr, List.cons_append, skipBlanks_cons hblank]
  have hscan := scan_symbol hs fun _ => hrest
  rw [← hskip] at hscan
  exact .token hscan Lexeme.noConfusion h

end Lexes

end FilterQuery
