/-
# FilterQuery.Proofs.Language.Symbols -- what counts as a comparison symbol

Comparison symbols are described twice. An operator accepts the texts that match a pattern, and the
tokenizer finds them in a text by three ways of scanning. Both mean the same set of texts
(`symbols_agree`): what matches the pattern is tokenized as that one symbol, and what the tokenizer
takes for a symbol, in whatever text, matches.

So there is no operator that a filter cannot name. With any selector before it and any value behind
it, each symbol of each operator is read as a comparison with the operator for which it is
registered (`Registry.Writes`).
-/

import FilterQuery.Proofs.Language.Recognition
import FilterQuery.Proofs.Language.Scanning
import FilterQuery.Proofs.Operator.Reachable
import Mathlib.Computability.RegularExpressions

namespace FilterQuery

open Text

/-! ## The pattern -/

/-- The ASCII letters. -/
def Text.letters : List Char := "abcdefghijklmnopqrstuvwxyzABCDEFGHIJKLMNOPQRSTUVWXYZ".toList

/-- The pattern of one of some characters. -/
def oneOf (cs : List Char) : RegularExpression Char := cs.foldr (fun c p => .char c + p) 0

/-- The pattern `=[a-zA-Z]*=|[><]=?|!=`. -/
def symbolPattern : RegularExpression Char :=
  .char '=' * (oneOf letters).star * .char '=' + oneOf ['>', '<'] * (.char '=' + 1) +
    .char '!' * .char '='

theorem mem_letters_iff {c : Char} : c ∈ letters ↔ isLetter c = true := by
  constructor
  · have hall : ∀ c ∈ letters, isLetter c = true := List.all_eq_true.1 (by decide)
    exact hall c
  · have hcodes : ∀ n < 123, (65 ≤ n ∧ n ≤ 90) ∨ (97 ≤ n ∧ n ≤ 122) → Char.ofNat n ∈ letters := by
      decide
    intro h
    rw [isLetter_iff] at h
    rw [← Char.ofNat_toNat c]
    exact hcodes c.toNat (by omega) h

theorem mem_oneOf {cs s : List Char} : s ∈ (oneOf cs).matches' ↔ ∃ c ∈ cs, s = [c] := by
  induction cs with
  | nil => exact iff_of_false id (by simp)
  | cons c cs ih =>
    rw [oneOf, List.foldr_cons, RegularExpression.matches'_add, Language.mem_add, ← oneOf, ih,
      List.exists_mem_cons_iff]
    rfl

/-- A row of some characters is matched one by one. -/
theorem mem_star_oneOf {cs s : List Char} : s ∈ (oneOf cs).star.matches' ↔ ∀ c ∈ s, c ∈ cs := by
  rw [RegularExpression.matches'_star, Language.mem_kstar]
  constructor
  · rintro ⟨parts, rfl, hparts⟩ c hc
    obtain ⟨part, hpart, hc⟩ := List.mem_flatten.1 hc
    obtain ⟨c', hc', rfl⟩ := mem_oneOf.1 (hparts part hpart)
    rwa [List.mem_singleton.1 hc]
  · intro h
    refine ⟨s.map fun c => [c], ?_, ?_⟩
    · rw [← List.flatMap_def, List.flatMap_singleton']
    · intro part hpart
      obtain ⟨c, hc, rfl⟩ := List.mem_map.1 hpart
      exact mem_oneOf.2 ⟨c, h c hc, rfl⟩

theorem mem_char_iff {c : Char} {s : List Char} :
    s ∈ (RegularExpression.char c).matches' ↔ s = [c] :=
  Iff.rfl

/-- The comparison symbols are the texts that match the pattern. -/
theorem mem_symbolPattern_iff {s : List Char} :
    s ∈ symbolPattern.matches' ↔ isSymbolText s = true := by
  simp only [symbolPattern, RegularExpression.matches'_add, RegularExpression.matches'_mul,
    Language.mem_add, Language.mem_mul, mem_char_iff, mem_star_oneOf, mem_oneOf,
    RegularExpression.matches'_epsilon, Language.mem_one, mem_letters_iff]
  constructor
  · rintro ((⟨_, ⟨_, rfl, row, hrow, rfl⟩, _, rfl, rfl⟩ | ⟨_, ⟨c, hc, rfl⟩, _, hend, rfl⟩) |
      ⟨_, rfl, _, rfl, rfl⟩)
    · exact isSymbolText_of_letters hrow
    · simp only [List.mem_cons, List.not_mem_nil, or_false] at hc
      rcases hc with rfl | rfl <;> rcases hend with rfl | rfl <;> rfl
    · rfl
  · intro h
    rcases isSymbolText_cases h with ⟨c, hc, hs⟩ | rfl | ⟨row, hrow, rfl⟩
    · have hmem : c ∈ ['>', '<'] := by rcases hc with rfl | rfl <;> decide
      refine .inl (.inr ⟨[c], ⟨c, hmem, rfl⟩, ?_⟩)
      rcases hs with rfl | rfl
      · exact ⟨[], .inr rfl, rfl⟩
      · exact ⟨['='], .inl rfl, rfl⟩
    · exact .inr ⟨['!'], rfl, ['='], rfl, rfl⟩
    · exact .inl (.inl ⟨'=' :: row, ⟨['='], rfl, row, hrow, rfl⟩, ['='], rfl, rfl⟩)

/-! ## Tokenizing symbols -/

/-- What is tokenized as a symbol is one. -/
theorem Lexeme.Spells.isSymbol {symbol : String} {s : List Char}
    (h : Lexeme.Spells (.operator symbol) s) : isSymbol symbol = true := by
  cases h with
  | mark h => simp [Lexeme.marks] at h
  | operator h => exact h

/-- A comparison symbol by itself is tokenized as itself, and nothing else is tokenized so. -/
theorem isSymbol_iff_lexes {s : String} :
    isSymbol s = true ↔ Lexes s.toList [.operator s] := by
  constructor
  · intro h
    have hlexes := (Lexes.eof rfl : Lexes [] []).operator h nofun
    rwa [List.append_nil] at hlexes
  · intro h
    cases h with
    | token hscan hne _ => exact (spells_of_scan hscan hne).1.isSymbol

/-! ## Symbols in filters -/

/-- In a dialect with these operators, whatever its nesting limit, the symbol is read as the
operator: with any selector before it and any value behind it. -/
def Registry.Writes (r : Registry) (symbol : String) (o : Operator) : Prop :=
  ∀ limit selector value, isBare selector = true → isBare value = true →
    Dialect.parse ⟨r, limit⟩ (selector ++ symbol ++ value) =
      .ok (.comparison ⟨o, selector, [value]⟩)

/-- No bare text prolongs a comparison symbol. -/
theorem head?_ne_of_isBare {value : String} (h : isBare value = true) :
    value.toList.head? ≠ some '=' := by
  obtain ⟨c, r, hcr, hc⟩ := exists_cons_of_isBare h
  rw [hcr]
  rintro heq
  cases heq
  exact absurd hc (by decide)

/-- A comparison symbol that is registered is read as what it stands for. -/
theorem Registry.writes_of_isSymbol {r : Registry} {symbol : String} {o : Operator}
    (hsymbol : isSymbol symbol = true) (ho : r.get? symbol = some o) : r.Writes symbol o := by
  intro limit selector value hselector hvalue
  have hlast : Lexes value.toList [.bare value] := by
    have hlexes := (Lexes.eof rfl : Lexes [] []).bare hvalue nofun
    rwa [List.append_nil] at hlexes
  have hlexes := (hlast.operator hsymbol (head?_ne_of_isBare hvalue)).bare hselector
    (isUnreserved_head_of_isSymbol hsymbol _)
  rw [← List.append_assoc, ← String.toList_append, ← String.toList_append] at hlexes
  let c : Grammar.Clause := ⟨selector, symbol, .value (.bare value)⟩
  have hfits : c.Fits r := ⟨o, ho, fun _ => rfl⟩
  have hparse := Grammar.parse_of_lexes (d := ⟨r, limit⟩) (p := .last (.last (.clause c))) hlexes
    (Nat.zero_le _) (List.forall_mem_singleton.2 hfits)
  have htree : c.tree r = .comparison ⟨o, selector, [value]⟩ := by
    rw [Grammar.Clause.tree, Grammar.meaning, ho, Option.getD_some]
    rfl
  rw [hparse, ← htree]
  rfl

/-- The two descriptions of comparison symbols agree. A text is a symbol when it matches the
pattern, and that is when tokenizing it gives this one symbol and then the end. Wherever a step of
the tokenizer gives a symbol, it is one. So each symbol of an operator that has been built can be
written in a filter once the operator is registered, and a registry that can be reached has no
symbol that a filter cannot reach. -/
theorem symbols_agree :
    (∀ s, (isSymbol s = true ↔ s.toList ∈ symbolPattern.matches') ∧
      (isSymbol s = true ↔ (tokenize s).lexemes? = some [.operator s])) ∧
    (∀ (c : Cursor) (t : Token) (s : String), c.next.1 = .ok t → t.lexeme = .operator s →
      isSymbol s = true) ∧
    (∀ o : Operator, o.Built → ∀ s ∈ o.symbols, ∀ r : Registry, (r.register o).Writes s o) ∧
    ∀ r : Registry, r.Reachable → ∀ s o, r.get? s = some o →
      (tokenize s).lexemes? = some [.operator s] ∧ r.Writes s o := by
  have htokenize : ∀ s, isSymbol s = true ↔ (tokenize s).lexemes? = some [.operator s] :=
    fun s => isSymbol_iff_lexes.trans (lexemes?_tokenize s _).symm
  refine ⟨fun s => ⟨mem_symbolPattern_iff.symm, htokenize s⟩, ?_, ?_, ?_⟩
  · intro c t s hnext ht
    have hne : t.lexeme ≠ .eof := by simp [ht]
    obtain ⟨_, _, -, hspells, -⟩ := Cursor.spelling_of_next (Prod.ext hnext rfl) hne
    rw [ht] at hspells
    exact hspells.isSymbol
  · intro o ho s hs r
    have hget : (r.register o).get? s = some o := by rw [Registry.get?_register, if_pos hs]
    exact Registry.writes_of_isSymbol (Operator.built_iff.1 ho s hs) hget
  · intro r hr s o hget
    have hsymbol := hr.isSymbol hget
    exact ⟨(htokenize s).1 hsymbol, Registry.writes_of_isSymbol hsymbol hget⟩

/-- A symbol with letters, one that stops before a letter, and an alias in a new operator and in a
registry. -/
theorem symbols_agree_alias :
    ((tokenize "=Ge=").lexemes? = some [.operator "=Ge="] ∧
      "=Ge=".toList ∈ symbolPattern.matches') ∧
    isSymbol "<" = true ∧
    (Registry.register .standard ⟨"=bt=", [">"], true⟩).Writes ">" ⟨"=bt=", [">"], true⟩ ∧
    (tokenize ">").lexemes? = some [.operator ">"] ∧
      Registry.standard.Writes ">" ⟨"=gt=", [">"], false⟩ := by
  obtain ⟨hsymbol, hnext, hbuilt, hreachable⟩ := symbols_agree
  have hge : isSymbol "=Ge=" = true := by decide
  have hbetween : Operator.Built ⟨"=bt=", [">"], true⟩ := Operator.built_iff.2 (by decide)
  have hstandard : Registry.standard.Reachable := Registry.reachable_ofList Operator.built_standard
  have hless : (Cursor.next ⟨{}, " <a".toList⟩).1 = .ok ⟨.operator "<", ⟨1, 1, 2⟩⟩ := by rfl
  exact ⟨⟨(hsymbol _).2.1 hge, (hsymbol _).1.1 hge⟩, hnext _ _ _ hless rfl,
    hbuilt _ hbetween ">" (by decide) _, hreachable _ hstandard _ _ (by rfl)⟩

end FilterQuery
