/-
# FilterQuery.Proofs.Language.Lexemes -- what a text says, without its places

`Lexes cs ls` says that the characters `cs` spell the lexemes `ls` and nothing else: blanks, a
lexeme, blanks, a lexeme, and so on up to the end. It is the law of the tokenizer with the places
left out (`Cursor.lexemes?_tokens`), and the only thing about tokenizing that the grammar and the
printer need to know. Since a lexeme is scanned with all the characters behind it in view, a
derivation can be put together from the right but never splits a longest match.

The first character of a text decides how it is scanned (`scan_cons_iff`). Texts without quotes
come out of scanning in good shape: `Lexeme.Proper`.
-/

import FilterQuery.Token.Lexer

namespace FilterQuery

open Text

/-! ## The lexemes of a text -/

/-- The lexemes of a text that ends without a fault. -/
def Tokens.lexemes? (ts : Tokens) : Option (List Lexeme) :=
  match ts.ending with
  | .eof _ => some (ts.tokens.map (·.lexeme))
  | .fault _ => none

theorem Tokens.lexemes?_cons (t : Token) (ts : List Token) (e : Ending) :
    (Tokens.mk (t :: ts) e).lexemes? = (Tokens.mk ts e).lexemes?.map (t.lexeme :: ·) := by
  cases e <;> rfl

/-- The characters spell exactly these lexemes. -/
inductive Lexes : List Char → List Lexeme → Prop
  | eof {cs : List Char} : skipBlanks cs = [] → Lexes cs []
  | token {cs s r : List Char} {l : Lexeme} {ls : List Lexeme} :
      scan (skipBlanks cs) = .found l s r → l ≠ .eof → Lexes r ls → Lexes cs (l :: ls)

/-! ## What a text begins with -/

/-- The characters that are lexemes by themselves. -/
def Lexeme.marks : List (Char × Lexeme) :=
  [(';', .and), (',', .or), ('(', .opening), (')', .closing)]

/-- What a text is scanned as, by its first character. Three characters begin comparison symbols,
and a bare text takes its first character with it. Of the reserved characters, `~` begins nothing;
blanks have been skipped before. -/
inductive Scan.Begins (c : Char) (r : List Char) : Scan → Prop
  | mark {l : Lexeme} : (c, l) ∈ Lexeme.marks → Begins c r (.found l [c] r)
  | quotation : c = '"' ∨ c = '\'' → Begins c r (.quotation c r)
  | equalsSign : c = '=' → Begins c r (.equalsSign r)
  | angle : c = '<' ∨ c = '>' → Begins c r (.angle c r)
  | exclamation : c = '!' → Begins c r (.exclamation r)
  | run : isUnreserved c = true → Begins c r (.run (c :: r))
  | illegal : c = '~' ∨ isBlank c = true → Begins c r (.illegal c [] (c :: r))

theorem ne_of_isUnreserved {c : Char} (h : isUnreserved c = true) : ∀ x ∈ reserved, c ≠ x := by
  rintro x hx rfl
  simp [isUnreserved, List.contains_eq_mem, hx] at h

/-- Of the reserved characters the space alone is blank. -/
theorem ne_of_isBlank {c : Char} (h : isBlank c = true) : ∀ x ∈ reserved, x ≠ ' ' → c ≠ x := by
  rintro x hx hne rfl
  simp only [reserved, List.mem_cons, List.not_mem_nil, or_false] at hx
  rcases hx with rfl | rfl | rfl | rfl | rfl | rfl | rfl | rfl | rfl | rfl | rfl | rfl <;>
    first | exact absurd rfl hne | exact absurd h (by decide)

/-- The first character decides what is scanned. -/
theorem scan_cons_iff {c : Char} {r : List Char} {x : Scan} :
    scan (c :: r) = x ↔ Scan.Begins c r x := by
  constructor
  · rintro rfl
    rw [scan]
    repeat' split
    · exact .mark (by simp [Lexeme.marks, *])
    · exact .mark (by simp [Lexeme.marks, *])
    · exact .mark (by simp [Lexeme.marks, *])
    · exact .mark (by simp [Lexeme.marks, *])
    · exact .quotation ‹_›
    · exact .equalsSign ‹_›
    · exact .angle ‹_›
    · exact .exclamation ‹_›
    · exact .run ‹_›
    · -- what is left of the reserved characters is `~` and the space
      rename_i hquote hequals hangle hexclamation hunreserved
      rw [not_or] at hquote hangle
      by_cases hblank : isBlank c = true
      · exact .illegal (.inr hblank)
      · have hreserved : c ∈ reserved := by simpa [isUnreserved, hblank] using hunreserved
        simp only [reserved, List.mem_cons, List.not_mem_nil, or_false, false_or, *] at hreserved
        rcases hreserved with rfl | rfl
        · exact .illegal (.inl rfl)
        · exact absurd rfl hblank
  · intro h
    cases h with
    | mark h =>
      simp only [Lexeme.marks, List.mem_cons, Prod.mk.injEq, List.not_mem_nil, or_false] at h
      rcases h with ⟨rfl, rfl⟩ | ⟨rfl, rfl⟩ | ⟨rfl, rfl⟩ | ⟨rfl, rfl⟩ <;> rfl
    | quotation h => rcases h with rfl | rfl <;> rfl
    | equalsSign h =>
      subst h
      rfl
    | angle h => rcases h with rfl | rfl <;> rfl
    | exclamation h =>
      subst h
      rfl
    | run h =>
      have hne := ne_of_isUnreserved h
      simp only [reserved, List.mem_cons, List.not_mem_nil, or_false, forall_eq_or_imp,
        forall_eq] at hne
      simp [scan, hne, h]
    | illegal h =>
      rcases h with rfl | h
      · rfl
      · have hne := ne_of_isBlank h
        simp only [reserved, List.mem_cons, List.not_mem_nil, or_false, forall_eq_or_imp,
          forall_eq] at hne
        simp [scan, hne, h, isUnreserved]

/-! ## The shape of what is scanned -/

/-- A text without quotes is one that needs none. -/
def Lexeme.Proper : Lexeme → Prop
  | .bare t => isBare t = true
  | _ => True

/-- What is found is proper, and it is the end only where nothing is left. -/
theorem scan_found {cs s r : List Char} {l : Lexeme} (h : scan cs = .found l s r) :
    l.Proper ∧ (l = .eof → cs = []) := by
  cases cs with
  | nil =>
    cases h
    exact ⟨trivial, fun _ => rfl⟩
  | cons c t =>
    have hbegins := scan_cons_iff.1 h
    generalize hx : Scan.found l s r = x at hbegins
    cases hbegins with
    | mark hc =>
      cases hx
      simp only [Lexeme.marks, List.mem_cons, Prod.mk.injEq, List.not_mem_nil, or_false] at hc
      rcases hc with ⟨-, rfl⟩ | ⟨-, rfl⟩ | ⟨-, rfl⟩ | ⟨-, rfl⟩ <;>
        exact ⟨trivial, Lexeme.noConfusion⟩
    | quotation _ =>
      simp only [Scan.quotation] at hx
      split at hx <;> cases hx
      exact ⟨trivial, Lexeme.noConfusion⟩
    | equalsSign _ =>
      simp only [Scan.equalsSign] at hx
      split at hx <;> cases hx
      exact ⟨trivial, Lexeme.noConfusion⟩
    | angle _ =>
      simp only [Scan.angle] at hx
      split at hx <;> cases hx <;> exact ⟨trivial, Lexeme.noConfusion⟩
    | exclamation _ =>
      simp only [Scan.exclamation] at hx
      split at hx <;> cases hx
      exact ⟨trivial, Lexeme.noConfusion⟩
    | run hc =>
      cases hx
      refine ⟨?_, Lexeme.noConfusion⟩
      simp [Lexeme.Proper, isBare, hc]
    | illegal _ => cases hx

/-! ## Tokenizing without places -/

namespace Cursor

theorem tokens_of_fault {c d : Cursor} {f : LexicalFault} (h : c.next = (.error f, d)) :
    c.tokens = ⟨[], .fault f⟩ := by
  rw [tokens]
  split
  · rename_i hn
    rw [h] at hn
    cases hn
    rfl
  · rename_i hn
    rw [h] at hn
    cases hn

theorem tokens_of_token {c d : Cursor} {t : Token} (h : c.next = (.ok t, d)) :
    c.tokens =
      if t.lexeme = .eof then ⟨[], .eof t⟩ else ⟨t :: d.tokens.tokens, d.tokens.ending⟩ := by
  rw [tokens]
  split
  · rename_i hn
    rw [h] at hn
    cases hn
  · rename_i hn
    rw [h] at hn
    cases hn
    split <;> rfl

/-- A step of a cursor is one scan behind the blanks. -/
theorem next_eq (c : Cursor) :
    c.next = match scan (skipBlanks c.rest) with
      | .found l s r =>
        (.ok ⟨l, c.position.after (leadingBlanks c.rest)⟩,
          ⟨(c.position.after (leadingBlanks c.rest)).after s, r⟩)
      | .illegal x s r =>
        (.error ⟨x, (c.position.after (leadingBlanks c.rest)).offset⟩,
          ⟨(c.position.after (leadingBlanks c.rest)).after s, r⟩) := rfl

/-- The tokens of a text, without their places, are the lexemes that its characters spell. -/
theorem lexemes?_tokens (c : Cursor) (ls : List Lexeme) :
    c.tokens.lexemes? = some ls ↔ Lexes c.rest ls := by
  -- the length of what is left decreases with each token but the last
  induction hn : c.rest.length using Nat.strongRecOn generalizing c ls with
  | ind n ih =>
    subst hn
    have hnext := next_eq c
    cases hs : scan (skipBlanks c.rest) with
    | illegal x s r =>
      rw [hs] at hnext
      rw [tokens_of_fault hnext]
      constructor
      · intro h
        cases h
      · intro h
        cases h with
        | eof hb =>
          rw [hb] at hs
          cases hs
        | token hf _ _ =>
          rw [hs] at hf
          cases hf
    | found l s r =>
      rw [hs] at hnext
      rw [tokens_of_token hnext]
      by_cases hl : l = .eof
      · subst hl
        have hb := (scan_found hs).2 rfl
        rw [if_pos rfl]
        constructor
        · intro h
          cases h
          exact .eof hb
        · intro h
          cases h with
          | eof _ => rfl
          | token hf hne _ =>
            rw [hs] at hf
            cases hf
            exact absurd rfl hne
      · rw [if_neg hl, Tokens.lexemes?_cons, Option.map_eq_some_iff]
        have hrest := ih _ (length_next_lt hnext hl)
          ⟨(c.position.after (leadingBlanks c.rest)).after s, r⟩
        constructor
        · rintro ⟨ms, hms, rfl⟩
          exact .token hs hl ((hrest ms rfl).1 hms)
        · intro h
          cases h with
          | eof hb =>
            rw [hb] at hs
            cases hs
            exact absurd rfl hl
          | token hf _ hr =>
            rw [hs] at hf
            cases hf
            exact ⟨_, (hrest _ rfl).2 hr, rfl⟩

end Cursor

theorem lexemes?_tokenize (text : String) (ls : List Lexeme) :
    (tokenize text).lexemes? = some ls ↔ Lexes text.toList ls :=
  Cursor.lexemes?_tokens (Cursor.start text) ls

/-- Bare texts come out of tokenizing only where they need no quotes. -/
theorem Lexes.proper {cs : List Char} {ls : List Lexeme} (h : Lexes cs ls) :
    ∀ l ∈ ls, l.Proper := by
  induction h with
  | eof _ => simp
  | token hs _ _ ih =>
    intro l hl
    rcases List.mem_cons.1 hl with rfl | hl
    · exact (scan_found hs).1
    · exact ih l hl

end FilterQuery
