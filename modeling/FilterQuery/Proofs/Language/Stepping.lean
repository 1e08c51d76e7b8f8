/-
# FilterQuery.Proofs.Language.Stepping -- tokenizing is stepping

The tokens of a text are what a cursor gives step by step, up to the end of the text or to the first
fault. `Cursor.Reads` is a row of such steps, and `exists_reads_tokens` says that the tokens of a
text are one, behind which a step ends it. What is proved of all tokens of a text, also of a text
with a fault, is proved by induction on that row, one step at a time.

Each step but the last consumes a character, so there are at most as many tokens as there are
characters.
-/

import FilterQuery.Proofs.Language.Lexemes

namespace FilterQuery

open Text

namespace Cursor

/-! ## One step -/

/-- A step that gives a token has scanned it behind the blanks. -/
theorem scan_of_next {c d : Cursor} {t : Token} (h : c.next = (.ok t, d)) :
    ∃ s, scan (skipBlanks c.rest) = .found t.lexeme s d.rest ∧
      t.start = c.position.after (leadingBlanks c.rest) ∧ d.position = t.start.after s := by
  rw [next_eq] at h
  split at h
  · rename_i l s r hscan
    cases h
    exact ⟨s, hscan, rfl, rfl⟩
  · cases h

/-- A step consumes characters from the front of what is left, also when it finds nothing. -/
theorem next_consumes (c : Cursor) : ∃ consumed, c.rest = consumed ++ c.next.2.rest ∧
    c.next.2.position = c.position.after consumed := by
  have hblanks := leadingBlanks_append_skipBlanks c.rest
  have hscan := Scan.spelled_append_rest (skipBlanks c.rest)
  refine ⟨leadingBlanks c.rest ++ (scan (skipBlanks c.rest)).spelled, ?_, ?_⟩
  · have hrest : c.next.2.rest = (scan (skipBlanks c.rest)).rest := by
      rw [next_eq]
      cases scan (skipBlanks c.rest) <;> rfl
    rw [hrest, List.append_assoc, hscan, hblanks]
  · rw [next_eq, Position.after_append]
    cases scan (skipBlanks c.rest) <;> rfl

/-! ## Rows of steps -/

/-- Steps from the first cursor give these tokens, none of which is the end, and come to the
second. -/
inductive Reads : Cursor → List Token → Cursor → Prop
  | none (c : Cursor) : Reads c [] c
  | token {c d e : Cursor} {t : Token} {ts : List Token} :
      c.next = (.ok t, d) → t.lexeme ≠ .eof → Reads d ts e → Reads c (t :: ts) e

/-- The next step ends the text in this way. -/
def EndsWith (c : Cursor) : Ending → Prop
  | .eof t => t.lexeme = .eof ∧ c.next.1 = .ok t
  | .fault f => c.next.1 = .error f

/-- The tokens from a cursor on are a row of steps, and the step behind it ends the text. -/
theorem exists_reads_tokens (c : Cursor) :
    ∃ e, Reads c c.tokens.tokens e ∧ e.EndsWith c.tokens.ending := by
  induction hn : c.rest.length using Nat.strongRecOn generalizing c with
  | ind n ih =>
    subst hn
    rcases hnext : c.next with ⟨f | t, d⟩
    · rw [tokens_of_fault hnext]
      refine ⟨c, .none c, ?_⟩
      rw [EndsWith, hnext]
    · rw [tokens_of_token hnext]
      by_cases hend : t.lexeme = .eof
      · rw [if_pos hend]
        refine ⟨c, .none c, hend, ?_⟩
        rw [hnext]
      · rw [if_neg hend]
        obtain ⟨e, hreads, hends⟩ := ih _ (length_next_lt hnext hend) d rfl
        exact ⟨e, .token hnext hend hreads, hends⟩

variable {c e : Cursor} {ts : List Token}

/-- So does a row of steps. -/
theorem Reads.consumes (h : Reads c ts e) : ∃ consumed, c.rest = consumed ++ e.rest ∧
    e.position = c.position.after consumed := by
  induction h with
  | none c => exact ⟨[], rfl, rfl⟩
  | @token c d e t ts hnext _ _ ih =>
    obtain ⟨consumed, hrest, hposition⟩ := next_consumes c
    obtain ⟨more, hmore, hend⟩ := ih
    rw [hnext] at hrest hposition
    refine ⟨consumed ++ more, ?_, ?_⟩
    · rw [hrest, hmore, List.append_assoc]
    · rw [hend, hposition, Position.after_append]

/-- None of the tokens is the end. -/
theorem Reads.ne_eof (h : Reads c ts e) : ∀ t ∈ ts, t.lexeme ≠ .eof := by
  induction h with
  | none c => simp
  | token _ hne _ ih => simpa using ⟨hne, ih⟩

/-- Bare texts come out of steps only where they need no quotes. -/
theorem Reads.proper (h : Reads c ts e) : ∀ t ∈ ts, t.lexeme.Proper := by
  induction h with
  | none c => simp
  | token hnext _ _ ih =>
    obtain ⟨s, hscan, -⟩ := scan_of_next hnext
    simpa using ⟨(scan_found hscan).1, ih⟩

/-- There are no more tokens than characters that have been consumed. -/
theorem Reads.length_le (h : Reads c ts e) : ts.length + e.rest.length ≤ c.rest.length := by
  induction h with
  | none c => simp
  | token hnext hne _ ih =>
    have hlt := length_next_lt hnext hne
    rw [List.length_cons]
    omega

/-- The tokens and what ends them are the outcomes of so many steps. -/
theorem Reads.steps_eq {x : Ending} (h : Reads c ts e) (hx : e.EndsWith x) :
    (Tokens.mk ts x).items = steps (ts.length + 1) c := by
  induction h with
  | none c =>
    cases x with
    | eof t =>
      show [Except.ok t] = [c.next.1]
      rw [hx.2]
    | fault f =>
      show [Except.error f] = [c.next.1]
      rw [hx]
  | token hnext _ _ ih =>
    rw [List.length_cons, steps, hnext]
    exact congrArg (_ :: ·) (ih hx)

/-- A row of steps and the step behind it that ends the text are all there is. -/
theorem Reads.tokens_eq {x : Ending} (h : Reads c ts e) (hx : e.EndsWith x) :
    c.tokens = ⟨ts, x⟩ := by
  induction h with
  | none c =>
    cases x with
    | eof t => rw [tokens_of_token (Prod.ext hx.2 rfl), if_pos hx.1]
    | fault f => rw [tokens_of_fault (Prod.ext hx rfl)]
  | token hnext hne _ ih => rw [tokens_of_token hnext, if_neg hne, ih hx]

end Cursor

/-- The items of a text are the outcomes of steps from its start, as many as there are items. -/
theorem items_eq_steps (text : String) :
    (tokenize text).items = (Cursor.start text).steps (tokenize text).items.length := by
  obtain ⟨e, hreads, hends⟩ := Cursor.exists_reads_tokens (Cursor.start text)
  have hlength : (tokenize text).items.length = (tokenize text).tokens.length + 1 := by
    simp [Tokens.items]
  rw [hlength]
  exact hreads.steps_eq hends

/-- The bare texts among the tokens of a text need no quotes, also when the text has a fault. -/
theorem proper_of_mem_tokens {text : String} : ∀ t ∈ (tokenize text).tokens, t.lexeme.Proper := by
  obtain ⟨e, hreads, -⟩ := Cursor.exists_reads_tokens (Cursor.start text)
  exact hreads.proper

end FilterQuery
