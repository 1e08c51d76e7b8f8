/-
# FilterQuery.Proofs.Language.Recognition -- a dialect reads its phrases and nothing else

A text is accepted exactly when its lexemes are those of a phrase whose groups nest within the
limit and whose comparisons fit the operators; the answer is the tree of that phrase, and no other
phrase has these lexemes (`parse_eq_ok_iff_phrase`).

One half is `Disjunction.reaches`: such phrases are read. The other half carries the invariant of
partial phrases along a run: whatever the machine has accepted is the beginning of a phrase.
-/

import FilterQuery.Proofs.Language.Lexemes
import FilterQuery.Proofs.Language.Partial

namespace FilterQuery.Grammar

open Dialect Dialect.State

variable {d : Dialect} {s u v : State} {l : Lexeme} {ls : List Lexeme} {t : Token}

/-! ## Accepted lexemes begin a phrase -/

/-- The state comes from reading these lexemes of some phrase. -/
def Explains (d : Dialect) (ls : List Lexeme) (s : State) : Prop :=
  ∃ σ : Partial, σ.lexemes = ls ∧ σ.Sound d ∧ s = σ.state d.operators s.last

theorem Explains.initial (d : Dialect) : Explains d [] {} :=
  ⟨{}, rfl, .initial d, rfl⟩

theorem Explains.setLast (h : Explains d ls s) (last : Option Token) :
    Explains d ls { s with last := last } := by
  obtain ⟨σ, rfl, hσ, hs⟩ := h
  rw [hs]
  exact ⟨σ, rfl, hσ, rfl⟩

theorem Explains.move (h : Explains d ls s) (hm : Move d s l v) : Explains d (ls ++ [l]) v := by
  obtain ⟨σ, rfl, hσ, hs⟩ := h
  rw [hs] at hm
  obtain ⟨τ, hτ, hsound, rfl⟩ := Partial.move hσ hm
  exact ⟨τ, hτ, hsound, rfl⟩

/-- What a dialect builds of a comparison is its tree, and the comparison fits. -/
theorem Clause.fits_of_compare {c : Clause} {n : Node}
    (h : d.compare c.symbol c.selector c.right.texts = .ok n) :
    c.Fits d.operators ∧ n = c.tree d.operators := by
  rw [Dialect.compare] at h
  cases ho : d.operators.get? c.symbol with
  | none =>
    rw [ho] at h
    cases h
  | some o =>
    rw [ho] at h
    obtain ⟨-, -, hcount, rfl⟩ := Node.compare_eq_ok_iff.1 h
    refine ⟨⟨o, ho, hcount⟩, ?_⟩
    rw [tree, meaning, ho]
    rfl

theorem Explains.settle (h : Explains d ls s) (hu : s.settle d = .ok u) : Explains d ls u := by
  rcases settle_cases hu with ⟨selector, symbol, arguments, n, hp, hn, rfl⟩ | ⟨_, rfl⟩
  · -- the comparison becomes a constraint that has ended
    obtain ⟨⟨rows, row, part⟩, rfl, hσ, hs⟩ := h
    rw [hs] at hp
    cases part with
    | clause c =>
      cases hp
      obtain ⟨hfits, rfl⟩ := Clause.fits_of_compare hn
      refine ⟨⟨rows, row, .ended (.clause c)⟩, rfl, hσ.setEnded ⟨hσ.room, ?_⟩, ?_⟩
      · intro c' hc'
        rw [List.mem_singleton.1 hc']
        exact hfits
      · rw [hs]
        rfl
    | _ => cases hp
  · exact h

theorem Explains.feed (h : Explains d ls s) (hu : s.feed d t = .ok u) :
    Explains d (ls ++ [t.lexeme]) u := by
  rw [feed_eq] at hu
  obtain ⟨w, hw, hu⟩ := bind_eq_ok_iff.1 hu
  obtain ⟨v, hv, hu⟩ := bind_eq_ok_iff.1 hu
  cases hu
  exact ((h.settle hw).move (step_eq_ok_iff.1 hv)).setLast (some t)

theorem Explains.run (ts : List Token) : ∀ {ls : List Lexeme} {s : State}, Explains d ls s →
    ts.foldlM (State.feed d) s = .ok u → Explains d (ls ++ ts.map (·.lexeme)) u := by
  induction ts with
  | nil =>
    intro ls s h hu
    cases hu
    rwa [List.map_nil, List.append_nil]
  | cons t ts ih =>
    intro ls s h hu
    rw [List.foldlM_cons] at hu
    obtain ⟨w, hw, hu⟩ := bind_eq_ok_iff.1 hu
    have hts := ih (h.feed hw) hu
    rwa [List.append_assoc] at hts

/-- At the end of accepted lexemes stands a whole phrase, and its tree is the answer. -/
theorem Explains.finish {n : Node} (h : Explains d ls s) (hn : s.finish d t = .ok n) :
    ∃ p : Disjunction, p.lexemes = ls ∧ Admitted d 0 p.depth p.clauses ∧
      n = p.tree d.operators := by
  rw [State.finish] at hn
  obtain ⟨u, hu, hn⟩ := bind_eq_ok_iff.1 hn
  obtain ⟨⟨rows, row, part⟩, rfl, hσ, hs⟩ := h.settle hu
  rw [hs] at hn
  split at hn
  · -- a constraint has ended and no group is open, so the last row is the only one
    rename_i m hphase houter
    cases hn
    cases rows with
    | cons r rows => cases houter
    | nil =>
      cases part with
      | ended p =>
        cases hphase
        refine ⟨row.close p, ?_, hσ.rows.1.close (hσ.ended p rfl), Row.finish_frame _⟩
        rw [Row.lexemes_close]
        rfl
      | _ => cases hphase
  · cases hn

/-! ## Acceptance -/

/-- Reading a text without a fault is taking its tokens and asking for the node. -/
theorem parseTokens_eq {ts : Tokens} {e : Token} (h : ts.ending = .eof e) :
    d.parseTokens ts = State.take d {} ts.tokens >>= fun s => s.finish d e := by
  rw [parseTokens, h, Dialect.run, State.take, bind_assoc]
  congr 1
  funext s
  exact (settle_bind_finish e).symm

theorem lexemes?_eq_some {ts : Tokens} (h : ts.lexemes? = some ls) :
    ∃ e, ts.ending = .eof e ∧ ts.tokens.map (·.lexeme) = ls := by
  obtain ⟨tokens, ending⟩ := ts
  cases ending with
  | eof e =>
    cases h
    exact ⟨e, rfl, rfl⟩
  | fault f => cases h

theorem Clause.bare_mem_lexemes {c : Clause} : .bare c.selector ∈ c.lexemes := by
  simp [Clause.lexemes]

mutual

theorem Disjunction.mem_lexemes {c : Clause} {l : Lexeme} (hl : l ∈ c.lexemes) :
    ∀ p : Disjunction, c ∈ p.clauses → l ∈ p.lexemes
  | .last p, h => Conjunction.mem_lexemes hl p h
  | .comma p rest, h => by
    rcases List.mem_append.1 h with h | h
    · exact List.mem_append_left _ (Conjunction.mem_lexemes hl p h)
    · exact List.mem_append_right _ (List.mem_cons_of_mem _ (Disjunction.mem_lexemes hl rest h))

theorem Conjunction.mem_lexemes {c : Clause} {l : Lexeme} (hl : l ∈ c.lexemes) :
    ∀ p : Conjunction, c ∈ p.clauses → l ∈ p.lexemes
  | .last p, h => Constraint.mem_lexemes hl p h
  | .semicolon p rest, h => by
    rcases List.mem_append.1 h with h | h
    · exact List.mem_append_left _ (Constraint.mem_lexemes hl p h)
    · exact List.mem_append_right _ (List.mem_cons_of_mem _ (Conjunction.mem_lexemes hl rest h))

theorem Constraint.mem_lexemes {c : Clause} {l : Lexeme} (hl : l ∈ c.lexemes) :
    ∀ p : Constraint, c ∈ p.clauses → l ∈ p.lexemes
  | .group p, h => by
    have hp := Disjunction.mem_lexemes hl p h
    exact List.mem_cons_of_mem _ (List.mem_append_left _ hp)
  | .clause c', h => by
    rw [List.mem_singleton.1 h] at hl
    exact hl

end

/-- The comparisons of a phrase that stands in a text are accepted when they fit the operators:
tokenizing has seen to their selectors. -/
theorem accepted_of_lexes {cs : List Char} {p : Disjunction} (h : Lexes cs p.lexemes)
    (hf : ∀ c ∈ p.clauses, c.Fits d.operators) : ∀ c ∈ p.clauses, c.Accepted d := by
  intro c hc
  have hbare := h.proper _ (Disjunction.mem_lexemes Clause.bare_mem_lexemes p hc)
  exact Clause.accepted_of_fits hbare (hf c hc)

/-- A text that spells a phrase whose comparisons fit is read if the groups of the phrase nest
within the limit. -/
theorem parse_of_lexes {text : String} {p : Disjunction} (h : Lexes text.toList p.lexemes)
    (hdepth : p.depth ≤ d.maxDepth) (hf : ∀ c ∈ p.clauses, c.Fits d.operators) :
    d.parse text = .ok (p.tree d.operators) := by
  obtain ⟨e, hend, htokens⟩ := lexemes?_eq_some ((lexemes?_tokenize text _).2 h)
  obtain ⟨f, m, hm, hr⟩ := Disjunction.reaches p [] [] (accepted_of_lexes h hf)
    (by rw [List.length_nil]; omega)
  obtain ⟨last, hlast⟩ := hr none _ htokens
  rw [Dialect.parse, parseTokens_eq hend]
  show State.take d ⟨[], ⟨[], []⟩, .constraint, none⟩ _ >>= _ = _
  rw [hlast]
  show Except.ok (f.finish m) = _
  rw [hm]
  rfl

/-- If its groups nest deeper, it is refused for that. -/
theorem parse_of_lexes_deep {text : String} {p : Disjunction} (h : Lexes text.toList p.lexemes)
    (hdepth : d.maxDepth < p.depth) (hf : ∀ c ∈ p.clauses, c.Fits d.operators) :
    ∃ f, d.parse text = .error f ∧ TooDeep d f := by
  obtain ⟨e, hend, htokens⟩ := lexemes?_eq_some ((lexemes?_tokenize text _).2 h)
  have hfails := Disjunction.fails p [] [] (accepted_of_lexes h hf) (Nat.zero_le _)
    (by rw [List.length_nil]; omega)
  obtain ⟨f, hf, hdeep⟩ := hfails none _ htokens
  refine ⟨f, ?_, hdeep⟩
  rw [Dialect.parse, parseTokens_eq hend]
  show State.take d ⟨[], ⟨[], []⟩, .constraint, none⟩ _ >>= _ = _
  rw [hf]
  rfl

/-- A text that is read has no lexical fault: a fault is an error however far the tokens before it
were taken. -/
theorem exists_eof_of_parse {text : String} {n : Node} (h : d.parse text = .ok n) :
    ∃ e, (tokenize text).ending = .eof e := by
  cases hend : (tokenize text).ending with
  | fault f =>
    rw [Dialect.parse, parseTokens, hend] at h
    obtain ⟨s, -, hs⟩ := bind_eq_ok_iff.1 h
    cases hs
  | eof e => exact ⟨e, rfl⟩

theorem parse_eq_of_eof {text : String} {e : Token} (h : (tokenize text).ending = .eof e) :
    d.parse text = d.run (tokenize text).tokens >>= fun s => s.finish d e := by
  rw [Dialect.parse, parseTokens, h]

/-- A text that is read spells a phrase whose groups nest within the limit and whose comparisons
fit, and is read as its tree. -/
theorem exists_phrase_of_parse {text : String} {n : Node} (h : d.parse text = .ok n) :
    ∃ p : Disjunction, Lexes text.toList p.lexemes ∧ p.depth ≤ d.maxDepth ∧
      (∀ c ∈ p.clauses, c.Fits d.operators) ∧ n = p.tree d.operators := by
  obtain ⟨e, hend⟩ := exists_eof_of_parse h
  rw [parse_eq_of_eof hend] at h
  obtain ⟨s, hs, hn⟩ := bind_eq_ok_iff.1 h
  obtain ⟨p, hp, hadm, rfl⟩ := ((Explains.initial d).run _ hs).finish hn
  refine ⟨p, ?_, ?_, hadm.2, rfl⟩
  · rw [← lexemes?_tokenize, hp, Tokens.lexemes?, hend]
    rfl
  · have hroom := hadm.1
    omega

/-- Parsing accepts exactly the phrases of the grammar: a text has a tree iff it is free of lexical
faults, its lexemes derive from the grammar with groups nested within the limit, and each
comparison has a registered symbol and, where its operator takes one argument, one. The tree is
that of the derivation, and there is only one derivation. -/
theorem parse_eq_ok_iff_phrase (d : Dialect) (text : String) (n : Node) :
    d.parse text = .ok n ↔
      ∃ p : Disjunction, (tokenize text).lexemes? = some p.lexemes ∧
        (∀ q : Disjunction, q.lexemes = p.lexemes → q = p) ∧
        p.depth ≤ d.maxDepth ∧ (∀ c ∈ p.clauses, c.Fits d.operators) ∧
        n = p.tree d.operators := by
  constructor
  · intro h
    obtain ⟨p, hlexes, hdepth, hfits, htree⟩ := exists_phrase_of_parse h
    exact ⟨p, (lexemes?_tokenize text _).2 hlexes, fun q hq => Disjunction.eq_of_lexemes_eq hq,
      hdepth, hfits, htree⟩
  · rintro ⟨p, htext, -, hdepth, hfits, rfl⟩
    exact parse_of_lexes ((lexemes?_tokenize text _).1 htext) hdepth hfits

end FilterQuery.Grammar
