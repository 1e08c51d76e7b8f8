/-
# FilterQuery.Proofs.Language.Restriction -- dialects that read less

A dialect with fewer operators, or with less room for groups, reads some filters no more. It never
reads one as something else: what it accepts, the larger dialect accepts with the same tree, and
what the larger one accepts it either reads as that tree or refuses for one of two reasons
(`parse_of_extends`). A comparison has a symbol that it does not know, and then the first such
comparison is named; or a parenthesis opens a group too many, and then that parenthesis is named.

The two readers are run side by side. They are in the same state until one of them fails, since no
state keeps anything of a dialect, so each step is compared once: what building a comparison and
taking a token come to in the smaller dialect, when the larger has gone on. That the symbol named is
the first unknown one is the invariant of the smaller run (`Knows`): all symbols that it has read
are known, but for that of a comparison that has not been built.
-/

import FilterQuery.Proofs.Language.Recognition

namespace FilterQuery

open Grammar

/-! ## The symbols of a text -/

/-- The comparison symbol that a lexeme is. -/
def Lexeme.symbol? : Lexeme → Option String
  | .operator symbol => some symbol
  | _ => none

/-- The comparison symbols among some tokens, in their order. -/
def Token.symbols (ts : List Token) : List String := ts.filterMap (·.lexeme.symbol?)

theorem Token.symbols_append (ts us : List Token) : symbols (ts ++ us) = symbols ts ++ symbols us :=
  List.filterMap_append

theorem Registry.contains_eq_isSome (r : Registry) (symbol : String) :
    r.contains symbol = (r.get? symbol).isSome := rfl

namespace Grammar

theorem Operands.symbols_lexemes (vs : Operands) : vs.lexemes.filterMap Lexeme.symbol? = [] := by
  induction vs with
  | last v => cases v <;> rfl
  | comma v rest ih => cases v <;> exact ih

theorem Clause.symbols_lexemes (c : Clause) : c.lexemes.filterMap Lexeme.symbol? = [c.symbol] := by
  obtain ⟨selector, symbol, right⟩ := c
  show symbol :: right.lexemes.filterMap Lexeme.symbol? = [symbol]
  cases right with
  | value v => cases v <;> rfl
  | list vs =>
    show symbol :: (vs.lexemes ++ [Lexeme.closing]).filterMap Lexeme.symbol? = [symbol]
    rw [List.filterMap_append, vs.symbols_lexemes]
    rfl

mutual

/-- The symbols among the lexemes of a phrase are those of its comparisons. -/
theorem Disjunction.symbols_lexemes : ∀ p : Disjunction,
    p.lexemes.filterMap Lexeme.symbol? = p.clauses.map (·.symbol)
  | .last p => Conjunction.symbols_lexemes p
  | .comma p rest => by
    rw [Disjunction.lexemes, List.filterMap_append, Conjunction.symbols_lexemes p,
      Disjunction.clauses, List.map_append, ← Disjunction.symbols_lexemes rest]
    rfl

theorem Conjunction.symbols_lexemes : ∀ p : Conjunction,
    p.lexemes.filterMap Lexeme.symbol? = p.clauses.map (·.symbol)
  | .last p => Constraint.symbols_lexemes p
  | .semicolon p rest => by
    rw [Conjunction.lexemes, List.filterMap_append, Constraint.symbols_lexemes p,
      Conjunction.clauses, List.map_append, ← Conjunction.symbols_lexemes rest]
    rfl

theorem Constraint.symbols_lexemes : ∀ p : Constraint,
    p.lexemes.filterMap Lexeme.symbol? = p.clauses.map (·.symbol)
  | .group p => by
    show (p.lexemes ++ [Lexeme.closing]).filterMap Lexeme.symbol? = _
    rw [List.filterMap_append, Disjunction.symbols_lexemes p]
    exact List.append_nil _
  | .clause c => c.symbols_lexemes

end

end Grammar

namespace Dialect

/-- A dialect knows all operators of another, as they are there, and nests groups at least as
deep. -/
structure Extends (e d : Dialect) : Prop where
  operators : ∀ symbol o, d.operators.get? symbol = some o → e.operators.get? symbol = some o
  room : d.maxDepth ≤ e.maxDepth

/-- Why a dialect refuses the tokens of a filter that a larger dialect reads: the symbol is the
first among the tokens that it does not know, or a parenthesis opens a group too many. -/
inductive Refusal (d : Dialect) (ts : List Token) : Failure → Prop
  | unknown {symbol : String} :
      (Token.symbols ts).find? (fun s => !d.operators.contains s) = some symbol →
        Refusal d ts (.unknownOperator symbol)
  | deep {before after : List Token} {t : Token} : ts = before ++ t :: after →
      t.lexeme = .opening →
        Refusal d ts (.unexpected [s!"at most {d.maxDepth} nested groups"] "'('"
          (before.getLast?.map Token.describe) t.start.line t.start.column)

/-- The symbol of the comparison that is being read. -/
def Phase.pending : Phase → List String
  | .arguments _ symbol => [symbol]
  | .element _ symbol _ => [symbol]
  | .separator _ symbol _ => [symbol]
  | .compared _ symbol _ => [symbol]
  | _ => []

namespace State

variable {d e : Dialect} {s u v : State} {t : Token} {l : Lexeme} {before : List Token}

/-! ## What the smaller reader has read -/

/-- The state comes behind these tokens, and the dialect knows all symbols among them, but for that
of a comparison that has not been built. -/
structure Knows (d : Dialect) (before : List Token) (s : State) : Prop where
  last : s.last = before.getLast?
  symbols : ∃ known, Token.symbols before = known ++ s.phase.pending ∧
    ∀ symbol ∈ known, d.operators.contains symbol = true

theorem Knows.initial (d : Dialect) : Knows d [] {} :=
  ⟨rfl, [], rfl, fun _ h => (List.not_mem_nil h).elim⟩

/-- A move reads a symbol if its lexeme is one. -/
theorem Move.pending (h : Move d s l v) :
    v.phase.pending = s.phase.pending ++ l.symbol?.toList := by
  cases h <;> rfl

theorem Knows.move (h : Knows d before s) (hm : Move d s t.lexeme v) :
    Knows d (before ++ [t]) { v with last := some t } := by
  obtain ⟨known, hsymbols, hknown⟩ := h.symbols
  refine ⟨by simp, known, ?_, hknown⟩
  have ht : Token.symbols [t] = t.lexeme.symbol?.toList := by
    rw [Token.symbols, List.filterMap_cons]
    cases t.lexeme.symbol? <;> rfl
  rw [Token.symbols_append, hsymbols, ht, List.append_assoc, ← hm.pending]

/-- A dialect that builds a comparison knows its symbol. -/
theorem contains_of_compare {symbol selector : String} {arguments : List String} {n : Node}
    (h : d.compare symbol selector arguments = .ok n) : d.operators.contains symbol = true := by
  rw [Registry.contains_eq_isSome]
  rw [Dialect.compare] at h
  cases ho : d.operators.get? symbol with
  | none =>
    rw [ho] at h
    cases h
  | some o => rfl

theorem Knows.settle (h : Knows d before s) (hu : s.settle d = .ok u) : Knows d before u := by
  rcases settle_cases hu with ⟨selector, symbol, arguments, n, hp, hn, rfl⟩ | ⟨_, rfl⟩
  · obtain ⟨known, hsymbols, hknown⟩ := h.symbols
    rw [hp] at hsymbols
    refine ⟨h.last, known ++ [symbol], ?_, ?_⟩
    · rw [hsymbols]
      exact (List.append_nil _).symm
    · intro o ho
      rcases List.mem_append.1 ho with ho | ho
      · exact hknown o ho
      · rw [List.mem_singleton.1 ho]
        exact contains_of_compare hn
  · exact h

/-- A comparison with an unknown symbol is refused with the first one that is unknown. -/
theorem Knows.refusal (h : Knows d before s) {selector symbol : String} {arguments : List String}
    (hp : s.phase = .compared selector symbol arguments)
    (hunknown : d.operators.get? symbol = none) (after : List Token) :
    Refusal d (before ++ after) (.unknownOperator symbol) := by
  obtain ⟨known, hsymbols, hknown⟩ := h.symbols
  rw [hp] at hsymbols
  refine .unknown ?_
  have hnone : known.find? (fun s => !d.operators.contains s) = none := by
    simpa using hknown
  have hcontains : d.operators.contains symbol = false := by
    rw [Registry.contains_eq_isSome, hunknown]
    rfl
  rw [Token.symbols_append, hsymbols, List.append_assoc, List.find?_append, hnone]
  simp [Phase.pending, hcontains]

/-! ## One step of both readers -/

/-- What the smaller dialect builds, the larger one builds. -/
theorem compare_of_extends (h : e.Extends d) {symbol selector : String} {arguments : List String}
    {n : Node} (hn : d.compare symbol selector arguments = .ok n) :
    e.compare symbol selector arguments = .ok n := by
  rw [Dialect.compare] at hn ⊢
  cases ho : d.operators.get? symbol with
  | none =>
    rw [ho] at hn
    cases hn
  | some o =>
    rw [ho] at hn
    rw [h.operators symbol o ho]
    exact hn

theorem settle_of_extends (h : e.Extends d) (hu : s.settle d = .ok u) : s.settle e = .ok u := by
  rcases settle_cases hu with ⟨selector, symbol, arguments, n, hp, hn, rfl⟩ | ⟨hp, rfl⟩
  · exact settle_of_compared hp (compare_of_extends h hn)
  · exact settle_of_not_compared hp

theorem Move.of_extends (h : e.Extends d) (hm : Move d s l v) : Move e s l v := by
  cases hm with
  | openGroup hroom => exact .openGroup (Nat.lt_of_lt_of_le hroom h.room)
  | closeGroup hall => exact .closeGroup hall
  | _ => constructor

/-- What the larger dialect builds, the smaller one builds unless it does not know the symbol. -/
theorem settle_of_settle (h : e.Extends d) (hs : Knows d before s) (hu : s.settle e = .ok u) :
    s.settle d = .ok u ∨
      ∃ f, s.settle d = .error f ∧ ∀ after, Refusal d (before ++ after) f := by
  rcases settle_cases hu with ⟨selector, symbol, arguments, n, hp, hn, rfl⟩ | ⟨hp, rfl⟩
  · cases ho : d.operators.get? symbol with
    | none =>
      refine .inr ⟨.unknownOperator symbol, ?_, hs.refusal hp ho⟩
      rw [State.settle, hp]
      show (d.compare symbol selector arguments).map _ = _
      rw [Dialect.compare, ho]
      rfl
    | some o =>
      -- both know the symbol for the same operator, and the rest of the check is about that
      refine .inl (settle_of_compared hp ?_)
      rw [Dialect.compare, h.operators symbol o ho] at hn
      rw [Dialect.compare, ho]
      exact hn
  · exact .inl (settle_of_not_compared hp)

/-- A token that the larger dialect takes the smaller one takes, unless it opens a group too
many. -/
theorem step_of_step (hs : s.last = before.getLast?) (hv : s.step e t = .ok v) :
    s.step d t = .ok v ∨
      ∃ f, s.step d t = .error f ∧ ∀ after, Refusal d (before ++ t :: after) f := by
  have hm := step_eq_ok_iff.1 hv
  obtain ⟨lexeme, start⟩ := t
  cases hm with
  | @openGroup outer frame last hroom =>
    by_cases hlt : outer.length < d.maxDepth
    · exact .inl (step_eq_ok_iff.2 (.openGroup hlt))
    · refine .inr ⟨_, ?_, fun after => .deep rfl rfl⟩
      show State.openGroup d _ _ = _
      rw [State.openGroup, if_neg hlt, ← hs]
      rfl
  | closeGroup hall => exact .inl (step_eq_ok_iff.2 (.closeGroup hall))
  | _ => exact .inl (step_eq_ok_iff.2 (by constructor))

/-- A token after which the larger dialect goes on leaves both in the same state, or the smaller
one has a reason to refuse the filter. -/
theorem feed_of_feed (h : e.Extends d) (hs : Knows d before s) (hu : s.feed e t = .ok u) :
    (s.feed d t = .ok u ∧ Knows d (before ++ [t]) u) ∨
      ∃ f, s.feed d t = .error f ∧ ∀ after, Refusal d (before ++ t :: after) f := by
  rw [feed_eq] at hu
  obtain ⟨w, hw, hu⟩ := bind_eq_ok_iff.1 hu
  obtain ⟨v, hv, hu⟩ := bind_eq_ok_iff.1 hu
  cases hu
  rw [feed_eq]
  rcases settle_of_settle h hs hw with hsettle | ⟨f, hsettle, hf⟩
  · have hknows := hs.settle hsettle
    rw [hsettle]
    rcases step_of_step hknows.last hv with hstep | ⟨f, hstep, hf⟩
    · refine .inl ⟨?_, hknows.move (step_eq_ok_iff.1 hstep)⟩
      show (w.step d t >>= _) = _
      rw [hstep]
      rfl
    · refine .inr ⟨f, ?_, hf⟩
      show (w.step d t >>= _) = _
      rw [hstep]
      rfl
  · refine .inr ⟨f, ?_, fun after => hf (t :: after)⟩
    rw [hsettle]
    rfl

/-! ## Runs of both readers -/

/-- What the smaller reader takes, the larger takes, to the same state. -/
theorem feed_of_extends (h : e.Extends d) (hu : s.feed d t = .ok u) : s.feed e t = .ok u := by
  rw [feed_eq] at hu ⊢
  obtain ⟨w, hw, hu⟩ := bind_eq_ok_iff.1 hu
  obtain ⟨v, hv, hu⟩ := bind_eq_ok_iff.1 hu
  rw [settle_of_extends h hw]
  show (w.step e t >>= _) = _
  rw [step_eq_ok_iff.2 ((step_eq_ok_iff.1 hv).of_extends h)]
  exact hu

theorem run_of_extends (h : e.Extends d) (ts : List Token) : ∀ {s : State},
    ts.foldlM (feed d) s = .ok u → ts.foldlM (feed e) s = .ok u := by
  induction ts with
  | nil => exact id
  | cons t ts ih =>
    intro s hu
    rw [List.foldlM_cons] at hu ⊢
    obtain ⟨v, hv, hu⟩ := bind_eq_ok_iff.1 hu
    rw [feed_of_extends h hv]
    exact ih hu

theorem run_of_run (h : e.Extends d) (ts : List Token) : ∀ {before : List Token} {s : State},
    Knows d before s → ts.foldlM (feed e) s = .ok u →
      (ts.foldlM (feed d) s = .ok u ∧ Knows d (before ++ ts) u) ∨
        ∃ f, ts.foldlM (feed d) s = .error f ∧ Refusal d (before ++ ts) f := by
  induction ts with
  | nil =>
    intro before s hs hu
    cases hu
    rw [List.append_nil]
    exact .inl ⟨rfl, hs⟩
  | cons t ts ih =>
    intro before s hs hu
    rw [List.foldlM_cons] at hu ⊢
    obtain ⟨v, hv, hu⟩ := bind_eq_ok_iff.1 hu
    rcases feed_of_feed h hs hv with ⟨hfeed, hknows⟩ | ⟨f, hfeed, hf⟩
    · rw [hfeed, List.append_cons]
      exact ih hknows hu
    · refine .inr ⟨f, ?_, hf ts⟩
      rw [hfeed]
      rfl

theorem finish_of_finish (h : e.Extends d) (hs : Knows d before s) {n : Node}
    (hn : s.finish e t = .ok n) :
    s.finish d t = .ok n ∨ ∃ f, s.finish d t = .error f ∧ Refusal d before f := by
  rw [State.finish] at hn ⊢
  obtain ⟨u, hu, hn⟩ := bind_eq_ok_iff.1 hn
  rcases settle_of_settle h hs hu with hsettle | ⟨f, hsettle, hf⟩
  · rw [hsettle]
    exact .inl hn
  · refine .inr ⟨f, ?_, ?_⟩
    · rw [hsettle]
      rfl
    · have hend := hf []
      rwa [List.append_nil] at hend

end State

variable {d e : Dialect} {text : String} {n : Node}

/-- The larger dialect reads what the smaller one reads, to the same tree. -/
theorem parse_of_parse (h : e.Extends d) (hn : d.parse text = .ok n) : e.parse text = .ok n := by
  obtain ⟨t, hend⟩ := exists_eof_of_parse hn
  rw [parse_eq_of_eof hend] at hn ⊢
  obtain ⟨s, hs, hn⟩ := bind_eq_ok_iff.1 hn
  have hrun : e.run (tokenize text).tokens = .ok s := State.run_of_extends h _ hs
  rw [State.finish] at hn
  obtain ⟨u, hu, hn⟩ := bind_eq_ok_iff.1 hn
  rw [hrun]
  show s.finish e t = .ok n
  rw [State.finish, State.settle_of_extends h hu]
  exact hn

/-- What the larger dialect reads, the smaller one reads or has a reason to refuse. -/
theorem parse_or_refusal (h : e.Extends d) (hn : e.parse text = .ok n) :
    d.parse text = .ok n ∨
      ∃ f, d.parse text = .error f ∧ Refusal d (tokenize text).tokens f := by
  obtain ⟨t, hend⟩ := exists_eof_of_parse hn
  rw [parse_eq_of_eof hend] at hn ⊢
  obtain ⟨s, hs, hn⟩ := bind_eq_ok_iff.1 hn
  rcases State.run_of_run h _ (.initial d) hs with ⟨hrun, hknows⟩ | ⟨f, hrun, hf⟩
  · have hsame : d.run (tokenize text).tokens = .ok s := hrun
    rw [hsame]
    exact State.finish_of_finish h hknows hn
  · have hfails : d.run (tokenize text).tokens = .error f := hrun
    rw [hfails]
    exact .inr ⟨f, rfl, hf⟩

/-- The first comparison with an unknown symbol, from the first unknown symbol among the tokens. -/
theorem find?_clauses {ts : List Token} {p : Disjunction} {symbol : String} {q : String → Bool}
    (hp : ts.map (·.lexeme) = p.lexemes) (h : (Token.symbols ts).find? q = some symbol) :
    ∃ c, p.clauses.find? (fun c => q c.symbol) = some c ∧ c.symbol = symbol := by
  have hsymbols : Token.symbols ts = p.clauses.map (·.symbol) := by
    rw [← p.symbols_lexemes, ← hp, List.filterMap_map]
    rfl
  rw [hsymbols, List.find?_map, Option.map_eq_some_iff] at h
  exact h

/-- A smaller dialect never reads a filter as something else. What it reads, the larger dialect
reads to the same tree. What the larger dialect reads, it reads to that tree or refuses, and then it
names the symbol of the first comparison whose symbol it does not know, or a parenthesis of the
text that opens a group too many. -/
theorem parse_of_extends (h : e.Extends d) (text : String) (n : Node) :
    (d.parse text = .ok n → e.parse text = .ok n) ∧
    (e.parse text = .ok n → d.parse text = .ok n ∨
      (∃ (p : Disjunction) (c : Clause), (tokenize text).lexemes? = some p.lexemes ∧
        p.clauses.find? (fun c => !d.operators.contains c.symbol) = some c ∧
        d.parse text = .error (.unknownOperator c.symbol)) ∨
      ∃ before t after, (tokenize text).tokens = before ++ t :: after ∧ t.lexeme = .opening ∧
        d.parse text = .error (.unexpected [s!"at most {d.maxDepth} nested groups"] "'('"
          (before.getLast?.map Token.describe) t.start.line t.start.column)) := by
  refine ⟨parse_of_parse h, ?_⟩
  intro hn
  rcases parse_or_refusal h hn with hsame | ⟨f, hf, hrefusal⟩
  · exact .inl hsame
  · cases hrefusal with
    | unknown hfind =>
      obtain ⟨p, hlexes, -⟩ := exists_phrase_of_parse hn
      have hlexemes := (lexemes?_tokenize text p.lexemes).2 hlexes
      obtain ⟨-, -, htokens⟩ := lexemes?_eq_some hlexemes
      obtain ⟨c, hc, rfl⟩ := find?_clauses htokens hfind
      exact .inr (.inl ⟨p, c, hlexemes, hc, hf⟩)
    | deep htokens ht => exact .inr (.inr ⟨_, _, _, htokens, ht, hf⟩)

/-- The tree of `a==1;((b==2))`. -/
def pair : Node :=
  .logical .and .and
    [.comparison ⟨⟨"==", [], false⟩, "a", ["1"]⟩, .comparison ⟨⟨"==", [], false⟩, "b", ["2"]⟩]

/-- A filter with two groups, where one may be open. -/
theorem parse_of_extends_pair :
    parse ⟨.standard, 2⟩ "a==1;((b==2))" = .ok pair ∧
    (parse ⟨.standard, 1⟩ "a==1;((b==2))" = .ok pair ∨
      (∃ (p : Disjunction) (c : Clause), (tokenize "a==1;((b==2))").lexemes? = some p.lexemes ∧
        p.clauses.find? (fun c => !Registry.standard.contains c.symbol) = some c ∧
        parse ⟨.standard, 1⟩ "a==1;((b==2))" = .error (.unknownOperator c.symbol)) ∨
      ∃ before t after, (tokenize "a==1;((b==2))").tokens = before ++ t :: after ∧
        t.lexeme = .opening ∧
        parse ⟨.standard, 1⟩ "a==1;((b==2))" = .error (.unexpected ["at most 1 nested groups"]
          "'('" (before.getLast?.map Token.describe) t.start.line t.start.column)) := by
  have hextends : Extends ⟨.standard, 2⟩ ⟨.standard, 1⟩ := ⟨fun _ _ h => h, by decide⟩
  have hread : parse ⟨.standard, 2⟩ "a==1;((b==2))" = .ok pair := by with_unfolding_all rfl
  exact ⟨hread, (parse_of_extends hextends "a==1;((b==2))" pair).2 hread⟩

end Dialect

end FilterQuery
