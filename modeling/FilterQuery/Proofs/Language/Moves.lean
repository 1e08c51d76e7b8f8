/-
# FilterQuery.Proofs.Language.Moves -- what a reader does with a token

`State.Move` lists all moves of the reading machine: from which phase, on which lexeme, to which
state. `step_eq_ok_iff` says that these are the tokens that it accepts, so what a token can do is
looked up here once and the machine's own case analysis stays closed.

A comparison is built only when the next token comes, or the end. `State.take` reads tokens and
then builds what is left to be built; taking one row of tokens after the other is taking both
(`take_append`), which is not true of reading alone. `Reaches` and `Fails` are its two outcomes,
told of lexemes: where a token stands and which one came before it can change a failure's place,
never the course of the machine.
-/

import FilterQuery.Dialect
import FilterQuery.Proofs.Node.Building

namespace FilterQuery.Dialect

/-! ## Moves -/

namespace State

/-- The moves of the reading machine in a state whose comparison, if one has ended, is built. -/
inductive Move (d : Dialect) : State → Lexeme → State → Prop
  | openGroup {outer frame last} : outer.length < d.maxDepth →
      Move d ⟨outer, frame, .constraint, last⟩ .opening ⟨frame :: outer, .empty, .constraint, last⟩
  | selector {outer frame last} (s : String) :
      Move d ⟨outer, frame, .constraint, last⟩ (.bare s) ⟨outer, frame, .operator s, last⟩
  | symbol {outer frame last s} (o : String) :
      Move d ⟨outer, frame, .operator s, last⟩ (.operator o) ⟨outer, frame, .arguments s o, last⟩
  | openList {outer frame last s o} :
      Move d ⟨outer, frame, .arguments s o, last⟩ .opening ⟨outer, frame, .element s o [], last⟩
  | bareValue {outer frame last s o} (v : String) :
      Move d ⟨outer, frame, .arguments s o, last⟩ (.bare v) ⟨outer, frame, .compared s o [v], last⟩
  | quotedValue {outer frame last s o} (v : String) :
      Move d ⟨outer, frame, .arguments s o, last⟩ (.quoted v)
        ⟨outer, frame, .compared s o [v], last⟩
  | bareElement {outer frame last s o vs} (v : String) :
      Move d ⟨outer, frame, .element s o vs, last⟩ (.bare v)
        ⟨outer, frame, .separator s o (v :: vs), last⟩
  | quotedElement {outer frame last s o vs} (v : String) :
      Move d ⟨outer, frame, .element s o vs, last⟩ (.quoted v)
        ⟨outer, frame, .separator s o (v :: vs), last⟩
  | nextElement {outer frame last s o vs} :
      Move d ⟨outer, frame, .separator s o vs, last⟩ .or ⟨outer, frame, .element s o vs, last⟩
  | closeList {outer frame last s o vs} :
      Move d ⟨outer, frame, .separator s o vs, last⟩ .closing
        ⟨outer, frame, .compared s o vs.reverse, last⟩
  | semicolon {outer frame last n} :
      Move d ⟨outer, frame, .ended n, last⟩ .and ⟨outer, frame.semicolon n, .constraint, last⟩
  | comma {outer frame last n} :
      Move d ⟨outer, frame, .ended n, last⟩ .or ⟨outer, frame.comma n, .constraint, last⟩
  | closeGroup {all outer frame f last n} : all = f :: outer →
      Move d ⟨all, frame, .ended n, last⟩ .closing ⟨outer, f, .ended (frame.finish n), last⟩

variable {d : Dialect} {s u v : State} {t : Token} {l : Lexeme}

/-- The machine accepts exactly the tokens of its moves. -/
theorem step_eq_ok_iff : s.step d t = .ok u ↔ Move d s t.lexeme u := by
  constructor
  · intro h
    obtain ⟨outer, frame, phase, last⟩ := s
    obtain ⟨lexeme, start⟩ := t
    cases phase <;> cases lexeme <;> simp only [step] at h <;> try cases h
    case constraint.opening =>
      rw [State.openGroup] at h
      split at h
      · rename_i hlt
        cases h
        exact .openGroup hlt
      · cases h
    case ended.closing =>
      cases outer with
      | nil => cases h
      | cons f outer =>
        cases h
        exact .closeGroup rfl
    all_goals constructor
  · intro h
    obtain ⟨lexeme, start⟩ := t
    cases h with
    | openGroup hlt => simp [step, State.openGroup, hlt]
    | closeGroup hall =>
      subst hall
      rfl
    | _ => rfl

/-- Which token came before has no influence on moves. -/
theorem Move.setLast (h : Move d s l u) (last : Option Token) :
    Move d { s with last := last } l { u with last := last } := by
  cases h with
  | openGroup hlt => exact .openGroup hlt
  | closeGroup hall => exact .closeGroup hall
  | _ => constructor

/-! ## Building what is left to be built -/

/-- Building changes the phase only, and only that of a comparison. -/
theorem settle_cases (h : s.settle d = .ok u) :
    (∃ selector symbol arguments n, s.phase = .compared selector symbol arguments ∧
        d.compare symbol selector arguments = .ok n ∧ u = { s with phase := .ended n }) ∨
      (∀ selector symbol arguments, s.phase ≠ .compared selector symbol arguments) ∧ u = s := by
  rw [settle] at h
  split at h
  · rename_i selector symbol arguments hp
    obtain ⟨n, hn, rfl⟩ := map_eq_ok_iff.1 h
    exact .inl ⟨selector, symbol, arguments, n, hp, hn, rfl⟩
  · rename_i hp
    cases h
    exact .inr ⟨hp, rfl⟩

theorem settle_of_compared {selector symbol : String} {arguments : List String} {n : Node}
    (hp : s.phase = .compared selector symbol arguments)
    (hn : d.compare symbol selector arguments = .ok n) :
    s.settle d = .ok { s with phase := .ended n } := by
  rw [settle, hp]
  show (d.compare symbol selector arguments).map _ = _
  rw [hn]
  rfl

theorem settle_of_not_compared
    (hp : ∀ selector symbol arguments, s.phase ≠ .compared selector symbol arguments) :
    s.settle d = .ok s := by
  rw [settle]
  split
  · rename_i h
    exact absurd h (hp _ _ _)
  · rfl

theorem settle_idem (h : s.settle d = .ok u) : u.settle d = .ok u := by
  rcases settle_cases h with ⟨_, _, _, n, _, _, rfl⟩ | ⟨hp, rfl⟩
  · rfl
  · exact settle_of_not_compared hp

theorem Move.settle_eq (h : Move d s l u) : s.settle d = .ok s := by
  cases h <;> rfl

theorem settle_setLast (h : s.settle d = .ok u) (last : Option Token) :
    State.settle d { s with last := last } = .ok { u with last := last } := by
  rcases settle_cases h with ⟨_, _, _, n, hp, hn, rfl⟩ | ⟨hp, rfl⟩
  · exact settle_of_compared hp hn
  · exact settle_of_not_compared hp

/-- Takes tokens and builds the comparison that they may end with. -/
def take (d : Dialect) (s : State) (ts : List Token) : Except Failure State := do
  let s ← ts.foldlM (feed d) s
  s.settle d

@[simp] theorem take_nil : s.take d [] = s.settle d := rfl

theorem take_cons (ts : List Token) : s.take d (t :: ts) = s.feed d t >>= fun u => u.take d ts := by
  simp only [take, List.foldlM_cons, bind_assoc]

theorem feed_eq : s.feed d t = s.settle d >>= fun u =>
    u.step d t >>= fun v => .ok { v with last := some t } := rfl

/-- Tokens may be taken after building, too: taking starts with building. -/
theorem settle_bind_take (ts : List Token) :
    (s.settle d >>= fun u => u.take d ts) = s.take d ts := by
  cases h : s.settle d with
  | error f =>
    cases ts with
    | nil => simp only [take_nil, h]; rfl
    | cons t ts =>
      rw [take_cons, feed_eq, h]
      rfl
  | ok u =>
    have hu := settle_idem h
    cases ts with
    | nil =>
      rw [take_nil, h]
      exact hu
    | cons t ts =>
      show u.take d (t :: ts) = s.take d (t :: ts)
      rw [take_cons, take_cons, feed_eq, feed_eq, h, hu]

theorem take_append (ts us : List Token) :
    s.take d (ts ++ us) = s.take d ts >>= fun u => u.take d us := by
  induction ts generalizing s with
  | nil => rw [List.nil_append, take_nil, settle_bind_take]
  | cons t ts ih =>
    rw [List.cons_append, take_cons, take_cons, bind_assoc]
    congr 1
    funext u
    exact ih

/-- The node of the whole input is found in the state in which all is built. -/
theorem settle_bind_finish (e : Token) : (s.settle d >>= fun u => u.finish d e) = s.finish d e := by
  simp only [finish]
  cases h : s.settle d with
  | error f => rfl
  | ok u =>
    show (u.settle d >>= _) = _
    rw [settle_idem h]

/-! ## Outcomes of lexemes -/

/-- Another token with the same lexeme, behind another token, is taken in the same way. -/
theorem feed_of_lexeme {t' : Token} (ht : t'.lexeme = t.lexeme) (h : s.feed d t = .ok u)
    (last : Option Token) :
    State.feed d { s with last := last } t' = .ok { u with last := some t' } := by
  rw [feed_eq] at h ⊢
  obtain ⟨w, hw, h⟩ := bind_eq_ok_iff.1 h
  obtain ⟨v, hv, h⟩ := bind_eq_ok_iff.1 h
  cases h
  have hstep : State.step d { w with last := last } t' = .ok { v with last := last } := by
    rw [step_eq_ok_iff, ht]
    exact (step_eq_ok_iff.1 hv).setLast last
  rw [settle_setLast hw last]
  show (State.step d { w with last := last } t' >>= _) = _
  rw [hstep]
  rfl

/-- Tokens with the same lexemes are taken in the same way. -/
theorem run_of_lexemes (ts : List Token) : ∀ {us : List Token} {s : State},
    us.map (·.lexeme) = ts.map (·.lexeme) → ts.foldlM (feed d) s = .ok u →
      ∀ last : Option Token, ∃ last', us.foldlM (feed d) { s with last := last } =
        .ok { u with last := last' } := by
  induction ts with
  | nil =>
    intro us s hus h last
    rw [List.map_nil, List.map_eq_nil_iff] at hus
    cases hus
    cases h
    exact ⟨last, rfl⟩
  | cons t ts ih =>
    intro us s hus h last
    obtain ⟨t', us, rfl, ht, hus⟩ := List.map_eq_cons_iff.1 hus
    rw [List.foldlM_cons] at h
    obtain ⟨w, hw, h⟩ := bind_eq_ok_iff.1 h
    obtain ⟨last', hlast'⟩ := ih hus h (some t')
    refine ⟨last', ?_⟩
    rw [List.foldlM_cons, feed_of_lexeme ht hw]
    exact hlast'

/-- From `s`, tokens with the lexemes `ls` lead to `u`, but for the token that comes last. -/
def Reaches (d : Dialect) (s : State) (ls : List Lexeme) (u : State) : Prop :=
  ∀ (last : Option Token) (ts : List Token), ts.map (·.lexeme) = ls →
    ∃ last', State.take d { s with last := last } ts = .ok { u with last := last' }

/-- From `s`, tokens with the lexemes `ls` lead to one of the failures `E`. -/
def Fails (d : Dialect) (s : State) (ls : List Lexeme) (E : Failure → Prop) : Prop :=
  ∀ (last : Option Token) (ts : List Token), ts.map (·.lexeme) = ls →
    ∃ f, State.take d { s with last := last } ts = .error f ∧ E f

variable {ls ms : List Lexeme} {E : Failure → Prop}

theorem Reaches.append (h : Reaches d s ls u) (h' : Reaches d u ms v) :
    Reaches d s (ls ++ ms) v := by
  intro last ts hts
  obtain ⟨ts₁, ts₂, rfl, h₁, h₂⟩ := List.map_eq_append_iff.1 hts
  obtain ⟨last₁, hu⟩ := h last ts₁ h₁
  obtain ⟨last₂, hv⟩ := h' last₁ ts₂ h₂
  exact ⟨last₂, by rw [take_append, hu]; exact hv⟩

theorem Fails.append (h : Fails d s ls E) (ms : List Lexeme) : Fails d s (ls ++ ms) E := by
  intro last ts hts
  obtain ⟨ts₁, ts₂, rfl, h₁, h₂⟩ := List.map_eq_append_iff.1 hts
  obtain ⟨f, hf, hE⟩ := h last ts₁ h₁
  exact ⟨f, by rw [take_append, hf]; rfl, hE⟩

theorem Reaches.fails (h : Reaches d s ls u) (h' : Fails d u ms E) : Fails d s (ls ++ ms) E := by
  intro last ts hts
  obtain ⟨ts₁, ts₂, rfl, h₁, h₂⟩ := List.map_eq_append_iff.1 hts
  obtain ⟨last₁, hu⟩ := h last ts₁ h₁
  obtain ⟨f, hf, hE⟩ := h' last₁ ts₂ h₂
  exact ⟨f, by rw [take_append, hu]; exact hf, hE⟩

/-- A move, and building what it has completed, is a way to reach a state. -/
theorem Move.reaches (h : Move d s l v) (hv : v.settle d = .ok u) : Reaches d s [l] u := by
  intro last ts hts
  obtain ⟨t, rfl, rfl⟩ := List.map_eq_singleton_iff.1 hts
  refine ⟨some t, ?_⟩
  rw [take_cons, feed_eq, (h.setLast last).settle_eq]
  show (State.step d { s with last := last } t >>= _) >>= _ = _
  rw [step_eq_ok_iff.2 (h.setLast last)]
  exact settle_setLast hv (some t)

/-- A move after which nothing is left to be built. -/
theorem Move.reaches_cons (h : Move d s l u) (h' : Reaches d u ms v) (hu : u.settle d = .ok u) :
    Reaches d s (l :: ms) v :=
  (h.reaches hu).append h'

theorem Move.fails_cons (h : Move d s l u) (h' : Fails d u ms E) (hu : u.settle d = .ok u) :
    Fails d s (l :: ms) E :=
  (h.reaches hu).fails h'

end State

end FilterQuery.Dialect
