/-
# FilterQuery.Proofs.Language.Failures -- in which ways reading can fail

`Dialect.Misread` lists them: a character that starts no token, a token where the grammar wants
another, a symbol that is not registered, and a list for an operator that takes one argument. There
is no other way (`misread_of_parse`), although building a comparison refuses more than that: what
the machine gives to it is never a selector that needs quotes, and never nothing (`Phase.Sound`).
-/

import FilterQuery.Proofs.Language.Moves
import FilterQuery.Proofs.Language.Stepping

namespace FilterQuery.Dialect

open Text

/-- The failures of reading: no token starts at a place, a token stands where the grammar wants
another, a symbol is not registered, or a list is given to an operator that takes one argument. -/
inductive Misread (d : Dialect) : Failure → Prop
  | lexical (f : LexicalFault) : Misread d f.toFailure
  | grammar (expected : List String) (found : String) (last : Option String) (line column : Nat) :
      Misread d (.unexpected expected found last line column)
  | unknown {symbol : String} : d.operators.get? symbol = none →
      Misread d (.unknownOperator symbol)
  | count {symbol : String} {o : Operator} {n : Nat} : d.operators.get? symbol = some o →
      o.multi = false → 2 ≤ n → Misread d (.argumentCount o.primary n)

/-- The selector that has been read needs no quotes, and arguments that are complete are not
missing. -/
def Phase.Sound : Phase → Prop
  | .constraint => True
  | .operator selector => isBare selector = true
  | .arguments selector _ => isBare selector = true
  | .element selector _ _ => isBare selector = true
  | .separator selector _ before => isBare selector = true ∧ before ≠ []
  | .compared selector _ texts => isBare selector = true ∧ texts ≠ []
  | .ended _ => True

variable {d : Dialect}

/-- A comparison that is not built is refused for its symbol or for one of its parts. -/
theorem kind_of_compare {symbol selector : String} {arguments : List String} {f : Failure}
    (h : d.compare symbol selector arguments = .error f) :
    f.kind = .unknownOperator symbol ∨ f.kind = .invalidArgument := by
  rw [Dialect.compare] at h
  split at h
  · rw [Node.compare, Comparison.make] at h
    repeat' split at h
    all_goals
      cases h
      try exact .inr rfl
  · cases h
    exact .inl rfl

/-- Of a sound comparison only the symbol and the number of arguments can be refused. -/
theorem compare_meets {selector symbol : String} {arguments : List String}
    (h : (Phase.compared selector symbol arguments).Sound) :
    Meets d.Misread (fun _ => True) (d.compare symbol selector arguments) := by
  rw [meets_iff]
  refine ⟨?_, fun _ _ => trivial⟩
  intro f hf
  rw [Dialect.compare] at hf
  split at hf
  · rename_i o ho
    rw [Node.compare] at hf
    cases hmake : Comparison.make o selector arguments with
    | ok c =>
      rw [hmake] at hf
      cases hf
    | error e =>
      rw [hmake] at hf
      cases hf
      obtain ⟨hmulti, hcount, rfl⟩ := Comparison.eq_argumentCount_of_make h.1 h.2 hmake
      exact .count ho hmulti hcount
  · rename_i hnone
    cases hf
    exact .unknown hnone

namespace State

variable {s v : State} {t : Token} {l : Lexeme}

/-- What cannot be built is a comparison. -/
theorem kind_of_settle {f : Failure} (h : s.settle d = .error f) :
    (∃ symbol, f.kind = .unknownOperator symbol) ∨ f.kind = .invalidArgument := by
  rw [settle] at h
  split at h
  · exact (kind_of_compare (map_eq_error_iff.1 h)).imp_left fun hkind => ⟨_, hkind⟩
  · cases h

/-- Each move on a token of a text keeps the phase sound. -/
theorem Move.sound (h : Move d s l v) (hs : s.phase.Sound) (hl : l.Proper) : v.phase.Sound := by
  cases h with
  | openGroup _ => trivial
  | selector _ => exact hl
  | symbol _ => exact hs
  | openList => exact hs
  | bareValue v => exact ⟨hs, List.cons_ne_nil v []⟩
  | quotedValue v => exact ⟨hs, List.cons_ne_nil v []⟩
  | bareElement v => exact ⟨hs, List.cons_ne_nil v _⟩
  | quotedElement v => exact ⟨hs, List.cons_ne_nil v _⟩
  | nextElement => exact hs.1
  | closeList => exact ⟨hs.1, by simpa using hs.2⟩
  | semicolon => trivial
  | comma => trivial
  | closeGroup _ => trivial

/-- A token that is not accepted is one that the grammar does not want there. -/
theorem unexpected_of_step {f : Failure} (h : s.step d t = .error f) :
    ∃ expected, f = s.unexpected t expected := by
  obtain ⟨outer, frame, phase, last⟩ := s
  obtain ⟨lexeme, start⟩ := t
  cases phase <;> cases lexeme <;> simp only [step] at h
  case constraint.opening =>
    rw [State.openGroup] at h
    split at h
    · cases h
    · cases h
      exact ⟨_, rfl⟩
  case ended.closing =>
    cases outer with
    | nil =>
      cases h
      exact ⟨_, rfl⟩
    | cons f outer => cases h
  all_goals
    cases h
    try exact ⟨_, rfl⟩

theorem settle_meets (hs : s.phase.Sound) :
    Meets d.Misread (fun u => u.phase.Sound) (s.settle d) := by
  rw [settle]
  split
  · rename_i hp
    rw [hp] at hs
    exact (compare_meets hs).map fun _ _ => trivial
  · exact hs

theorem step_meets (hs : s.phase.Sound) (ht : t.lexeme.Proper) :
    Meets d.Misread (fun u => u.phase.Sound) (s.step d t) := by
  rw [meets_iff]
  constructor
  · intro f hf
    obtain ⟨expected, rfl⟩ := unexpected_of_step hf
    exact .grammar ..
  · intro v hv
    exact (step_eq_ok_iff.1 hv).sound hs ht

theorem feed_meets (hs : s.phase.Sound) (ht : t.lexeme.Proper) :
    Meets d.Misread (fun u => u.phase.Sound) (s.feed d t) :=
  (settle_meets hs).bind fun _ hu => (step_meets hu ht).bind fun _ hv => hv

theorem finish_meets (hs : s.phase.Sound) :
    Meets d.Misread (fun _ => True) (s.finish d t) := by
  refine (settle_meets hs).bind fun u _ => ?_
  split
  · trivial
  · exact .grammar ..

end State

theorem run_meets {ts : List Token} (h : ∀ t ∈ ts, t.lexeme.Proper) :
    Meets d.Misread (fun u => u.phase.Sound) (d.run ts) :=
  Meets.foldlM (fun _ t ht hs => State.feed_meets hs (h t ht)) trivial

/-- Whatever the text is, reading it fails in one of these ways. -/
theorem misread_of_parse {text : String} {f : Failure} (h : d.parse text = .error f) :
    d.Misread f := by
  have hmeets : Meets d.Misread (fun _ => True) (d.parse text) := by
    -- the tokens in front of a fault are as good as those of a text without one
    refine (run_meets proper_of_mem_tokens).bind fun s hs => ?_
    split
    · exact .lexical _
    · exact State.finish_meets hs
  rw [h] at hmeets
  exact hmeets

end FilterQuery.Dialect
