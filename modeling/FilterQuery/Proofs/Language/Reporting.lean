/-
# FilterQuery.Proofs.Language.Reporting -- when a lexical fault is what a reader reports

A text with a fault is never read, but it need not be refused for the fault: a reader that does not
take one of the tokens before it never comes to it. What a reader says of tokens is never lexical
(`not_lexical_of_run`), so a lexical failure is always that of the fault, and the fault is reported
just when all tokens before it have been taken.

Whether they are depends on their lexemes alone (`State.run_of_lexemes`). So a fault is reported
wherever the tokens before it begin some text that the dialect reads, however far reading had come:
the comparison before the fault, if one was complete, has not been built when the fault is met.
-/

import FilterQuery.Proofs.Language.Failures
import FilterQuery.Proofs.Language.Recognition

namespace FilterQuery.Dialect

open Grammar

variable {d : Dialect} {f : Failure}

/-- The failure says that a character begins no token. -/
def Lexical (f : Failure) : Prop := ∃ character offset, f.kind = .lexical character offset

/-! ## What is said of tokens -/

namespace State

variable {s : State} {t : Token}

theorem not_lexical_of_settle (h : s.settle d = .error f) : ¬ Lexical f := by
  rintro ⟨character, offset, hkind⟩
  rcases kind_of_settle h with ⟨symbol, hsettle⟩ | hsettle
  · rw [hkind] at hsettle
    cases hsettle
  · rw [hkind] at hsettle
    cases hsettle

theorem not_lexical_of_step (h : s.step d t = .error f) : ¬ Lexical f := by
  obtain ⟨expected, rfl⟩ := unexpected_of_step h
  rintro ⟨character, offset, hkind⟩
  cases hkind

/-- What is said of a token is not lexical. -/
theorem feed_meets_not_lexical (d : Dialect) (s : State) (t : Token) :
    Meets (fun f => ¬ Lexical f) (fun _ => True) (s.feed d t) := by
  have hsettle : Meets (fun f => ¬ Lexical f) (fun _ => True) (s.settle d) :=
    meets_iff.2 ⟨fun _ => not_lexical_of_settle, fun _ _ => trivial⟩
  have hstep : ∀ u : State, Meets (fun f => ¬ Lexical f) (fun _ => True) (u.step d t) :=
    fun u => meets_iff.2 ⟨fun _ => not_lexical_of_step, fun _ _ => trivial⟩
  exact hsettle.bind fun u _ => (hstep u).bind fun _ _ => trivial

end State

/-- Reading tokens never fails with a lexical failure. -/
theorem not_lexical_of_run {ts : List Token} (h : d.run ts = .error f) : ¬ Lexical f := by
  have hmeets : Meets (fun f => ¬ Lexical f) (fun _ => True) (d.run ts) :=
    Meets.foldlM (fun s t _ _ => State.feed_meets_not_lexical d s t) trivial
  exact (meets_iff.1 hmeets).1 f h

/-! ## What is said of a text with a fault -/

variable {text other : String} {fault : LexicalFault}

theorem parse_eq_of_fault (h : (tokenize text).ending = .fault fault) :
    d.parse text = d.run (tokenize text).tokens >>= fun _ => .error fault.toFailure := by
  rw [Dialect.parse, parseTokens, h]

/-- Lexemes with which a text begins that is read can be taken, as other tokens, too. -/
theorem exists_run_of_parse {ts : List Token} {n : Node} (h : d.parse other = .ok n)
    (hstart : ts.map (·.lexeme) <+: (tokenize other).tokens.map (·.lexeme)) :
    ∃ s, d.run ts = .ok s := by
  obtain ⟨e, hend⟩ := exists_eof_of_parse h
  rw [parse_eq_of_eof hend] at h
  obtain ⟨u, hu, -⟩ := bind_eq_ok_iff.1 h
  obtain ⟨behind, hbehind⟩ := hstart
  obtain ⟨before, after, htokens, hbefore, -⟩ := List.map_eq_append_iff.1 hbehind.symm
  rw [htokens, Dialect.run, List.foldlM_append] at hu
  obtain ⟨v, hv, -⟩ := bind_eq_ok_iff.1 hu
  obtain ⟨last, hlast⟩ := State.run_of_lexemes before hbefore.symm hv none
  exact ⟨_, hlast⟩

/-- A fault is not masked. A text with a fault is never read; if it is refused with a lexical
failure, that is the fault; and it is refused with the fault if the tokens in front of it say what
the first tokens of some text say that the dialect reads. -/
theorem fault_not_masked (h : (tokenize text).ending = .fault fault) :
    (∀ n, d.parse text ≠ .ok n) ∧
    (∀ f character offset, d.parse text = .error f → f.kind = .lexical character offset →
      f = fault.toFailure ∧ character = fault.character ∧ offset = fault.offset) ∧
    ∀ other n, d.parse other = .ok n →
      (tokenize text).tokens.map (·.lexeme) <+: (tokenize other).tokens.map (·.lexeme) →
        d.parse text = .error fault.toFailure := by
  rw [parse_eq_of_fault h]
  refine ⟨?_, ?_, ?_⟩
  · intro n hn
    obtain ⟨s, -, hs⟩ := bind_eq_ok_iff.1 hn
    cases hs
  · intro f character offset hf hkind
    rcases bind_eq_error_iff.1 hf with hrun | ⟨s, -, hs⟩
    · exact absurd ⟨character, offset, hkind⟩ (not_lexical_of_run hrun)
    · cases hs
      cases hkind
      exact ⟨rfl, rfl, rfl⟩
  · intro other n hother hstart
    obtain ⟨s, hs⟩ := exists_run_of_parse hother hstart
    rw [hs]
    rfl

/-- A fault behind a symbol, in a group, where a value must come. -/
theorem fault_not_masked_nested :
    (tokenize "(a=in=(1,'2'),b>~").ending = .fault ⟨'~', 16⟩ ∧
      (∀ n, parse {} "(a=in=(1,'2'),b>~" ≠ .ok n) ∧
      (∃ n, parse {} "( a =in= (1, \"2\"), b > 3 )" = .ok n) ∧
      (tokenize "(a=in=(1,'2'),b>~").tokens.map (·.lexeme) <+:
        (tokenize "( a =in= (1, \"2\"), b > 3 )").tokens.map (·.lexeme) ∧
      parse {} "(a=in=(1,'2'),b>~" = .error (.illegalCharacter '~' 16) ∧
      (Failure.illegalCharacter '~' 16).kind = .lexical '~' 16 ∧
      Failure.illegalCharacter '~' 16 = LexicalFault.toFailure ⟨'~', 16⟩ := by
  have hfault : (tokenize "(a=in=(1,'2'),b>~").ending = .fault ⟨'~', 16⟩ := by
    with_unfolding_all rfl
  have hread : parse {} "( a =in= (1, \"2\"), b > 3 )" = .ok (.logical .or .or
      [.comparison ⟨⟨"=in=", [], true⟩, "a", ["1", "2"]⟩,
        .comparison ⟨⟨"=gt=", [">"], false⟩, "b", ["3"]⟩]) := by
    with_unfolding_all rfl
  have hstart : (tokenize "(a=in=(1,'2'),b>~").tokens.map (·.lexeme) <+:
      (tokenize "( a =in= (1, \"2\"), b > 3 )").tokens.map (·.lexeme) :=
    ⟨[.bare "3", .closing], by with_unfolding_all rfl⟩
  obtain ⟨hnever, hsame, hreported⟩ := fault_not_masked hfault
  have hparse : parse {} "(a=in=(1,'2'),b>~" = .error (.illegalCharacter '~' 16) :=
    hreported _ _ hread hstart
  exact ⟨hfault, hnever, ⟨_, hread⟩, hstart, hparse, rfl, (hsame _ _ _ hparse rfl).1⟩

end FilterQuery.Dialect
