/-
# FilterQuery.Proofs.Language.Outline -- which lexemes may come next

Whether a token is accepted depends on very little of what has been read: on how many groups are
open, and on the kind of thing that must come next. `Outline` is that little, and `Outline.next` is
its course. There is no text, no tree and no registry in it, and no comparison is built.

Two facts are told of it. A phrase whose groups have room takes the outline of a place where a
constraint must come to that of a place where one has ended (`Disjunction.course`); this holds of
every phrase, also of one with symbols that no registry knows. And the reader follows the same
course: with each token that it takes its outline goes on (`course_of_run`), and a token that it
does not accept is one on which its outline cannot go on (`next_of_step`, `next_of_finish`). So a
token with which some phrase goes on is never refused, whatever the rest of that phrase is.
-/

import FilterQuery.Proofs.Language.Moves
import FilterQuery.Proofs.Language.Phrase

namespace FilterQuery.Grammar

open Dialect Dialect.State

/-! ## Outlines and their course -/

/-- The kind of thing that must come next; nothing does when the input is done. -/
inductive Stage where
  | constraint
  | operator
  | arguments
  | element
  | separator
  | ended
  | done
  deriving Repr, DecidableEq

/-- All of a reader's state that decides which lexemes may come. -/
structure Outline where
  groups : Nat := 0
  stage : Stage := .constraint
  deriving Repr, DecidableEq

namespace Outline

/-- The outline behind a lexeme, if that may come: at most `limit` groups are open at once, and the
end may come when none is. -/
def next (limit : Nat) : Outline → Lexeme → Option Outline
  | ⟨n, .constraint⟩, .opening => if n < limit then some ⟨n + 1, .constraint⟩ else none
  | ⟨n, .constraint⟩, .bare _ => some ⟨n, .operator⟩
  | ⟨n, .operator⟩, .operator _ => some ⟨n, .arguments⟩
  | ⟨n, .arguments⟩, .opening => some ⟨n, .element⟩
  | ⟨n, .arguments⟩, .bare _ => some ⟨n, .ended⟩
  | ⟨n, .arguments⟩, .quoted _ => some ⟨n, .ended⟩
  | ⟨n, .element⟩, .bare _ => some ⟨n, .separator⟩
  | ⟨n, .element⟩, .quoted _ => some ⟨n, .separator⟩
  | ⟨n, .separator⟩, .or => some ⟨n, .element⟩
  | ⟨n, .separator⟩, .closing => some ⟨n, .ended⟩
  | ⟨n, .ended⟩, .and => some ⟨n, .constraint⟩
  | ⟨n, .ended⟩, .or => some ⟨n, .constraint⟩
  | ⟨n + 1, .ended⟩, .closing => some ⟨n, .ended⟩
  | ⟨0, .ended⟩, .eof => some ⟨0, .done⟩
  | _, _ => none

/-- The outline behind some lexemes, if all of them may come. -/
def course (limit : Nat) (o : Outline) (ls : List Lexeme) : Option Outline :=
  ls.foldlM (next limit) o

variable {limit : Nat} {o o' o'' : Outline} {l : Lexeme} {ls ms : List Lexeme}

@[simp] theorem course_nil : o.course limit [] = some o := rfl

@[simp] theorem course_cons :
    o.course limit (l :: ls) = (o.next limit l).bind fun p => p.course limit ls :=
  List.foldlM_cons

theorem course_append :
    o.course limit (ls ++ ms) = (o.course limit ls).bind fun p => p.course limit ms :=
  List.foldlM_append

/-- One course goes on where another has ended. -/
theorem course_trans (h : o.course limit ls = some o') (h' : o'.course limit ms = some o'') :
    o.course limit (ls ++ ms) = some o'' := by
  rw [course_append, h]
  exact h'

theorem course_singleton (h : o.course limit ls = some o') :
    o.course limit (ls ++ [l]) = o'.next limit l := by
  rw [course_append, h]
  simp

/-- The first lexemes of a course are a course. -/
theorem exists_course_of_prefix (hstart : ls <+: ms) (h : o.course limit ms = some o') :
    ∃ p, o.course limit ls = some p := by
  obtain ⟨rest, rfl⟩ := hstart
  rw [course_append] at h
  obtain ⟨p, hp, -⟩ := Option.bind_eq_some_iff.1 h
  exact ⟨p, hp⟩

end Outline

/-! ## The course of a phrase -/

section Phrases

variable {limit n : Nat}

theorem Operands.course (vs : Operands) :
    Outline.course limit ⟨n, .element⟩ vs.lexemes = some ⟨n, .separator⟩ := by
  induction vs with
  | last v => cases v <;> rfl
  | comma v rest ih => cases v <;> exact ih

theorem Clause.course (c : Clause) :
    Outline.course limit ⟨n, .constraint⟩ c.lexemes = some ⟨n, .ended⟩ := by
  obtain ⟨selector, symbol, right⟩ := c
  -- the selector and the symbol may always come
  show Outline.course limit ⟨n, .arguments⟩ right.lexemes = some ⟨n, .ended⟩
  cases right with
  | value v => cases v <;> rfl
  | list vs =>
    show Outline.course limit ⟨n, .element⟩ (vs.lexemes ++ [.closing]) = _
    exact Outline.course_singleton vs.course

mutual

/-- Alternatives whose groups have room are read to their end. -/
theorem Disjunction.course : ∀ (p : Disjunction) (n : Nat), n + p.depth ≤ limit →
    Outline.course limit ⟨n, .constraint⟩ p.lexemes = some ⟨n, .ended⟩
  | .last p, n, h => Conjunction.course p n h
  | .comma p rest, n, h => by
    simp only [Disjunction.depth] at h
    have hp := Conjunction.course p n (by omega)
    have hrest := Disjunction.course rest n (by omega)
    exact Outline.course_trans hp hrest

/-- Constraints whose groups have room are read to their end. -/
theorem Conjunction.course : ∀ (p : Conjunction) (n : Nat), n + p.depth ≤ limit →
    Outline.course limit ⟨n, .constraint⟩ p.lexemes = some ⟨n, .ended⟩
  | .last p, n, h => Constraint.course p n h
  | .semicolon p rest, n, h => by
    simp only [Conjunction.depth] at h
    have hp := Constraint.course p n (by omega)
    have hrest := Conjunction.course rest n (by omega)
    exact Outline.course_trans hp hrest

/-- A constraint whose groups have room is read to its end. -/
theorem Constraint.course : ∀ (p : Constraint) (n : Nat), n + p.depth ≤ limit →
    Outline.course limit ⟨n, .constraint⟩ p.lexemes = some ⟨n, .ended⟩
  | .group p, n, h => by
    simp only [Constraint.depth] at h
    have hp := Disjunction.course p (n + 1) (by omega)
    have hopen : Outline.next limit ⟨n, .constraint⟩ .opening = some ⟨n + 1, .constraint⟩ :=
      if_pos (by omega)
    rw [Constraint.lexemes, Outline.course_cons, hopen]
    exact Outline.course_singleton hp
  | .clause c, n, _ => c.course

end

end Phrases

/-! ## The outline of a reader -/

/-- What must come in a phase; a comparison that has not been built has ended. -/
def stageOf : Phase → Stage
  | .constraint => .constraint
  | .operator _ => .operator
  | .arguments _ _ => .arguments
  | .element _ _ _ => .element
  | .separator _ _ _ => .separator
  | .compared _ _ _ | .ended _ => .ended

/-- The outline of a reader's state. -/
def outlineOf (s : State) : Outline := ⟨s.outer.length, stageOf s.phase⟩

variable {d : Dialect} {s u v : State} {t : Token} {l : Lexeme} {f : Failure}

/-- In a state in which all is built there is no comparison left to be built. -/
theorem phase_ne_compared (h : s.settle d = .ok s) (selector symbol : String)
    (arguments : List String) : s.phase ≠ .compared selector symbol arguments := by
  rcases settle_cases h with ⟨_, _, _, n, hphase, -, heq⟩ | ⟨hphase, -⟩
  · rw [heq] at hphase
    cases hphase
  · exact hphase _ _ _

/-- Building a comparison leaves the outline as it is. -/
theorem outlineOf_settle (h : s.settle d = .ok u) : outlineOf u = outlineOf s := by
  rcases settle_cases h with ⟨_, _, _, _, hphase, -, rfl⟩ | ⟨-, rfl⟩
  · simp only [outlineOf, hphase, stageOf]
  · rfl

/-- With each move the outline goes on. -/
theorem next_of_move (h : Move d s l v) :
    (outlineOf s).next d.maxDepth l = some (outlineOf v) := by
  cases h with
  | openGroup hlt => exact if_pos hlt
  | closeGroup hall =>
    subst hall
    rfl
  | _ => rfl

/-- With each token that is taken the outline goes on. -/
theorem next_of_feed (h : s.feed d t = .ok v) :
    (outlineOf s).next d.maxDepth t.lexeme = some (outlineOf v) := by
  rw [feed_eq] at h
  obtain ⟨u, hu, h⟩ := bind_eq_ok_iff.1 h
  obtain ⟨w, hw, h⟩ := bind_eq_ok_iff.1 h
  cases h
  have hmove := next_of_move (step_eq_ok_iff.1 hw)
  rw [outlineOf_settle hu] at hmove
  exact hmove

/-- The outline of a reader is where the lexemes of the tokens that it has taken lead. -/
theorem course_of_run (ts : List Token) : ∀ {s : State}, ts.foldlM (State.feed d) s = .ok u →
    (outlineOf s).course d.maxDepth (ts.map (·.lexeme)) = some (outlineOf u) := by
  induction ts with
  | nil =>
    intro s h
    cases h
    rfl
  | cons t ts ih =>
    intro s h
    rw [List.foldlM_cons] at h
    obtain ⟨w, hw, h⟩ := bind_eq_ok_iff.1 h
    rw [List.map_cons, Outline.course_cons, next_of_feed hw]
    exact ih h

/-- A token that is not accepted is one on which the outline cannot go on; the end is not such a
token. -/
theorem next_of_step (hsettled : s.settle d = .ok s) (ht : t.lexeme ≠ .eof)
    (h : s.step d t = .error f) : (outlineOf s).next d.maxDepth t.lexeme = none := by
  obtain ⟨outer, frame, phase, last⟩ := s
  obtain ⟨lexeme, start⟩ := t
  cases phase with
  | compared selector symbol arguments => exact absurd rfl (phase_ne_compared hsettled _ _ _)
  | constraint =>
    cases lexeme with
    | opening =>
      simp only [step, State.openGroup] at h
      split at h
      · cases h
      · next hfull => exact if_neg hfull
    | bare => cases h
    | _ => rfl
  | ended node =>
    cases lexeme with
    | closing =>
      cases outer with
      | nil => rfl
      | cons f outer => cases h
    | eof => exact absurd rfl ht
    | and | or => cases h
    | _ => cases outer <;> rfl
  | _ => cases lexeme <;> first | rfl | cases h

/-- Where the end of the text is not accepted, the outline cannot go on to it. -/
theorem next_of_finish (hsettled : s.settle d = .ok s) (h : s.finish d t = .error f) :
    (outlineOf s).next d.maxDepth .eof = none := by
  rw [State.finish, hsettled] at h
  obtain ⟨outer, frame, phase, last⟩ := s
  cases phase with
  | compared selector symbol arguments => exact absurd rfl (phase_ne_compared hsettled _ _ _)
  | ended node =>
    cases outer with
    | nil => cases h
    | cons f outer => rfl
  | _ => rfl

end FilterQuery.Grammar
