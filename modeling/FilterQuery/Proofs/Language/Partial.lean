/-
# FilterQuery.Proofs.Language.Partial -- phrases that are being read

The state of the reading machine keeps trees, not phrases. `Partial` is the same state with
phrases in it: for each open group the alternatives and constraints that are finished, nearest
first, and the part of a comparison that has been read. Its `state` is what the machine holds, its
`lexemes` are what the machine has read.

The invariant is `Explains`: some partial phrase has the state of the machine and the lexemes
read so far, its comparisons fit the dialect, and its groups have room. Each move keeps it
(`Partial.move`), and so does building a comparison (`Explains.settle`). At the end the partial
phrase is closed to a whole one, of which nothing is missing.
-/

import FilterQuery.Proofs.Language.Reading

namespace FilterQuery.Grammar

open Dialect Dialect.State

/-! ## Chains that are put together from the back -/

/-- What a fold adds in front at each step is in front at the end, the last addition first. -/
theorem foldl_eq_flatMap {α β γ : Type} {f : β → α → β} (view : β → List γ) {g : α → List γ}
    (h : ∀ b a, view (f b a) = g a ++ view b) (b : β) (as : List α) :
    view (as.foldl f b) = as.reverse.flatMap g ++ view b := by
  induction as generalizing b with
  | nil => rfl
  | cons a as ih =>
    rw [List.foldl_cons, ih, h, List.reverse_cons, List.flatMap_append, List.append_assoc]
    simp

theorem flatMap_singleton_map {α β : Type} (f : α → β) (as : List α) :
    as.flatMap (fun a => [f a]) = as.map f := by
  induction as with
  | nil => rfl
  | cons a as ih => rw [List.flatMap_cons, ih]; rfl

/-- Values of which the last comes first. -/
def Operands.gather (v : Operand) (before : List Operand) : Operands :=
  before.foldl (fun vs w => .comma w vs) (.last v)

/-- Constraints of which the last comes first. -/
def Conjunction.gather (p : Constraint) (before : List Constraint) : Conjunction :=
  before.foldl (fun ps q => .semicolon q ps) (.last p)

/-- Alternatives of which the last comes first. -/
def Disjunction.gather (p : Conjunction) (before : List Conjunction) : Disjunction :=
  before.foldl (fun ps q => .comma q ps) (.last p)

theorem Operands.lexemes_gather (v : Operand) (before : List Operand) :
    (gather v before).lexemes = before.reverse.flatMap (fun w => [w.lexeme, .or]) ++ [v.lexeme] :=
  foldl_eq_flatMap Operands.lexemes (fun _ _ => rfl) _ _

theorem Operands.texts_gather (v : Operand) (before : List Operand) :
    (gather v before).texts = ((v :: before).map Operand.text).reverse := by
  have h : (gather v before).texts = before.reverse.flatMap (fun w => [w.text]) ++ [v.text] :=
    foldl_eq_flatMap Operands.texts (fun _ _ => rfl) _ _
  rw [h, flatMap_singleton_map]
  simp

theorem Conjunction.lexemes_gather (p : Constraint) (before : List Constraint) :
    (gather p before).lexemes =
      before.reverse.flatMap (fun q => q.lexemes ++ [.and]) ++ p.lexemes :=
  foldl_eq_flatMap Conjunction.lexemes (fun _ _ => (List.append_cons _ _ _)) _ _

theorem Disjunction.lexemes_gather (p : Conjunction) (before : List Conjunction) :
    (gather p before).lexemes =
      before.reverse.flatMap (fun q => q.lexemes ++ [.or]) ++ p.lexemes :=
  foldl_eq_flatMap Disjunction.lexemes (fun _ _ => (List.append_cons _ _ _)) _ _

theorem Conjunction.tree_gather (r : Registry) (p : Constraint) (before : List Constraint) :
    (gather p before).tree r = Node.gather .and (p.tree r) (before.map (Constraint.tree r)) := by
  have h : (gather p before).trees r = before.reverse.flatMap (fun q => [q.tree r]) ++ [p.tree r] :=
    foldl_eq_flatMap (Conjunction.trees r) (fun _ _ => rfl) _ _
  rw [tree, h, flatMap_singleton_map, gather_eq_collapse]
  simp

theorem Disjunction.tree_gather (r : Registry) (p : Conjunction) (before : List Conjunction) :
    (gather p before).tree r = Node.gather .or (p.tree r) (before.map (Conjunction.tree r)) := by
  have h : (gather p before).trees r = before.reverse.flatMap (fun q => [q.tree r]) ++ [p.tree r] :=
    foldl_eq_flatMap (Disjunction.trees r) (fun _ _ => rfl) _ _
  rw [tree, h, flatMap_singleton_map, gather_eq_collapse]
  simp

/-! ## What a dialect admits -/

/-- Inside `level` open groups there is room for groups of this depth, and the comparisons fit the
operators. -/
def Admitted (d : Dialect) (level depth : Nat) (clauses : List Clause) : Prop :=
  level + depth ≤ d.maxDepth ∧ ∀ c ∈ clauses, c.Fits d.operators

variable {d : Dialect} {level : Nat}

theorem Admitted.both {m n : Nat} {cs ds : List Clause} (hm : Admitted d level m cs)
    (hn : Admitted d level n ds) : Admitted d level (max m n) (cs ++ ds) := by
  have hm₁ := hm.1
  have hn₁ := hn.1
  refine ⟨by omega, ?_⟩
  intro c hc
  rcases List.mem_append.1 hc with h | h
  · exact hm.2 c h
  · exact hn.2 c h

theorem Conjunction.admitted_gather {p : Constraint} {before : List Constraint}
    (hp : Admitted d level p.depth p.clauses)
    (hb : ∀ q ∈ before, Admitted d level q.depth q.clauses) :
    Admitted d level (gather p before).depth (gather p before).clauses :=
  List.foldlRecOn before _
    (motive := fun ps : Conjunction => Admitted d level ps.depth ps.clauses) hp
    fun _ hps q hq => (hb q hq).both hps

theorem Disjunction.admitted_gather {p : Conjunction} {before : List Conjunction}
    (hp : Admitted d level p.depth p.clauses)
    (hb : ∀ q ∈ before, Admitted d level q.depth q.clauses) :
    Admitted d level (gather p before).depth (gather p before).clauses :=
  List.foldlRecOn before _
    (motive := fun ps : Disjunction => Admitted d level ps.depth ps.clauses) hp
    fun _ hps q hq => (hb q hq).both hps

/-! ## Partial phrases -/

/-- What a group has collected, as phrases, nearest first: its finished alternatives, and the
finished constraints of the alternative that is being read. -/
structure Row where
  disjuncts : List Conjunction := []
  conjuncts : List Constraint := []

namespace Row

/-- The lexemes of a row. -/
def lexemes (r : Row) : List Lexeme :=
  r.disjuncts.reverse.flatMap (fun p => p.lexemes ++ [.or]) ++
    r.conjuncts.reverse.flatMap (fun p => p.lexemes ++ [.and])

/-- The nodes of a row. -/
def frame (o : Registry) (r : Row) : Frame :=
  ⟨r.disjuncts.map (Conjunction.tree o), r.conjuncts.map (Constraint.tree o)⟩

/-- The row after a constraint and a semicolon. -/
def semicolon (r : Row) (p : Constraint) : Row := ⟨r.disjuncts, p :: r.conjuncts⟩

/-- The row after a constraint and a comma. -/
def comma (r : Row) (p : Constraint) : Row := ⟨.gather p r.conjuncts :: r.disjuncts, []⟩

/-- The alternatives of a row that ends with a constraint. -/
def close (r : Row) (p : Constraint) : Disjunction := .gather (.gather p r.conjuncts) r.disjuncts

/-- All phrases of a row are admitted. -/
def Sound (d : Dialect) (level : Nat) (r : Row) : Prop :=
  (∀ p ∈ r.disjuncts, Admitted d level p.depth p.clauses) ∧
    ∀ p ∈ r.conjuncts, Admitted d level p.depth p.clauses

variable {r : Row} {p : Constraint}

theorem lexemes_semicolon : (r.semicolon p).lexemes = r.lexemes ++ p.lexemes ++ [.and] := by
  simp [semicolon, lexemes]

theorem lexemes_comma : (r.comma p).lexemes = r.lexemes ++ p.lexemes ++ [.or] := by
  simp [comma, lexemes, Conjunction.lexemes_gather]

theorem lexemes_close : (r.close p).lexemes = r.lexemes ++ p.lexemes := by
  rw [close, Disjunction.lexemes_gather, Conjunction.lexemes_gather, lexemes, List.append_assoc]

theorem frame_comma (o : Registry) : (r.comma p).frame o = (r.frame o).comma (p.tree o) := by
  simp only [comma, frame, Frame.comma, List.map_cons, Conjunction.tree_gather, List.map_nil]

theorem finish_frame (o : Registry) :
    (r.frame o).finish (p.tree o) = (r.close p).tree o := by
  rw [close, Disjunction.tree_gather, Conjunction.tree_gather]
  rfl

theorem Sound.empty (d : Dialect) (level : Nat) : Sound d level {} :=
  ⟨fun _ h => (List.not_mem_nil h).elim, fun _ h => (List.not_mem_nil h).elim⟩

theorem Sound.semicolon (h : r.Sound d level) (hp : Admitted d level p.depth p.clauses) :
    (r.semicolon p).Sound d level := by
  refine ⟨h.1, ?_⟩
  intro q hq
  rcases List.mem_cons.1 hq with rfl | hq
  · exact hp
  · exact h.2 q hq

theorem Sound.comma (h : r.Sound d level) (hp : Admitted d level p.depth p.clauses) :
    (r.comma p).Sound d level := by
  refine ⟨?_, fun q hq => by cases hq⟩
  intro q hq
  rcases List.mem_cons.1 hq with rfl | hq
  · exact Conjunction.admitted_gather hp h.2
  · exact h.1 q hq

theorem Sound.close (h : r.Sound d level) (hp : Admitted d level p.depth p.clauses) :
    Admitted d level (r.close p).depth (r.close p).clauses :=
  Disjunction.admitted_gather (Conjunction.admitted_gather hp h.2) h.1

end Row

/-- What has been read of a constraint. A list of values, nearest first, ends where a value must
come or with a value; a clause has been read, but not built. -/
inductive Part where
  | nothing
  | selector (s : String)
  | symbol (s o : String)
  | element (s o : String) (vs : List Operand)
  | separator (s o : String) (v : Operand) (vs : List Operand)
  | clause (c : Clause)
  | ended (p : Constraint)

namespace Part

/-- The lexemes of a part. -/
def lexemes : Part → List Lexeme
  | nothing => []
  | selector s => [.bare s]
  | symbol s o => [.bare s, .operator o]
  | element s o vs =>
    [.bare s, .operator o, .opening] ++ vs.reverse.flatMap fun w => [w.lexeme, .or]
  | separator s o v vs =>
    [.bare s, .operator o, .opening] ++ (vs.reverse.flatMap fun w => [w.lexeme, .or]) ++ [v.lexeme]
  | clause c => c.lexemes
  | ended p => p.lexemes

/-- The phase in which a part leaves the machine. -/
def phase (r : Registry) : Part → Phase
  | nothing => .constraint
  | selector s => .operator s
  | symbol s o => .arguments s o
  | element s o vs => .element s o (vs.map Operand.text)
  | separator s o v vs => .separator s o ((v :: vs).map Operand.text)
  | clause c => .compared c.selector c.symbol c.right.texts
  | ended p => .ended (p.tree r)

end Part

/-- A phrase of which some lexemes have been read, with the groups around the present one given the
innermost first. -/
structure Partial where
  rows : List Row := []
  row : Row := {}
  part : Part := .nothing

namespace Partial

/-- The lexemes that have been read. -/
def lexemes (σ : Partial) : List Lexeme :=
  σ.rows.reverse.flatMap (fun r => r.lexemes ++ [.opening]) ++ σ.row.lexemes ++ σ.part.lexemes

/-- The state of the machine that has read them. -/
def state (o : Registry) (σ : Partial) (last : Option Token) : State :=
  ⟨σ.rows.map (Row.frame o), σ.row.frame o, σ.part.phase o, last⟩

/-- Each row is admitted inside the groups around it. -/
def RowsSound (d : Dialect) : List Row → Prop
  | [] => True
  | r :: rs => r.Sound d rs.length ∧ RowsSound d rs

/-- All that has been read is admitted, and the open groups are. -/
structure Sound (d : Dialect) (σ : Partial) : Prop where
  rows : RowsSound d (σ.row :: σ.rows)
  room : σ.rows.length ≤ d.maxDepth
  ended : ∀ p, σ.part = .ended p → Admitted d σ.rows.length p.depth p.clauses

theorem Sound.initial (d : Dialect) : Sound d {} :=
  ⟨⟨.empty d 0, trivial⟩, Nat.zero_le _, fun _ h => by cases h⟩

/-- Another part that has not ended is as good as the one before. -/
theorem Sound.setPart {σ : Partial} (h : σ.Sound d) {q : Part} (hq : ∀ p, q ≠ .ended p) :
    Sound d ⟨σ.rows, σ.row, q⟩ :=
  ⟨h.rows, h.room, fun p hp => absurd hp (hq p)⟩

theorem Sound.setEnded {σ : Partial} (h : σ.Sound d) {p : Constraint}
    (hp : Admitted d σ.rows.length p.depth p.clauses) : Sound d ⟨σ.rows, σ.row, .ended p⟩ :=
  ⟨h.rows, h.room, fun q hq => by cases hq; exact hp⟩

/-- Each move of the machine reads one lexeme more of some phrase. -/
theorem move {σ : Partial} {last : Option Token} {l : Lexeme} {v : State} (hσ : σ.Sound d)
    (h : Move d (σ.state d.operators last) l v) :
    ∃ τ : Partial, τ.lexemes = σ.lexemes ++ [l] ∧ τ.Sound d ∧ v = τ.state d.operators last := by
  obtain ⟨rows, row, part⟩ := σ
  cases part with
  | nothing =>
    cases h with
    | openGroup hlt =>
      rw [List.length_map] at hlt
      refine ⟨⟨row :: rows, {}, .nothing⟩, by simp [lexemes, Row.lexemes, Part.lexemes], ?_, rfl⟩
      exact ⟨⟨.empty d _, hσ.rows⟩, hlt, fun _ h => by cases h⟩
    | selector s =>
      exact ⟨⟨rows, row, .selector s⟩, by simp [lexemes, Part.lexemes],
        hσ.setPart fun _ => Part.noConfusion, rfl⟩
  | selector s =>
    cases h with
    | symbol o =>
      exact ⟨⟨rows, row, .symbol s o⟩, by simp [lexemes, Part.lexemes],
        hσ.setPart fun _ => Part.noConfusion, rfl⟩
  | symbol s o =>
    cases h with
    | openList =>
      exact ⟨⟨rows, row, .element s o []⟩, by simp [lexemes, Part.lexemes],
        hσ.setPart fun _ => Part.noConfusion, rfl⟩
    | bareValue v =>
      exact ⟨⟨rows, row, .clause ⟨s, o, .value (.bare v)⟩⟩,
        by simp [lexemes, Part.lexemes, Clause.lexemes, RightSide.lexemes, Operand.lexeme],
        hσ.setPart fun _ => Part.noConfusion, rfl⟩
    | quotedValue v =>
      exact ⟨⟨rows, row, .clause ⟨s, o, .value (.quoted v)⟩⟩,
        by simp [lexemes, Part.lexemes, Clause.lexemes, RightSide.lexemes, Operand.lexeme],
        hσ.setPart fun _ => Part.noConfusion, rfl⟩
  | element s o vs =>
    cases h with
    | bareElement v =>
      exact ⟨⟨rows, row, .separator s o (.bare v) vs⟩,
        by simp [lexemes, Part.lexemes, Operand.lexeme],
        hσ.setPart fun _ => Part.noConfusion, rfl⟩
    | quotedElement v =>
      exact ⟨⟨rows, row, .separator s o (.quoted v) vs⟩,
        by simp [lexemes, Part.lexemes, Operand.lexeme],
        hσ.setPart fun _ => Part.noConfusion, rfl⟩
  | separator s o v vs =>
    cases h with
    | nextElement =>
      exact ⟨⟨rows, row, .element s o (v :: vs)⟩, by simp [lexemes, Part.lexemes],
        hσ.setPart fun _ => Part.noConfusion, rfl⟩
    | closeList =>
      refine ⟨⟨rows, row, .clause ⟨s, o, .list (.gather v vs)⟩⟩, ?_,
        hσ.setPart fun _ => Part.noConfusion, ?_⟩
      · simp [lexemes, Part.lexemes, Clause.lexemes, RightSide.lexemes, Operands.lexemes_gather]
      · simp only [state, Part.phase, RightSide.texts, Operands.texts_gather]
  | clause c => cases h
  | ended p =>
    have hp := hσ.ended p rfl
    cases h with
    | semicolon =>
      refine ⟨⟨rows, row.semicolon p, .nothing⟩, ?_, ?_, rfl⟩
      · simp [lexemes, Part.lexemes, Row.lexemes_semicolon]
      · exact ⟨⟨hσ.rows.1.semicolon hp, hσ.rows.2⟩, hσ.room, fun _ h => by cases h⟩
    | comma =>
      refine ⟨⟨rows, row.comma p, .nothing⟩, ?_, ?_, ?_⟩
      · simp [lexemes, Part.lexemes, Row.lexemes_comma]
      · exact ⟨⟨hσ.rows.1.comma hp, hσ.rows.2⟩, hσ.room, fun _ h => by cases h⟩
      · simp only [state, Part.phase, Row.frame_comma]
    | closeGroup hall =>
      cases rows with
      | nil => cases hall
      | cons r rows =>
        cases hall
        -- the alternatives of the group become one constraint of the group around it
        have hclose := hσ.rows.1.close hp
        have hroom : rows.length + 1 ≤ d.maxDepth := hσ.room
        have hdepth : rows.length + 1 + (row.close p).depth ≤ d.maxDepth := hclose.1
        refine ⟨⟨rows, r, .ended (.group (row.close p))⟩, ?_, ⟨hσ.rows.2, ?_, ?_⟩, ?_⟩
        · simp [lexemes, Part.lexemes, Constraint.lexemes, Row.lexemes_close]
        · show rows.length ≤ d.maxDepth
          omega
        · intro q hq
          cases hq
          refine ⟨?_, hclose.2⟩
          show rows.length + ((row.close p).depth + 1) ≤ d.maxDepth
          omega
        · rw [Row.finish_frame]
          rfl

end Partial

end FilterQuery.Grammar
