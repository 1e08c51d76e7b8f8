/-
# FilterQuery.Proofs.Language.Height -- how high a tree can get

Whatever is done with a tree goes from a node to its children: resolving it, walking it, writing its
text. How deep that goes is the height of the tree (`Descends.le_height`), and the height of what
has been read is bounded by the limit on groups alone, however long the text is.

The bound is the best there is. A group that holds an "or" of an "and" makes the tree two levels
higher, and so does the text as a whole; a tower of such groups (`tower`) reaches the bound for each
limit, with any comparison symbol that the dialect knows (`height_of_parse_attained`).
-/

import FilterQuery.Proofs.Language.Rereading
import FilterQuery.Proofs.Operator.Reachable

namespace FilterQuery

open Text Grammar

/-! ## Towers -/

namespace Grammar

/-- A constraint and a comparison, or that comparison. -/
def Disjunction.over (c : Clause) (p : Constraint) : Disjunction :=
  .comma (.semicolon p (.last (.clause c))) (.last (.last (.clause c)))

/-- So many groups, one inside the other, each with an "and" in an "or". -/
def tower (c : Clause) : Nat → Disjunction
  | 0 => .over c (.clause c)
  | k + 1 => .over c (.group (tower c k))

variable {r : Registry} {c : Clause} {p : Constraint}

theorem depth_over : (Disjunction.over c p).depth = p.depth := by
  simp [Disjunction.over, Disjunction.depth, Conjunction.depth, Constraint.depth]

theorem descends_over {k : Nat} {m : Node} (h : Node.Descends k (p.tree r) m) :
    Node.Descends (k + 2) ((Disjunction.over c p).tree r) m := by
  have hand : Node.Descends (k + 1) (.logical .and .and [p.tree r, c.tree r]) m :=
    .child List.mem_cons_self h
  have hor : (Disjunction.over c p).tree r =
      .logical .or .or [.logical .and .and [p.tree r, c.tree r], c.tree r] := rfl
  rw [hor]
  exact .child List.mem_cons_self hand

theorem depth_tower (c : Clause) (k : Nat) : (tower c k).depth = k := by
  induction k with
  | zero => rw [tower, depth_over, Constraint.depth]
  | succ k ih => rw [tower, depth_over, Constraint.depth, ih]

/-- Each group is two levels more on the way down to its comparison, and so is the whole. -/
theorem descends_tower (r : Registry) (c : Clause) (k : Nat) :
    Node.Descends (2 * (k + 1)) ((tower c k).tree r) (c.tree r) := by
  induction k with
  | zero => exact descends_over (.here _)
  | succ k ih => exact descends_over (p := .group (tower c k)) ih

/-- A tower is as high as its groups allow. -/
theorem height_tower (r : Registry) (c : Clause) (k : Nat) :
    ((tower c k).tree r).height = 2 * (k + 1) := by
  have hle := (tower c k).height_tree_le (r := r)
  rw [depth_tower] at hle
  exact Nat.le_antisymm hle (descends_tower r c k).le_height

theorem clauses_tower (c : Clause) (k : Nat) : ∀ c' ∈ (tower c k).clauses, c' = c := by
  induction k with
  | zero => simp [tower, Disjunction.over, Disjunction.clauses, Conjunction.clauses,
      Constraint.clauses]
  | succ k ih =>
    intro c' h
    simp only [tower, Disjunction.over, Disjunction.clauses, Conjunction.clauses,
      Constraint.clauses, List.mem_append, List.mem_singleton] at h
    rcases h with (h | h) | h
    · exact ih c' h
    · exact h
    · exact h

/-! ## Writing a tower down -/

/-- Some text spells the lexemes, with anything behind it that a delimiter begins. -/
def Spellable (ls : List Lexeme) : Prop :=
  ∃ cs, ∀ rest ms, Lexes rest ms → Delimited rest → Lexes (cs ++ rest) (ls ++ ms)

theorem spellable_over (hc : Spellable c.lexemes) (hp : Spellable p.lexemes) :
    Spellable (Disjunction.over c p).lexemes := by
  obtain ⟨cs, hcs⟩ := hc
  obtain ⟨ps, hps⟩ := hp
  refine ⟨ps ++ ';' :: (cs ++ ',' :: cs), ?_⟩
  intro rest ms h hrest
  -- from the right: the last comparison, the one before the comma, the constraint
  have hlast := (hcs rest ms h hrest).or
  have hmiddle := (hcs _ _ hlast (.cons (by simp) _)).and
  have hall := hps _ _ hmiddle (.cons (by simp) _)
  simpa [Disjunction.over, Disjunction.lexemes, Conjunction.lexemes, Constraint.lexemes]
    using hall

theorem spellable_group {q : Disjunction} (hq : Spellable q.lexemes) :
    Spellable (Constraint.group q).lexemes := by
  obtain ⟨qs, hqs⟩ := hq
  refine ⟨'(' :: (qs ++ [')']), ?_⟩
  intro rest ms h _
  have hall := (hqs _ _ h.closing (.cons (by simp) rest)).opening
  simpa [Constraint.lexemes] using hall

/-- A tower can be written down if its comparison can. -/
theorem spellable_tower (hc : Spellable c.lexemes) (k : Nat) :
    Spellable (tower c k).lexemes := by
  induction k with
  | zero => exact spellable_over hc hc
  | succ k ih => exact spellable_over hc (spellable_group ih)

/-- A comparison with a comparison symbol, a bare selector and a bare value. -/
def probe (symbol : String) : Clause := ⟨"a", symbol, .value (.bare "a")⟩

theorem spellable_probe {symbol : String} (h : isSymbol symbol = true) :
    Spellable (probe symbol).lexemes := by
  -- what the symbol stands for does not matter for the text
  let c : Comparison := ⟨⟨symbol, [], false⟩, "a", ["a"]⟩
  have hbare : isBare "a" = true := by decide
  exact ⟨c.render.toList, fun _ _ hms hrest =>
    Comparison.lexes_clause (c := c) h hbare (List.cons_ne_nil _ _) hms hrest⟩

theorem fits_probe {symbol : String} {o : Operator} (h : r.get? symbol = some o) :
    (probe symbol).Fits r :=
  ⟨o, h, fun _ => rfl⟩

end Grammar

/-! ## The bound and that it is reached -/

namespace Dialect

/-- What a dialect has read is at most twice as high as groups may nest, and two more, and one
cannot go down further in it. Each dialect that has an operator reads a text with a tree of that
height, in which one can go down so far. -/
theorem height_of_parse_attained (d : Dialect) :
    (∀ text n, d.parse text = .ok n → n.height ≤ 2 * (d.maxDepth + 1) ∧
      ∀ k m, Node.Descends k n m → k ≤ 2 * (d.maxDepth + 1)) ∧
    (d.operators.Reachable → 0 < d.operators.size →
      ∃ text n m, d.parse text = .ok n ∧ n.height = 2 * (d.maxDepth + 1) ∧
        Node.Descends (2 * (d.maxDepth + 1)) n m) := by
  constructor
  · intro text n h
    have hheight := height_le_of_parse h
    exact ⟨hheight, fun k m hm => Nat.le_trans hm.le_height hheight⟩
  · intro hreachable hsize
    obtain ⟨symbol, o, ho⟩ := Registry.exists_get?_of_size hsize
    have hsymbol := hreachable.isSymbol ho
    obtain ⟨cs, hcs⟩ := spellable_tower (spellable_probe hsymbol) d.maxDepth
    have hlexes : Lexes (String.ofList cs).toList (tower (probe symbol) d.maxDepth).lexemes := by
      have hend := hcs [] [] (.eof rfl) .nil
      rwa [List.append_nil, List.append_nil, ← String.toList_ofList (l := cs)] at hend
    refine ⟨String.ofList cs, (tower (probe symbol) d.maxDepth).tree d.operators,
      (probe symbol).tree d.operators, parse_of_lexes hlexes ?_ ?_, height_tower _ _ _,
      descends_tower _ _ _⟩
    · rw [depth_tower]
    · intro c hc
      rw [clauses_tower _ _ c hc]
      exact fits_probe ho

/-- One group may be open, and the tree is four levels high. -/
def terraced : Node :=
  .logical .or .or
    [.logical .and .and
      [.logical .or .or
        [.logical .and .and
          [.comparison ⟨⟨"==", [], false⟩, "a", ["1"]⟩,
            .comparison ⟨⟨"==", [], false⟩, "b", ["2"]⟩],
          .comparison ⟨⟨"==", [], false⟩, "c", ["3"]⟩],
        .comparison ⟨⟨"==", [], false⟩, "d", ["4"]⟩],
      .comparison ⟨⟨"==", [], false⟩, "e", ["5"]⟩]

theorem height_of_parse_attained_terraced :
    (parse ⟨.standard, 1⟩ "(a==1;b==2,c==3);d==4,e==5" = .ok terraced ∧ terraced.height ≤ 4) ∧
    (Registry.standard.Reachable ∧ 0 < Registry.standard.size) ∧
      ∃ text n m, parse ⟨.standard, 1⟩ text = .ok n ∧ n.height = 4 ∧ Node.Descends 4 n m := by
  have hread : parse ⟨.standard, 1⟩ "(a==1;b==2,c==3);d==4,e==5" = .ok terraced := by
    with_unfolding_all rfl
  have hreachable := Registry.reachable_ofList Operator.built_standard
  have hsize : 0 < Registry.standard.size := by decide
  obtain ⟨hbound, hattained⟩ := height_of_parse_attained ⟨.standard, 1⟩
  exact ⟨⟨hread, (hbound _ _ hread).1⟩, ⟨hreachable, hsize⟩, hattained hreachable hsize⟩

end Dialect

end FilterQuery
