/-
# FilterQuery.Proofs.Language.Rereading -- canonical text of what has been read

A dialect does not read the canonical text of all that it reads. A filter may join its parts
without a parenthesis, its canonical text opens a group for each logical node, and the limit counts
groups. So the text `a==1;b==2,c==3` is read where one group may be open, and its canonical text
`((a==1;b==2),c==3)` is refused there (`not_forall_parse_render`).

Depth is all that can go wrong. A tree that has been read is built, and its operators are known by
their primary symbols if each registered operator is what its own primary symbol stands for
(`Registry.Canonical`). Then its height decides (`parse_render_of_parse`), and since a tree is at
most twice as high as groups are deep, and two more, that much room is enough for all that the
dialect reads.
-/

import FilterQuery.Proofs.Language.RoundTrip
import FilterQuery.Proofs.Language.Trees

namespace FilterQuery

open Grammar

/-- Each registered operator is what its own primary symbol stands for. -/
def Registry.Canonical (r : Registry) : Prop :=
  ∀ symbol o, r.get? symbol = some o → r.get? o.primary = some o

namespace Dialect

variable {d : Dialect} {text : String} {n : Node}

/-! ## Trees that have been read -/

/-- What has been read is built from comparisons by joining. -/
theorem built_of_parse (hbuilt : d.operators.Built) (h : d.parse text = .ok n) : n.Built := by
  obtain ⟨p, hlexes, -, hfits, rfl⟩ := exists_phrase_of_parse h
  refine Disjunction.built_tree ?_
  intro c hc
  have hbare := hlexes.proper _ (Disjunction.mem_lexemes Clause.bare_mem_lexemes p hc)
  exact Clause.built_tree hbuilt hbare (hfits c hc)

/-- The operators of what has been read are found again under their primary symbols. -/
theorem readable_of_parse (hcanonical : d.operators.Canonical) (h : d.parse text = .ok n) :
    n.Readable d.operators := by
  obtain ⟨p, -, -, hfits, rfl⟩ := exists_phrase_of_parse h
  intro c hc
  rw [Disjunction.comparisons_tree] at hc
  obtain ⟨clause, hclause, rfl⟩ := List.mem_map.1 hc
  obtain ⟨o, ho, hcount⟩ := hfits clause hclause
  have hmeaning : meaning d.operators clause.symbol = o := by rw [meaning, ho, Option.getD_some]
  rw [Clause.comparison, hmeaning]
  exact ⟨o, hcanonical _ o ho, rfl, hcount⟩

/-- What has been read is at most twice as high as groups may nest, and two more. -/
theorem height_le_of_parse (h : d.parse text = .ok n) : n.height ≤ 2 * (d.maxDepth + 1) := by
  obtain ⟨p, -, hdepth, -, rfl⟩ := exists_phrase_of_parse h
  have hheight := p.height_tree_le (r := d.operators)
  omega

/-! ## Reading it again -/

/-- The canonical text of what a dialect has read is read back to the same tree when that is no
higher than groups may nest, and refused for its depth when it is higher. A dialect with the same
operators and room for twice as many groups, and two more, reads it in any case. -/
theorem parse_render_of_parse (hbuilt : d.operators.Built) (hcanonical : d.operators.Canonical)
    (h : d.parse text = .ok n) :
    (n.height ≤ d.maxDepth → ∃ m, d.parse n.render = .ok m ∧ (m == n) = true) ∧
      (d.maxDepth < n.height → ∃ last line column, d.parse n.render =
        .error (.unexpected [s!"at most {d.maxDepth} nested groups"] "'('" last line column)) ∧
      ∀ limit, 2 * (d.maxDepth + 1) ≤ limit →
        ∃ m, parse ⟨d.operators, limit⟩ n.render = .ok m ∧ (m == n) = true := by
  have hn := built_of_parse hbuilt h
  have hr := readable_of_parse hcanonical h
  refine ⟨Node.parse_render_of_le hn hr, ?_, ?_⟩
  · intro hheight
    obtain ⟨f, hparse, last, line, column, rfl⟩ := Node.parse_render_of_lt hn hr hheight
    exact ⟨last, line, column, hparse⟩
  · intro limit hlimit
    have hheight := Nat.le_trans (height_le_of_parse h) hlimit
    exact Node.parse_render_of_le (d := ⟨d.operators, limit⟩) hn hr hheight

/-! ## A filter whose canonical text nests deeper -/

/-- The operators with `==` alone. -/
def equality : Registry := .ofList [⟨"==", [], false⟩]

theorem eq_of_get?_equality {symbol : String} {o : Operator} (h : equality.get? symbol = some o) :
    symbol = "==" ∧ o = ⟨"==", [], false⟩ := by
  have hget : equality.get? symbol = if "==" = symbol then some ⟨"==", [], false⟩ else none := rfl
  rw [hget] at h
  split at h
  · rename_i hsymbol
    exact ⟨hsymbol.symm, (Option.some.inj h).symm⟩
  · cases h

theorem built_equality : equality.Built := by
  intro symbol o h
  obtain ⟨-, rfl⟩ := eq_of_get?_equality h
  exact ⟨["=="], false, rfl⟩

theorem canonical_equality : equality.Canonical := by
  intro symbol o h
  obtain ⟨-, rfl⟩ := eq_of_get?_equality h
  rfl

/-- The tree of `a==1;b==2,c==3`, an "and" in an "or". -/
def alternatives : Node :=
  .logical .or .or
    [.logical .and .and
      [.comparison ⟨⟨"==", [], false⟩, "a", ["1"]⟩, .comparison ⟨⟨"==", [], false⟩, "b", ["2"]⟩],
      .comparison ⟨⟨"==", [], false⟩, "c", ["3"]⟩]

theorem parse_alternatives : parse ⟨equality, 1⟩ "a==1;b==2,c==3" = .ok alternatives := by
  with_unfolding_all rfl

/-- Where two groups may be open the filter comes back from its canonical text. Where one may be it
is refused, and room for four is enough. -/
theorem parse_render_of_parse_alternatives :
    (parse ⟨equality, 2⟩ "a==1;b==2,c==3" = .ok alternatives ∧
      ∃ m, parse ⟨equality, 2⟩ alternatives.render = .ok m ∧ (m == alternatives) = true) ∧
    parse ⟨equality, 1⟩ "a==1;b==2,c==3" = .ok alternatives ∧
      (∃ last line column, parse ⟨equality, 1⟩ alternatives.render =
        .error (.unexpected ["at most 1 nested groups"] "'('" last line column)) ∧
      ∃ m, parse ⟨equality, 4⟩ alternatives.render = .ok m ∧ (m == alternatives) = true := by
  have htwo : parse ⟨equality, 2⟩ "a==1;b==2,c==3" = .ok alternatives := by with_unfolding_all rfl
  have hfirst := parse_render_of_parse built_equality canonical_equality htwo
  have hsecond := parse_render_of_parse built_equality canonical_equality parse_alternatives
  exact ⟨⟨htwo, hfirst.1 (by decide)⟩, parse_alternatives, hsecond.2.1 (by decide),
    hsecond.2.2 4 (by decide)⟩

/-- Some dialect that admits a group reads a filter and refuses its canonical text. -/
theorem not_forall_parse_render : ¬ ∀ (d : Dialect) (text : String) (n : Node),
    1 ≤ d.maxDepth → d.operators.Built → d.operators.Canonical → d.parse text = .ok n →
      ∃ m, d.parse n.render = .ok m ∧ (m == n) = true := by
  intro hall
  have hrefused : parse ⟨equality, 1⟩ alternatives.render =
      .error (.unexpected ["at most 1 nested groups"] "'('" (some "'('") 1 2) := by
    with_unfolding_all rfl
  obtain ⟨m, hm, -⟩ := hall ⟨equality, 1⟩ "a==1;b==2,c==3" alternatives (by decide)
    built_equality canonical_equality parse_alternatives
  rw [hrefused] at hm
  cases hm

end Dialect

end FilterQuery
