/-
# FilterQuery.Proofs.Resolve.Leaves -- leaves are complete and well typed

A storage layer may rely on every leaf that it is handed (`Leaf.Renders`): the leaf is one of the
comparisons of the filter, with its operator and its selector as they were written, and it has one
value for each argument, in order. The value is what the argument converts to at the type that the
leaf names, or the null value if that fails and nulls are passed. Where no converter of the
application is asked, a value that is not null is of that type.

Since a comparison that has been built has an argument, and just one if its operator takes one,
there always is a first and a last value (`renders_of_handed`).
-/

import FilterQuery.Expression
import FilterQuery.Proofs.Node.Building
import FilterQuery.Proofs.Resolve.Arguments
import FilterQuery.Proofs.Resolve.Lifting
import FilterQuery.Proofs.Value.Typing

namespace FilterQuery

/-- The leaf renders a comparison against an entity, under some settings: its values stand for the
arguments, one by one, and unless there is a converter for the type of the leaf they are of that
type, or null. -/
structure Leaf.Renders {C : Type} (s : Settings C) (entity : String) (c : Comparison) (l : Leaf) :
    Prop where
  entity : l.entity = entity
  selector : l.selector = c.selector
  operator : l.operator = c.operator
  values : List.Forall₂ (s.Stands l.valueType) c.arguments l.values
  length : l.values.length = c.arguments.length
  nonempty : 0 < l.values.length ∧ l.values.length - 1 < l.values.length
  single : l.operator.multi = false → l.values.length = 1
  typed : s.converters.has l.valueType = false →
    ∀ v ∈ l.values, v ≠ .null → v.HasType l.valueType

namespace Settings

variable {C : Type} {s : Settings C} {t : ValueType}

/-- What stands for an argument is of the type or null, unless a converter is asked. -/
theorem Stands.hasType {a : String} {v : Value} (h : s.Stands t a v)
    (hnone : s.converters.has t = false) (hv : v ≠ .null) : v.HasType t := by
  rcases h with h | ⟨-, -, rfl⟩
  · exact Converters.hasType_of_convert hnone h
  · exact absurd rfl hv

/-- Values that stand for arguments are all of the type or null, unless a converter is asked. -/
theorem hasType_of_stands {as : List String} {vs : List Value}
    (h : List.Forall₂ (s.Stands t) as vs) (hnone : s.converters.has t = false) :
    ∀ v ∈ vs, v ≠ .null → v.HasType t := by
  induction h with
  | nil =>
    intro v hv
    cases hv
  | cons hstands _ ih =>
    intro v hv hne
    rcases List.mem_cons.1 hv with rfl | hv
    · exact hstands.hasType hnone hne
    · exact ih v hv hne

end Settings

namespace Resolver

open Run

variable {C : Type} {r : Resolver C} {entity : String}

/-- What is made of a comparison that has been built renders it. -/
theorem renders_construction {c : Comparison} (hc : Node.Built (.comparison c))
    (x : List PathSegment × ValueType) {values : List Value}
    (hvalues : r.settings.convertAll (r.maker c.operator.primary x.2).argumentType c.arguments =
      .ok (some values)) :
    (r.construction entity c x values).leaf.Renders r.settings entity c := by
  obtain ⟨-, -, hne, hsingle⟩ := hc.parts c rfl
  have hstands := Settings.stands_of_convertAll hvalues
  have hlength : values.length = c.arguments.length := hstands.length_eq.symm
  have hpos : 0 < values.length := by
    rw [hlength]
    exact List.length_pos_iff.2 hne
  exact {
    entity := rfl
    selector := rfl
    operator := rfl
    values := hstands
    length := hlength
    nonempty := ⟨hpos, Nat.sub_lt hpos Nat.one_pos⟩
    single := fun hmulti => hlength.trans (hsingle hmulti)
    typed := Settings.hasType_of_stands hstands }

/-- Leaves are complete and well typed. Whatever is remembered at first, and whether the filter
comes to a condition or fails, each leaf that is handed over, to the builder or to a custom
predicate, renders one of the comparisons of the filter. -/
theorem renders_of_handed (r : Resolver C) {n : Node} (hn : n.Built) (entity : String)
    (k : SchemaCache) :
    ∀ h ∈ ((r.resolve n entity).exec { cache := k }).2.built,
      ∃ c ∈ n.comparisons, h.leaf.Renders r.settings entity c := by
  refine forall_built_of ?_ k
  intro c hc x values hvalues
  exact ⟨c, hc, renders_construction (hn.of_mem_comparisons c hc) x hvalues⟩

/-- Tickets with a level, which is a number, and with a status. -/
def tickets : Describer := fun _ name =>
  if name = "level" then some (.basic name (.int .i32))
  else some (.basic name (.enum ⟨"Status", ["OPEN", "DONE"]⟩))

/-- A resolver that passes nulls and asks no converter. -/
def lenient : Resolver Expression := ⟨{ policy := .passNull }, tickets, true, Expression.builder⟩

/-- Some levels, one of which is no number, and a status. -/
def listed : Node :=
  .logical .and .and
    [.comparison ⟨⟨"=in=", [], true⟩, "level", ["1", "x"]⟩,
      .comparison ⟨⟨"==", [], false⟩, "status", ["open"]⟩]

theorem built_listed : listed.Built := by
  have hin : Operator.ofSymbols ["=in="] true = .ok ⟨"=in=", [], true⟩ := by rfl
  have hequal : Operator.ofSymbols ["=="] false = .ok ⟨"==", [], false⟩ := by rfl
  have hlevel : Node.Built (.comparison ⟨⟨"=in=", [], true⟩, "level", ["1", "x"]⟩) :=
    .comparison hin (Comparison.make_eq_ok_iff.2 ⟨by decide, by simp, by simp, rfl⟩)
  have hstatus : Node.Built (.comparison ⟨⟨"==", [], false⟩, "status", ["open"]⟩) :=
    .comparison hequal (Comparison.make_eq_ok_iff.2 ⟨by decide, by simp, by simp, rfl⟩)
  exact .pair .and hlevel hstatus

theorem renders_of_handed_listed :
    listed.Built ∧
      (((lenient.resolve listed "Ticket").exec {}).2.built.map fun h =>
        h.leaf.values.map Value.render) = [["1", "null"], ["Status::OPEN"]] ∧
      ∀ h ∈ ((lenient.resolve listed "Ticket").exec {}).2.built,
        ∃ c ∈ listed.comparisons, h.leaf.Renders lenient.settings "Ticket" c :=
  ⟨built_listed, by decide +kernel, renders_of_handed lenient built_listed "Ticket" .empty⟩

end Resolver

end FilterQuery
