/-
# FilterQuery.Proofs.Resolve.Types -- the type at the end of a path

The arguments of a comparison are read at the type that comes with its path. Behind a scalar that is
the type at which the scalar is compared. A path may also end at an attribute that leads on to an
entity, and then it is the type of the attribute itself.

The two are the same unless the attribute is a collection of entities and says of itself that it is
of another type than its elements (`Attribute.Divided`). No constructor makes such an attribute, but
one can be declared with all its parts. So the type of a path is the one at which its last attribute
is compared, except where that attribute is divided (`type_eq_comparisonType_iff`).
-/

import FilterQuery.Proofs.Resolve.Connected
import FilterQuery.Schema.Entity

namespace FilterQuery

namespace Attribute

/-! ## Attributes with two types -/

/-- The attribute is a collection of entities, but its own type is another one. -/
def Divided (a : Attribute) : Prop :=
  a.kind = .elementCollection ∧ ∃ e, a.elementType = some (.entity e) ∧ a.valueType ≠ .entity e

/-- A collection of entities that is made of their type is of that type itself. -/
theorem not_divided_elementCollection (name : String) (t : ValueType) :
    ¬ (elementCollection name t).Divided := by
  rintro ⟨-, e, helement, hne⟩
  exact hne (Option.some.inj helement)

variable {a : Attribute}

/-- A divided attribute leads on to the entity of its elements, and is compared with that. -/
theorem Divided.target?_isSome (h : a.Divided) : a.target?.isSome = true := by
  obtain ⟨hkind, e, helement, -⟩ := h
  simp [target?, targetType?, hkind, helement]

theorem Divided.valueType_ne (h : a.Divided) : a.valueType ≠ a.comparisonType := by
  obtain ⟨hkind, e, helement, hne⟩ := h
  simpa [comparisonType, hkind, helement] using hne

/-- An attribute that leads on and is not divided is compared at its own type. -/
theorem comparisonType_of_target? {e : String} (htarget : a.target? = some e)
    (h : ¬ a.Divided) : a.comparisonType = a.valueType := by
  unfold comparisonType
  split
  · rename_i t hkind helement
    have ht : t = .entity e := by
      rw [target?, targetType?, hkind, helement] at htarget
      split at htarget <;> simp_all
    rw [ht] at helement ⊢
    by_contra hne
    exact h ⟨hkind, e, helement, Ne.symm hne⟩
  · rfl

end Attribute

namespace Resolver

open Run

variable {C : Type} {r : Resolver C} {entity selector : String} {t : Trace}
  {path : List PathSegment} {type : ValueType}

/-! ## The last attribute decides -/

/-- The type of a path is read off its last attribute. -/
theorem exists_last_of_path (h : ((r.path entity selector).exec t).1 = .ok (path, type)) :
    ∃ last, path.getLast? = some last ∧
      type = if last.attr.target? = none then last.attr.comparisonType
        else last.attr.valueType := by
  have henter : ∀ (w : Walk) (name : String), w.Tracks entity →
      Ensures (fun _ => True) (r.enter w name) fun w' => w'.Tracks entity := by
    intro w name _
    refine ensures_enter_of fun _ => ?_
    intro u hu
    exact ⟨trivial, fun _ _ a _ => w.tracks_onTo a entity⟩
  obtain ⟨-, hpath⟩ := ensures_path_of (.start entity) henter selector t trivial
  obtain ⟨w, hw, hout⟩ := hpath (path, type) h
  rw [Walk.outcome_path hout]
  cases hlast : w.path.getLast? with
  | none =>
    -- a walk without steps has come to no scalar, and has no outcome
    have hscalar : w.scalar = none := by
      rw [hw.scalar, Path.scalar?, hlast]
    rw [Walk.outcome, hscalar, hlast] at hout
    cases hout
  | some last =>
    refine ⟨last, rfl, ?_⟩
    rw [hw.outcome_eq hlast] at hout
    cases hout
    rfl

/-- The type of a path is the one at which its last attribute is compared, whether the path ends at
a scalar or at an entity, just if this attribute is not divided. The type of a path that ends at a
divided attribute is the one that the attribute says of itself. -/
theorem type_eq_comparisonType_iff
    (h : ((r.path entity selector).exec t).1 = .ok (path, type)) :
    ∃ last, path.getLast? = some last ∧
      (type = last.attr.comparisonType ↔ ¬ last.attr.Divided) ∧
      (last.attr.Divided → type = last.attr.valueType) := by
  obtain ⟨last, hlast, rfl⟩ := exists_last_of_path h
  refine ⟨last, hlast, ?_⟩
  cases htarget : last.attr.target? with
  | none =>
    have hnot : ¬ last.attr.Divided := by
      intro hdivided
      simpa [htarget] using hdivided.target?_isSome
    rw [if_pos rfl]
    exact ⟨iff_of_true rfl hnot, fun hdivided => absurd hdivided hnot⟩
  | some e =>
    rw [if_neg (Option.some_ne_none e)]
    refine ⟨⟨fun htype hdivided => hdivided.valueType_ne htype, fun hnot => ?_⟩, fun _ => rfl⟩
    exact (Attribute.comparisonType_of_target? htarget hnot).symm

/-- The lines of an order, of which the schema says that they are a list. -/
def orderLines : PathSegment :=
  ⟨"Order", ⟨"lines", .elementCollection, true, .custom "List<Line>", some (.entity "Line")⟩⟩

/-- The notes on an order. -/
def orderNotes : PathSegment := ⟨"Order", .elementCollection "notes" (.entity "Note")⟩

/-- A resolver of orders with lines and notes. -/
def ordering : Resolver Expression :=
  ⟨{},
    (Catalog.empty.register (.ofAttributes "Order" [orderLines.attr, orderNotes.attr])).describe?,
    true, Expression.builder⟩

theorem path_orderLines :
    ((ordering.path "Order" "lines").exec {}).1 = .ok ([orderLines], .custom "List<Line>") :=
  eq_ok_of_toOption (by decide +kernel)

theorem divided_orderLines : orderLines.attr.Divided := ⟨rfl, "Line", rfl, by decide⟩

/-- A path to a divided attribute, and one to an attribute that is made of the type of its
elements. -/
theorem type_eq_comparisonType_iff_orders :
    ((ordering.path "Order" "lines").exec {}).1 = .ok ([orderLines], orderLines.attr.valueType) ∧
      orderLines.attr.Divided ∧
      ((ordering.path "Order" "notes").exec {}).1 =
        .ok ([orderNotes], orderNotes.attr.comparisonType) ∧
      ¬ orderNotes.attr.Divided := by
  have hnotes :
      ((ordering.path "Order" "notes").exec {}).1 = .ok ([orderNotes], .entity "Note") :=
    eq_ok_of_toOption (by decide +kernel)
  have hnot : ¬ orderNotes.attr.Divided := Attribute.not_divided_elementCollection _ _
  obtain ⟨last, hlast, -, hlines⟩ := type_eq_comparisonType_iff path_orderLines
  obtain ⟨last', hlast', hiff, -⟩ := type_eq_comparisonType_iff hnotes
  cases hlast
  cases hlast'
  refine ⟨?_, divided_orderLines, ?_, hnot⟩
  · rw [path_orderLines, hlines divided_orderLines]
    rfl
  · rw [hnotes, hiff.2 hnot]
    rfl

/-- Not every path comes with the type at which its last attribute is compared. -/
theorem not_forall_type_eq_comparisonType :
    ¬ ∀ (r : Resolver Expression) (t : Trace) (entity selector : String) (path : List PathSegment)
        (type : ValueType), ((r.path entity selector).exec t).1 = .ok (path, type) →
          ∀ last, path.getLast? = some last → type = last.attr.comparisonType := by
  intro h
  have htype := h ordering {} "Order" "lines" _ _ path_orderLines _ rfl
  exact divided_orderLines.valueType_ne htype

end Resolver

end FilterQuery
