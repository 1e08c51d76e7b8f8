/-
# FilterQuery.Proofs.Declaration.Wrappers -- wrappers say nothing about an attribute

Optional and shared values are looked through, however many of the wrappers stand around a type and
in whichever order and spelling (`TypeExpr.Stacked`). One step of looking takes off one wrapper
(`unwrap_eq`); all steps together take off all of them and nothing else (`unwrap_innermost`).

A collection is looked into once, so wrappers may stand around it as well as around its elements
(`TypeExpr.Disguised`). All that is generated for a field looks at its type through the shape of it,
and the shape stays the same. So a record comes to the same entity, with the same dependencies, or
fails in the same way, when types of its fields are disguised
(`RecordDeclaration.entity_disguised`).
-/

import FilterQuery.Declaration.Record
import FilterQuery.Proofs.Outcome
import Mathlib.Data.List.Forall2

namespace FilterQuery

namespace TypeExpr

variable {lead name : String} {arguments arguments' : TypeArguments} {items : List TypeArgument}
  {t u v e e' : TypeExpr}

/-! ## Taking off wrappers -/

/-- The type in a wrapper, if a type is one. -/
def wrapped? : TypeExpr → Option TypeExpr
  | path _ name arguments => if wrappers.contains name then arguments.firstType? else none
  | _ => none

/-- `u` is `t` in a stack of wrappers. Before the name of a wrapper there may be a path, and behind
the type in it there may be further arguments. -/
inductive Stacked (t : TypeExpr) : TypeExpr → Prop
  | bare : Stacked t t
  | wrap {lead name : String} {arguments : TypeArguments} {u : TypeExpr} (hname : name ∈ wrappers)
    (hfirst : arguments.firstType? = some u) (hu : Stacked t u) :
    Stacked t (.path lead name arguments)

theorem unwrapFirst?_eq (opening : String) (items : List TypeArgument) (trailing : Bool) :
    unwrapFirst? items = (TypeArguments.angle opening items trailing).firstType?.map unwrap := by
  induction items with
  | nil => rfl
  | cons item items ih =>
    cases item with
    | type t => rfl
    | lifetime s => exact ih
    | other s => exact ih

/-- Looking through wrappers takes off one, if there is one, and looks on. -/
theorem unwrap_eq (t : TypeExpr) : t.unwrap = (t.wrapped?.map unwrap).getD t := by
  cases t with
  | path lead name arguments =>
    cases arguments with
    | angle opening items trailing =>
      rw [unwrap, unwrapFirst?_eq opening items trailing, wrapped?]
      split <;> rfl
    | absent =>
      rw [wrapped?]
      split <;> rfl
    | other s =>
      rw [wrapped?]
      split <;> rfl
  | reference mark target => rfl
  | bracketed t => rfl
  | other s => rfl

theorem wrapped?_path_eq_some_iff :
    (path lead name arguments).wrapped? = some u ↔
      name ∈ wrappers ∧ arguments.firstType? = some u := by
  rw [wrapped?, ← List.contains_iff_mem]
  split
  · rename_i hname
    exact (and_iff_right hname).symm
  · rename_i hname
    exact iff_of_false nofun fun h => hname h.1

theorem unwrap_wrap (hname : name ∈ wrappers) (hfirst : arguments.firstType? = some u) :
    (path lead name arguments).unwrap = u.unwrap := by
  rw [unwrap_eq, wrapped?_path_eq_some_iff.2 ⟨hname, hfirst⟩]
  rfl

/-- A stack of wrappers is looked through. -/
theorem Stacked.unwrap_eq (h : Stacked t u) : u.unwrap = t.unwrap := by
  induction h with
  | bare => rfl
  | wrap hname hfirst _ ih => rw [unwrap_wrap hname hfirst, ih]

theorem stacked_of_wrapped? (h : t.wrapped? = some u) (hv : Stacked v u) : Stacked v t := by
  cases t with
  | path lead name arguments =>
    obtain ⟨hname, hfirst⟩ := wrapped?_path_eq_some_iff.1 h
    exact .wrap hname hfirst hv
  | reference mark target => cases h
  | bracketed t => cases h
  | other s => cases h

/-- What looking through `t` finds lies beneath nothing but wrappers, and is none itself. -/
def Innermost (t : TypeExpr) : Prop := Stacked t.unwrap t ∧ t.unwrap.wrapped? = none

/-- If what is in the first wrapper is looked through to the innermost type, then so is the
whole. -/
theorem innermost_of_wrapped? (h : ∀ u, t.wrapped? = some u → Innermost u) : Innermost t := by
  unfold Innermost
  rw [unwrap_eq]
  cases hwrapped : t.wrapped? with
  | none => exact ⟨.bare, hwrapped⟩
  | some u =>
    obtain ⟨hstacked, hbare⟩ := h u hwrapped
    exact ⟨stacked_of_wrapped? hwrapped hstacked, hbare⟩

mutual

/-- Wrappers are all that looking through a type takes off, and none is left. -/
theorem unwrap_innermost : ∀ t : TypeExpr, Innermost t
  | path lead name (.angle opening items trailing) => by
    apply innermost_of_wrapped?
    intro u hu
    obtain ⟨-, hfirst⟩ := wrapped?_path_eq_some_iff.1 hu
    exact firstType_innermost opening trailing items u hfirst
  | path lead name .absent => by
    apply innermost_of_wrapped?
    intro u hu
    cases (wrapped?_path_eq_some_iff.1 hu).2
  | path lead name (.other s) => by
    apply innermost_of_wrapped?
    intro u hu
    cases (wrapped?_path_eq_some_iff.1 hu).2
  | reference mark target => ⟨.bare, rfl⟩
  | bracketed t => ⟨.bare, rfl⟩
  | other s => ⟨.bare, rfl⟩

theorem firstType_innermost (opening : String) (trailing : Bool) :
    ∀ (items : List TypeArgument) (u : TypeExpr),
      (TypeArguments.angle opening items trailing).firstType? = some u → Innermost u
  | [], _, h => by cases h
  | .type t :: _, u, h => by
    obtain rfl : t = u := Option.some.inj h
    exact unwrap_innermost t
  | .lifetime _ :: rest, u, h => firstType_innermost opening trailing rest u h
  | .other _ :: rest, u, h => firstType_innermost opening trailing rest u h

end

/-! ## The shape of a type -/

/-- `u` is `t` with wrappers around it or, if `t` is a collection, around it and around its
elements. -/
inductive Disguised : TypeExpr → TypeExpr → Prop
  | around {t u : TypeExpr} (h : Stacked t u) : Disguised t u
  | within {lead name : String} {arguments arguments' : TypeArguments} {e e' u : TypeExpr}
    (hname : name ∈ collections) (he : arguments.firstType? = some e)
    (he' : arguments'.firstType? = some e') (hinner : Stacked e e')
    (houter : Stacked (.path lead name arguments') u) : Disguised (.path lead name arguments) u

/-- A collection is no wrapper. -/
theorem unwrap_collection (hname : name ∈ collections) :
    (path lead name arguments).unwrap = path lead name arguments := by
  have hdisjoint : ∀ n ∈ collections, wrappers.contains n = false := by decide
  rw [unwrap_eq, wrapped?, hdisjoint name hname]
  rfl

theorem shape_collection (hname : name ∈ collections) (he : arguments.firstType? = some e) :
    (path lead name arguments).shape = ⟨e.unwrap, true⟩ := by
  have hcontains : collections.contains name = true := List.contains_iff_mem.2 hname
  rw [shape, unwrap_collection hname, element?, if_pos hcontains, he]

theorem Stacked.shape_eq (h : Stacked t u) : u.shape = t.shape := by
  rw [shape, shape, h.unwrap_eq]

/-- A disguised type has the shape that it has without. -/
theorem Disguised.shape_eq (h : Disguised t u) : u.shape = t.shape := by
  cases h with
  | around h => exact h.shape_eq
  | within hname he he' hinner houter =>
    rw [houter.shape_eq, shape_collection hname he', shape_collection hname he, hinner.unwrap_eq]

end TypeExpr

/-! ## Fields and records -/

namespace FieldDeclaration

variable {f g : FieldDeclaration}

/-- The field `g` is `f` with its type disguised. -/
structure Disguised (f g : FieldDeclaration) : Prop where
  name : g.name = f.name
  options : g.options = f.options
  type : TypeExpr.Disguised f.type g.type

/-- Fields contribute the same if their types have the same shape. -/
theorem contribution_congr (hname : g.name = f.name) (hoptions : g.options = f.options)
    (hshape : g.type.shape = f.type.shape) : g.contribution = f.contribution := by
  unfold contribution contribute
  rw [hname, hoptions, hshape]

theorem Disguised.contribution_eq (h : Disguised f g) : g.contribution = f.contribution :=
  contribution_congr h.name h.options h.type.shape_eq

end FieldDeclaration

/-- The contributions of fields are made one after the other, and no disguise shows in them. -/
theorem mapM_contribution_disguised {fields fields' : List FieldDeclaration}
    (hall : List.Forall₂ FieldDeclaration.Disguised fields fields') :
    fields'.mapM FieldDeclaration.contribution = fields.mapM FieldDeclaration.contribution := by
  induction hall with
  | nil => rfl
  | cons hfield _ ih => rw [List.mapM_cons, List.mapM_cons, hfield.contribution_eq, ih]

theorem all_named_disguised {fields fields' : List FieldDeclaration}
    (hall : List.Forall₂ FieldDeclaration.Disguised fields fields') :
    (fields'.all fun f => f.name.isSome) = fields.all fun f => f.name.isSome := by
  induction hall with
  | nil => rfl
  | cons hfield _ ih => rw [List.all_cons, List.all_cons, hfield.name, ih]

namespace RecordDeclaration

/-- Wrappers are invisible. When the types of any fields of a record are put into any stacks of
wrappers, and the elements of collections into further ones, the record comes to the same
attributes and dependencies or fails with the same failure. -/
theorem entity_disguised (r : RecordDeclaration) {fields fields' : List FieldDeclaration}
    (hall : List.Forall₂ FieldDeclaration.Disguised fields fields') :
    { r with fields := some fields' }.entity = { r with fields := some fields }.entity := by
  unfold entity namedFields?
  dsimp only
  rw [Option.filter_some, Option.filter_some, all_named_disguised hall]
  cases fields.all fun f => f.name.isSome with
  | false => rfl
  | true =>
    simp only [if_true]
    rw [mapM_contribution_disguised hall]

/-- A name as a type. -/
def plainType (name : String) : TypeExpr := .path "" name .absent

/-- A name with one type as its argument, and what stands before it. -/
def typeOf (lead name : String) (t : TypeExpr) : TypeExpr :=
  .path lead name (.angle "<" [.type t] false)

/-- The homes, the employer and the age of a person. -/
def personFields : List FieldDeclaration :=
  [⟨some "homes", typeOf "" "Vec" (plainType "Home"), [⟨"embedded", none⟩]⟩,
    ⟨some "employer", plainType "Company", [⟨"association", none⟩]⟩,
    ⟨some "age", plainType "i32", []⟩]

/-- The same with optional and shared values. -/
def sharedFields : List FieldDeclaration :=
  [⟨some "homes",
      typeOf "" "Option" (typeOf "" "Vec" (typeOf "" "Box" (typeOf "std::sync::" "Arc"
        (plainType "Home")))), [⟨"embedded", none⟩]⟩,
    ⟨some "employer", typeOf "std::rc::" "Rc" (typeOf "" "Option" (plainType "Company")),
      [⟨"association", none⟩]⟩,
    ⟨some "age", typeOf "" "Option" (plainType "i32"), []⟩]

/-- Shared homes are still value objects in a collection, a shared employer is a reference, and an
optional age is a number. -/
theorem entity_disguised_shared :
    List.Forall₂ FieldDeclaration.Disguised personFields sharedFields ∧
      (⟨"Person", {}, [], some sharedFields⟩ : RecordDeclaration).entity =
        .ok ⟨"Person", {}, "Person",
          [.elementCollection "homes" (.entity (plainType "Home")),
            .association "employer" (plainType "Company") false,
            .basic "age" (.known (.int .i32))],
          [plainType "Home", plainType "Company"]⟩ := by
  have hhomes : TypeExpr.Stacked (plainType "Home")
      (typeOf "" "Box" (typeOf "std::sync::" "Arc" (plainType "Home"))) :=
    .wrap (by decide) rfl (.wrap (by decide) rfl .bare)
  have hemployer : TypeExpr.Stacked (plainType "Company")
      (typeOf "std::rc::" "Rc" (typeOf "" "Option" (plainType "Company"))) :=
    .wrap (by decide) rfl (.wrap (by decide) rfl .bare)
  have hage : TypeExpr.Stacked (plainType "i32") (typeOf "" "Option" (plainType "i32")) :=
    .wrap (by decide) rfl .bare
  have hall : List.Forall₂ FieldDeclaration.Disguised personFields sharedFields := by
    refine .cons ⟨rfl, rfl, ?_⟩ (.cons ⟨rfl, rfl, .around hemployer⟩
      (.cons ⟨rfl, rfl, .around hage⟩ .nil))
    exact .within (by decide) rfl rfl hhomes (.wrap (by decide) rfl .bare)
  refine ⟨hall, ?_⟩
  rw [entity_disguised ⟨"Person", {}, [], none⟩ hall]
  rfl

end RecordDeclaration

end FilterQuery
