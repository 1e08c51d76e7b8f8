/-
# FilterQuery.Proofs.Declaration.References -- declared schemas refer to registered entities

What is generated for a field has two halves: an attribute, and a type that the record depends on.
They are made apart from each other, but they agree. An attribute leads to an entity exactly if the
field makes the record depend on the type of that entity (`target?_contribute`). So the entities to
which the attributes of a record lead are, in their order, those of its dependencies
(`RecordDeclaration.targets_entity`).

Registering a type registers what it depends on. Hence what a record refers to is registered with
it, through any chain and circle of references (`Catalog.Closed`), and a selector that is followed
from one of these entities only ever reaches others of them.

A type is taken for what a record comes to (`EntityFamily.Declared`) however the types of a family
are keyed, and however the record writes the types that it depends on: what counts is that each key
leads to a type of the family whose entity has the name that is put into the attributes.
-/

import FilterQuery.Declaration.Record
import FilterQuery.Proofs.Resolve.Connected
import FilterQuery.Proofs.Schema.Naming
import FilterQuery.Proofs.Schema.Registration
import FilterQuery.Proofs.Table.Entries
import Mathlib.Data.List.Forall2

namespace FilterQuery

/-! ## The halves of a contribution -/

/-- No entity goes by the name of a scalar or a custom type. -/
theorem ValueType.ofDeclaredName_ne_entity (name entity : String) :
    ofDeclaredName name ≠ .entity entity := by
  unfold ofDeclaredName scalar?
  split <;> simp

/-- A collection leads nowhere unless its elements are entities. -/
theorem Attribute.target?_elementCollection {name : String} {t : ValueType}
    (h : ∀ entity, t ≠ .entity entity) : (elementCollection name t).target? = none := by
  cases t with
  | entity e => exact absurd rfl (h e)
  | _ => rfl

namespace FieldDeclaration

variable {o : FieldOptions} {name : String} {t inner : TypeExpr} {c : Contribution}

theorem valueType_ne_entity {type : TypeTemplate} (h : valueTemplate o inner = .ok type)
    (d : DeclaredTypes) (entity : String) : d.valueType type ≠ .entity entity := by
  unfold valueTemplate at h
  split at h
  · cases h
    simp [DeclaredTypes.valueType]
  · split at h
    · cases h
      exact ValueType.ofDeclaredName_ne_entity _ entity
    · cases h

/-- The attribute of a field leads to the entity of the type on which the field makes the record
depend, and to none if there is no such type. -/
def Contribution.Agrees (c : Contribution) : Prop :=
  ∀ d : DeclaredTypes,
    (c.attribute?.bind fun a => (d.attr a).target?) = c.dependency?.map d.entityName

/-- A field with a name contributes an attribute that leads where it depends. -/
theorem target?_contribute (h : contribute o name t = .ok c) : c.Agrees := by
  intro d
  unfold contribute at h
  dsimp only at h
  split at h
  · cases h
    rfl
  · split at h
    · cases h
      cases t.shape.collection <;> rfl
    · -- neither embedded nor associated: the attribute is a scalar, or a collection of scalars
      obtain ⟨type, htype, hc⟩ := bind_eq_ok_iff.1 h
      cases hc
      cases t.shape.collection with
      | false => rfl
      | true => exact Attribute.target?_elementCollection (valueType_ne_entity htype d)

theorem target?_contribution {f : FieldDeclaration} (h : f.contribution = .ok c) : c.Agrees := by
  obtain ⟨o, -, hc⟩ := bind_eq_ok_iff.1 h
  split at hc
  · exact target?_contribute hc
  · cases hc
    intro d
    rfl

end FieldDeclaration

/-! ## Records -/

theorem agrees_of_mapM {fields : List FieldDeclaration} {cs : List FieldDeclaration.Contribution}
    (h : fields.mapM FieldDeclaration.contribution = .ok cs) : ∀ c ∈ cs, c.Agrees := by
  induction fields generalizing cs with
  | nil =>
    cases h
    intro c hc
    cases hc
  | cons f rest ih =>
    rw [List.mapM_cons] at h
    obtain ⟨c, hc, h⟩ := bind_eq_ok_iff.1 h
    obtain ⟨cs', hcs, h⟩ := bind_eq_ok_iff.1 h
    cases h
    intro c' hc'
    rcases List.mem_cons.1 hc' with rfl | hc'
    · exact FieldDeclaration.target?_contribution hc
    · exact ih hcs c' hc'

/-- The entities to which the attributes of a record lead are those of its dependencies, one after
the other. -/
theorem RecordDeclaration.targets_entity {r : RecordDeclaration} {e : EntityTemplate}
    (h : r.entity = .ok e) (d : DeclaredTypes) :
    e.attributes.filterMap (fun a => (d.attr a).target?) = e.dependencies.map d.entityName := by
  obtain ⟨entityName, -, h⟩ := bind_eq_ok_iff.1 h
  split at h
  · cases h
  · obtain ⟨cs, hcs, h⟩ := bind_eq_ok_iff.1 h
    cases h
    have hagrees := agrees_of_mapM hcs
    rw [List.filterMap_filterMap, List.map_filterMap]
    apply List.filterMap_congr
    intro c hc
    exact hagrees c hc d

/-! ## Closed catalogs -/

theorem exists_mem_of_forall₂ {α β : Type} {R : α → β → Prop} {as : List α} {bs : List β}
    (h : List.Forall₂ R as bs) {b : β} (hb : b ∈ bs) : ∃ a ∈ as, R a b := by
  induction h with
  | nil => cases hb
  | cons hR _ ih =>
    rcases List.mem_cons.1 hb with rfl | hb
    · exact ⟨_, List.mem_cons_self, hR⟩
    · obtain ⟨a, ha, hab⟩ := ih hb
      exact ⟨a, List.mem_cons_of_mem _ ha, hab⟩

/-- The attributes of a schema are among those that it was made of. -/
theorem EntitySchema.mem_of_mem_ofAttributes {name : String} {attributes : List Attribute}
    {a : Attribute} (h : a ∈ (ofAttributes name attributes).attributes.values) :
    a ∈ attributes := by
  obtain ⟨⟨key, a⟩, hentry, rfl⟩ := List.mem_map.1 h
  have hget := (Table.mem_entries_iff (Table.nodup_keys_ofList _) key a).1 hentry
  rcases Table.mem_of_get?_foldl_put _ _ hget with hpair | hempty
  · obtain ⟨a', ha', heq⟩ := List.mem_map.1 hpair
    cases heq
    exact ha'
  · cases hempty

namespace Catalog

variable {c : Catalog} {entity name : String} {names : List String} {path : List PathSegment}
  {a : Attribute}

/-- Where the attributes of registered entities lead, an entity is registered. -/
def Closed (c : Catalog) : Prop :=
  ∀ name e, c.schema? name = some e → ∀ a ∈ e.attributes.values, ∀ target,
    a.target? = some target → c.contains target = true

theorem exists_schema?_of_describe? (h : c.describe? entity name = some a) :
    ∃ e, c.schema? entity = some e ∧ a ∈ e.attributes.values := by
  obtain ⟨e, he, ha⟩ := Option.bind_eq_some_iff.1 h
  exact ⟨e, he, List.mem_map_of_mem (Table.mem_of_valueAt ha)⟩

/-- A walk from a registered entity reaches registered entities only. -/
theorem Closed.contains_reached (h : c.Closed) (hentity : c.contains entity = true)
    (hpath : Connected c.describe? entity names path) :
    c.contains (Path.reached entity path) = true := by
  rw [Path.reached]
  cases hlast : path.getLast? with
  | none => exact hentity
  | some p =>
    have hp : p ∈ path := List.mem_of_getLast? hlast
    obtain ⟨name, -, hdescribed⟩ := exists_mem_of_forall₂ hpath.described hp
    obtain ⟨e, he, ha⟩ := exists_schema?_of_describe? hdescribed
    show c.contains (p.attr.target?.getD p.entity) = true
    cases htarget : p.attr.target? with
    | none => exact contains_of_schema? he
    | some target => exact h p.entity e he p.attr ha target htarget

end Catalog

/-- Where what describes attributes is a closed catalog, a selector that is not found from a
registered entity on fails at a registered entity. -/
theorem Resolver.contains_of_unknownSelector {C : Type} {r : Resolver C} {t : Trace} {c : Catalog}
    (hclosed : c.Closed) (hdescriber : r.describer = c.describe?) (ht : r.Consistent t)
    {entity selector reached name : String} (hentity : c.contains entity = true)
    {f : Failure} (h : ((r.path entity selector).exec t).1 = .error f)
    (hkind : f.kind = .unknownSelector reached name) : c.contains reached = true := by
  obtain ⟨-, hmeets⟩ :=
    ends_segments r r.describer entity (Text.Dotted.parts selector) t ht.steady
  obtain ⟨hstuck, -⟩ := meets_iff.1 hmeets
  rw [path_eq, Run.exec_bind] at h
  rcases hexec : ((Text.Dotted.parts selector).foldlM r.follow { entity := entity }).exec t with
    ⟨g | w, u⟩ <;> rw [hexec] at hstuck h
  · cases h
    obtain ⟨taken, names, path, next, queue, -, -, hconnected, hhalts⟩ := hstuck f rfl
    rw [hdescriber] at hconnected
    have hreached := hclosed.contains_reached hentity hconnected
    cases hhalts <;> cases hkind <;> exact hreached
  · dsimp only at h
    split at h
    · cases h
    · cases h
      cases hkind
      exact hentity

/-! ## Families of declared records -/

namespace EntityFamily

variable {f : EntityFamily}

/-- The type is what a record comes to. The types that the record depends on are in the family, each
under the key that stands for it, and their entities have the names that are put into the
attributes. -/
def Declared (f : EntityFamily) (u : EntityType) : Prop :=
  ∃ (r : RecordDeclaration) (e : EntityTemplate) (d : DeclaredTypes), r.entity = .ok e ∧
    u.schema = (e.instantiate d).schema ∧
    List.Forall₂ (fun key t => ∃ v, f.type? key = some v ∧ v.schema.name = d.entityName t)
      u.dependencies e.dependencies

/-- Where types are known by their texts, the text of each type that a record depends on has to be
that of a type of the family. -/
theorem declared_instantiate {r : RecordDeclaration} {e : EntityTemplate} {d : DeclaredTypes}
    (h : r.entity = .ok e)
    (hall : ∀ t ∈ e.dependencies,
      (f.type? t.text).map (·.schema.name) = some (d.entityName t)) :
    f.Declared (e.instantiate d) := by
  refine ⟨r, e, d, h, rfl, ?_⟩
  show List.Forall₂ _ (e.dependencies.map TypeExpr.text) e.dependencies
  rw [List.forall₂_map_left_iff, List.forall₂_same]
  intro t ht
  exact Option.map_eq_some_iff.1 (hall t ht)

/-- A target of a declared type is the entity of a type that it depends on. -/
theorem Declared.exists_dependency {u : EntityType} (h : f.Declared u) {a : Attribute}
    (ha : a ∈ u.schema.attributes.values) {target : String} (htarget : a.target? = some target) :
    ∃ key ∈ u.dependencies, ∃ v, f.type? key = some v ∧ v.schema.name = target := by
  obtain ⟨r, e, d, hr, hschema, hkeys⟩ := h
  rw [hschema] at ha
  obtain ⟨template, htemplate, rfl⟩ :=
    List.mem_map.1 (EntitySchema.mem_of_mem_ofAttributes ha)
  have hmem : target ∈ e.attributes.filterMap fun a => (d.attr a).target? :=
    List.mem_filterMap.2 ⟨template, htemplate, htarget⟩
  rw [RecordDeclaration.targets_entity hr d] at hmem
  obtain ⟨t, ht, rfl⟩ := List.mem_map.1 hmem
  exact exists_mem_of_forall₂ hkeys ht

theorem closed_register_empty (h : ∀ u ∈ f, f.Declared u) (key : String) :
    (f.register .empty key).Closed := by
  intro name e he a ha target htarget
  obtain ⟨u, hu, rfl, -, hholds⟩ := of_schema?_register_empty he
  -- the target is the entity of a type that this one depends on, and so it has come in as well
  obtain ⟨dependency, hdependency, v, hv, rfl⟩ := (h u hu).exists_dependency ha htarget
  exact hholds dependency hdependency v hv

/-- In a family of declared types no reference dangles. Registering any of the types registers its
entity, and with each entity all those to which its attributes lead. So a selector that is not found
from one of these entities on fails at one of them, for want of an attribute and not of an
entity. Not even the names of the entities need to be distinct. -/
theorem register_closed (h : ∀ u ∈ f, f.Declared u) (key : String) :
    (∀ u, f.type? key = some u →
      (f.register .empty key).contains u.schema.name = true) ∧
    (f.register .empty key).Closed ∧
    ∀ (C : Type) (r : Resolver C) (t : Trace) (entity selector reached name : String)
      (failure : Failure), r.describer = (f.register .empty key).describe? → r.Consistent t →
      (f.register .empty key).contains entity = true →
      ((r.path entity selector).exec t).1 = .error failure →
      failure.kind = .unknownSelector reached name →
      (f.register .empty key).contains reached = true := by
  have hclosed := closed_register_empty h key
  refine ⟨holds_register f .empty key, hclosed, ?_⟩
  intro C r t entity selector reached name failure hdescriber ht hentity hpath hkind
  exact r.contains_of_unknownSelector hclosed hdescriber ht hentity hpath hkind

/-- A name as a type. -/
def named (name : String) (argument : Option TypeExpr := none) : TypeExpr :=
  match argument with
  | none => .path "" name .absent
  | some t => .path "" name (.angle "<" [.type t] false)

/-- People with several homes and an employer, homes with an owner, and employers with a staff that
goes by another name. -/
def staffed : List RecordDeclaration :=
  [⟨"Person", {}, [],
      some [⟨some "name", named "String", []⟩,
        ⟨some "homes", named "Option" (named "Vec" (named "Box" (named "Home"))),
          [⟨"embedded", none⟩]⟩,
        ⟨some "employer", named "Arc" (named "Company"), [⟨"association", none⟩]⟩]⟩,
    ⟨"Home", {}, [],
      some [⟨some "city", named "String", []⟩,
        ⟨some "owner", named "Person", [⟨"association", none⟩]⟩]⟩,
    ⟨"Company", {}, [⟨"name", some "Firm"⟩],
      some [⟨some "staff", named "HashSet" (named "Person"),
        [⟨"rename", some "people"⟩, ⟨"association", none⟩]⟩]⟩]

/-- The names of their entities. -/
def firms : DeclaredTypes :=
  ⟨fun t => if t.text = "Company" then "Firm" else t.text, fun _ => ⟨"", []⟩⟩

/-- The types that they come to. -/
def staffedTypes : EntityFamily :=
  staffed.filterMap fun r => r.entity.toOption.map (·.instantiate firms)

theorem declared_staffedTypes : ∀ u ∈ staffedTypes, staffedTypes.Declared u := by
  have hall : ∀ r ∈ staffed, ∀ e ∈ r.entity.toOption, ∀ t ∈ e.dependencies,
      (staffedTypes.type? t.text).map (·.schema.name) = some (firms.entityName t) := by
    decide +kernel
  intro u hu
  obtain ⟨r, hr, hu⟩ := List.mem_filterMap.1 hu
  obtain ⟨e, he, rfl⟩ := Option.map_eq_some_iff.1 hu
  cases hentity : r.entity with
  | error f =>
    rw [hentity] at he
    cases he
  | ok e' =>
    have hrefs := hall r hr e he
    rw [hentity] at he
    cases he
    exact declared_instantiate hentity hrefs

/-- A company leads to its staff, and they lead to their homes. -/
theorem register_staffed : staffedTypes.register .empty "Company" =
    .ofList ((staffedTypes.rotateRight 1).map (·.schema)) := by
  refine (registerAll_absent rfl (by decide +kernel)).trans ?_
  refine (registerAll_absent rfl (by decide +kernel)).trans ?_
  refine (registerAll_absent rfl (by decide +kernel)).trans ?_
  -- the owner of a home and the employer are there by then
  refine (registerAll_present rfl (by decide +kernel)).trans ?_
  refine (registerAll_present rfl (by decide +kernel)).trans ?_
  exact registerAll_nil _ _

/-- What resolves filters with the entities of a company. -/
def staffing : Resolver Expression :=
  ⟨{}, (staffedTypes.register .empty "Company").describe?, false, Expression.builder⟩

/-- Homes are registered with a company, though they are two steps away from it and behind a
collection, so a selector fails at a home only for what a home does not have. -/
theorem register_closed_staffed :
    (∀ u ∈ staffedTypes, staffedTypes.Declared u) ∧
      (staffedTypes.register .empty "Company").contains "Firm" = true ∧
      (staffedTypes.register .empty "Company").Closed ∧
      ∃ failure, ((staffing.path "Firm" "people.homes.zip").exec {}).1 = .error failure ∧
        failure.kind = .unknownSelector "Home" "zip" ∧
        (staffedTypes.register .empty "Company").contains "Home" = true := by
  have hdeclared := declared_staffedTypes
  obtain ⟨hregistered, hclosed, hselector⟩ := register_closed hdeclared "Company"
  have hfirm : (staffedTypes.register .empty "Company").contains "Firm" = true :=
    hregistered _ (Option.eq_some_of_isSome (by decide +kernel))
  have hconsistent : staffing.Consistent {} := by
    intro hcached
    cases hcached
  have hkind : ((staffing.path "Firm" "people.homes.zip").exec {}).1.mapError Failure.kind =
      .error (.unknownSelector "Home" "zip") := by
    rw [staffing, register_staffed]
    rfl
  refine ⟨hdeclared, hfirm, hclosed, ?_⟩
  cases hpath : ((staffing.path "Firm" "people.homes.zip").exec {}).1 with
  | ok x =>
    rw [hpath] at hkind
    cases hkind
  | error failure =>
    rw [hpath] at hkind
    have hunknown : failure.kind = .unknownSelector "Home" "zip" := Except.error.inj hkind
    exact ⟨failure, rfl, hunknown, hselector _ staffing {} "Firm" "people.homes.zip" "Home" "zip"
      failure rfl hconsistent hfirm hpath hunknown⟩

end EntityFamily

end FilterQuery
