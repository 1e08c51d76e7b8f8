/-
# FilterQuery.Proofs.Schema.Reachability -- registering a type registers what it reaches

The catalog that is being filled also says which types have been visited: an entity that is there is
left alone, together with all that its type depends on. So what comes in is what the type reaches
over types whose entities were absent at the start (`EntityFamily.Reaches`). Nothing else comes in,
since a type is only ever put on the list behind one that came in itself. And all of it does, since
what a registered type depends on is registered in the end, and a type that was absent at the start
can only have come in with its own dependencies.

The rule by which types are registered calls itself for each dependency. That this ends, circles or
not, is said by a derivation of the calls (`EntityFamily.Registers`): there is one for each catalog
and type, and it leads to the catalog that the list of pending keys leads to.
-/

import FilterQuery.Proofs.Schema.Registration
import Mathlib.Logic.Relation

namespace FilterQuery

namespace EntityFamily

variable {f : EntityFamily} {c d before : Catalog} {k key name : String} {ks ls : List String}
  {e : EntitySchema} {t u v : EntityType}

/-! ## The calls of a registration -/

mutual

/-- Registering the type with a key turns one catalog into another. Nothing happens if the key is
that of no type or the entity is there already; otherwise the entity comes in, and then what it
depends on is registered. -/
inductive Registers (f : EntityFamily) : Catalog → String → Catalog → Prop
  | unknown {c : Catalog} {k : String} (hk : f.type? k = none) : Registers f c k c
  | present {c : Catalog} {k : String} {t : EntityType} (hk : f.type? k = some t)
    (hc : c.contains t.schema.name = true) : Registers f c k c
  | absent {c d : Catalog} {k : String} {t : EntityType} (hk : f.type? k = some t)
    (hc : c.contains t.schema.name = false)
    (hdependencies : RegistersEach f (c.register t.schema) t.dependencies d) : Registers f c k d

/-- Registering the types with some keys, one after the other, turns one catalog into another. -/
inductive RegistersEach (f : EntityFamily) : Catalog → List String → Catalog → Prop
  | nil {c : Catalog} : RegistersEach f c [] c
  | cons {c d e : Catalog} {k : String} {ks : List String} (hk : Registers f c k d)
    (hks : RegistersEach f d ks e) : RegistersEach f c (k :: ks) e

end

/-- Registering two rows of types is registering the second after the first. -/
theorem RegistersEach.split (h : f.RegistersEach c (ks ++ ls) d) :
    ∃ between, f.RegistersEach c ks between ∧ f.RegistersEach between ls d := by
  induction ks generalizing c with
  | nil => exact ⟨c, .nil, h⟩
  | cons k ks ih =>
    cases h with
    | cons hk hrest =>
      obtain ⟨between, hks, hls⟩ := ih hrest
      exact ⟨between, .cons hk hks, hls⟩

/-- The calls end, and they lead where the list of pending keys leads. -/
theorem registersEach_registerAll (f : EntityFamily) (c : Catalog) (ks : List String) :
    f.RegistersEach c ks (f.registerAll c ks) := by
  -- by the steps of the list, which shrinks where the calls need not
  induction c, ks using registerAll.induct f with
  | case1 c =>
    rw [registerAll_nil]
    exact .nil
  | case2 c k ks hk ih =>
    rw [registerAll_unknown hk]
    exact .cons (.unknown hk) ih
  | case3 c k ks t hk hc ih =>
    rw [registerAll_present hk hc]
    exact .cons (.present hk hc) ih
  | case4 c k ks t hk hc _ ih =>
    rw [registerAll_absent hk hc]
    -- the dependencies were put in front of the list: theirs are the first calls
    obtain ⟨between, hdependencies, hks⟩ := ih.split
    exact .cons (.absent hk (by simpa using hc) hdependencies) hks

/-- Registering two rows of types in one go is registering the second after the first. -/
theorem registerAll_append (f : EntityFamily) (c : Catalog) (ks ls : List String) :
    f.registerAll c (ks ++ ls) = f.registerAll (f.registerAll c ks) ls := by
  induction c, ks using registerAll.induct f with
  | case1 c => rw [registerAll_nil, List.nil_append]
  | case2 c k ks hk ih => rw [List.cons_append, registerAll_unknown hk, registerAll_unknown hk, ih]
  | case3 c k ks t hk hc ih =>
    rw [List.cons_append, registerAll_present hk hc, registerAll_present hk hc, ih]
  | case4 c k ks t hk hc _ ih =>
    rw [List.cons_append, registerAll_absent hk hc, registerAll_absent hk hc, ← List.append_assoc,
      ih]

mutual

/-- The calls lead nowhere else. -/
theorem Registers.eq_registerAll {c d : Catalog} {k : String} :
    f.Registers c k d → d = f.registerAll c [k]
  | .unknown hk => by rw [registerAll_unknown hk, registerAll_nil]
  | .present hk hc => by rw [registerAll_present hk hc, registerAll_nil]
  | .absent hk hc hdependencies => by
    rw [registerAll_absent hk (Bool.eq_false_iff.1 hc), List.append_nil]
    exact hdependencies.eq_registerAll

theorem RegistersEach.eq_registerAll {c d : Catalog} {ks : List String} :
    f.RegistersEach c ks d → d = f.registerAll c ks
  | .nil => (registerAll_nil f _).symm
  | .cons hk hks => by
    have hfirst := hk.eq_registerAll
    have hrest := hks.eq_registerAll
    rw [hrest, hfirst]
    exact (registerAll_append f _ [_] _).symm

end

/-- The calls of a registration end, and they do so in one way. -/
theorem registers_iff : f.Registers c key d ↔ d = f.register c key := by
  constructor
  · exact Registers.eq_registerAll
  · rintro rfl
    cases registersEach_registerAll f c [key] with
    | cons hkey hnil =>
      cases hnil
      exact hkey

/-! ## What is reached -/

/-- A type of the family is among what another depends on. -/
def DependsOn (f : EntityFamily) (t u : EntityType) : Prop :=
  ∃ k ∈ t.dependencies, f.type? k = some u

/-- A chain of dependencies leads from one type to another, and the catalog lacks the entities of
all types of the chain, its ends included. -/
inductive Reaches (f : EntityFamily) (c : Catalog) : EntityType → EntityType → Prop
  | single {t : EntityType} (ht : c.contains t.schema.name = false) : Reaches f c t t
  | step {t u v : EntityType} (h : Reaches f c t u) (hv : f.DependsOn u v)
    (habsent : c.contains v.schema.name = false) : Reaches f c t v

theorem Reaches.absent (h : f.Reaches c t u) : c.contains u.schema.name = false := by
  cases h with
  | single ht => exact ht
  | step _ _ habsent => exact habsent

theorem Reaches.mem (h : f.Reaches c t u) (ht : t ∈ f) : u ∈ f := by
  cases h with
  | single _ => exact ht
  | step _ hv _ =>
    obtain ⟨k, -, hk⟩ := hv
    exact List.mem_of_find?_eq_some hk

/-- When nothing is there yet, every chain of dependencies counts. -/
theorem reaches_empty_iff : f.Reaches .empty t u ↔ Relation.ReflTransGen f.DependsOn t u := by
  constructor
  · intro h
    induction h with
    | single _ => exact .refl
    | step _ hv _ ih => exact ih.tail hv
  · intro h
    induction h with
    | refl => exact .single rfl
    | tail _ hv ih => exact ih.step hv rfl

/-! ## Nothing else comes in -/

/-- What the catalog holds, with some keys still to be done, was there before or is reached from
`t`; and so is what the keys lead to, where it was absent before. -/
structure Reached (f : EntityFamily) (before : Catalog) (t : EntityType) (ks : List String)
    (c : Catalog) : Prop where
  kept : ∀ name e, before.schema? name = some e → c.schema? name = some e
  schema : ∀ name e, c.schema? name = some e →
    before.schema? name = some e ∨ ∃ u, f.Reaches before t u ∧ u.schema = e ∧ e.name = name
  pending : ∀ k ∈ ks, ∀ u, f.type? k = some u → before.contains u.schema.name = false →
    f.Reaches before t u

/-- An entity that is absent now was absent before. -/
theorem Reached.absent_before (h : f.Reached before t ks c)
    (hc : ¬c.contains name = true) : before.contains name = false := by
  rw [Bool.eq_false_iff]
  intro hbefore
  obtain ⟨e, he⟩ := Catalog.exists_schema?_of_contains hbefore
  exact hc (Catalog.contains_of_schema? (h.kept name e he))

theorem Reached.start (ht : f.type? key = some t) (c : Catalog) : f.Reached c t [key] c where
  kept _ _ he := he
  schema _ _ he := .inl he
  pending k hk u hu habsent := by
    obtain rfl := List.mem_singleton.1 hk
    obtain rfl := Option.some.inj (ht.symm.trans hu)
    exact .single habsent

theorem Reached.drop (h : f.Reached before t (k :: ks) c) : f.Reached before t ks c where
  kept := h.kept
  schema := h.schema
  pending l hl := h.pending l (List.mem_cons_of_mem k hl)

/-- A type that comes in is reached, and so is what it puts on the list. -/
theorem Reached.register (h : f.Reached before t (k :: ks) c) (hk : f.type? k = some u)
    (hc : ¬c.contains u.schema.name = true) :
    f.Reached before t (u.dependencies ++ ks) (c.register u.schema) := by
  have hu : f.Reaches before t u :=
    h.pending k List.mem_cons_self u hk (h.absent_before hc)
  constructor
  · intro name e he
    exact schema?_register_of_absent hc (h.kept name e he)
  · intro name e he
    rw [Catalog.schema?_register] at he
    split at he
    · rename_i hname
      cases he
      exact .inr ⟨u, hu, rfl, hname.symm⟩
    · exact h.schema name e he
  · -- a key of the list is one of those put in front, behind the type that came in, or an old one
    intro l hl v hv habsent
    rcases List.mem_append.1 hl with hl | hl
    · exact hu.step ⟨l, hl, hv⟩ habsent
    · exact h.pending l (List.mem_cons_of_mem k hl) v hv habsent

theorem Reached.registerAll (h : f.Reached before t ks c) :
    f.Reached before t [] (f.registerAll c ks) := by
  apply registerAll_invariant (I := f.Reached before t) _ _ h
  · intro c k ks _ h
    exact h.drop
  · intro c k ks u hk hc h
    exact h.register hk hc

/-! ## All of it comes in -/

/-- No two types of the family have entities of one name. -/
def Distinct (f : EntityFamily) : Prop :=
  ∀ t ∈ f, ∀ u ∈ f, t.schema.name = u.schema.name → t = u

instance (f : EntityFamily) : Decidable f.Distinct :=
  inferInstanceAs (Decidable (∀ t ∈ f, ∀ u ∈ f, t.schema.name = u.schema.name → t = u))

/-- A type that was absent and whose entity is there in the end has come in itself, and what it
depends on is there. -/
theorem registered_of_contains (hdistinct : f.Distinct) (hu : u ∈ f)
    (habsent : c.contains u.schema.name = false)
    (h : (f.register c key).contains u.schema.name = true) :
    (f.register c key).schema? u.schema.name = some u.schema ∧
      ∀ l ∈ u.dependencies, f.Holds (f.register c key) l := by
  obtain ⟨e, he⟩ := Catalog.exists_schema?_of_contains h
  rcases (Accounts.start f c [key]).registerAll _ e he with hbefore | ⟨v, hv, rfl, hname, hall⟩
  · rw [Catalog.contains_of_schema? hbefore] at habsent
    cases habsent
  · -- the schema of that name is the one of a type of the family, and there is only one such type
    obtain rfl := hdistinct v hv u hu hname
    refine ⟨he, ?_⟩
    intro l hl
    exact (hall l hl).resolve_left (List.not_mem_nil)

theorem Reaches.registered (hdistinct : f.Distinct) (ht : f.type? key = some t)
    (h : f.Reaches c t u) : (f.register c key).schema? u.schema.name = some u.schema := by
  have htf : t ∈ f := List.mem_of_find?_eq_some ht
  suffices hcontains : (f.register c key).contains u.schema.name = true from
    (registered_of_contains hdistinct (h.mem htf) h.absent hcontains).1
  -- along the chain: a type that has come in brings the next one in
  induction h with
  | single _ => exact holds_register f c key _ ht
  | step h hv _ ih =>
    obtain ⟨l, hl, hv⟩ := hv
    exact (registered_of_contains hdistinct (h.mem htf) h.absent ih).2 l hl _ hv

/-- Registering a type of a family registers exactly what it reaches. The calls that this takes end,
whatever refers to whatever. The schemas that were there before stay as they are, and those that
come in are the ones of the types that are reached over types whose entities were absent. From an
empty catalog, these are all types that are reached at all. -/
theorem register_reached (hdistinct : f.Distinct) (ht : f.type? key = some t) (c : Catalog) :
    (∀ d, f.Registers c key d ↔ d = f.register c key) ∧
      (∀ name e, (f.register c key).schema? name = some e ↔
        c.schema? name = some e ∨ ∃ u, f.Reaches c t u ∧ u.schema = e ∧ e.name = name) ∧
      ∀ name e, (f.register .empty key).schema? name = some e ↔
        ∃ u, Relation.ReflTransGen f.DependsOn t u ∧ u.schema = e ∧ e.name = name := by
  have hiff : ∀ (c : Catalog) name e, (f.register c key).schema? name = some e ↔
      c.schema? name = some e ∨ ∃ u, f.Reaches c t u ∧ u.schema = e ∧ e.name = name := by
    intro c name e
    constructor
    · exact (Reached.start ht c).registerAll.schema name e
    · rintro (hbefore | ⟨u, hu, rfl, rfl⟩)
      · exact schema?_registerAll hbefore
      · exact hu.registered hdistinct ht
  refine ⟨fun d => registers_iff, hiff c, ?_⟩
  intro name e
  rw [hiff .empty name e]
  simp only [reaches_empty_iff]
  exact or_iff_right (nofun)

/-- A type without attributes, under the name of its entity. -/
def plain (name : String) (dependencies : List String) : EntityType :=
  ⟨name, ⟨name, .empty⟩, dependencies⟩

/-- A person and a landlord who share a home, which refers to the person. The landlord refers to
itself and has an agent, and only the agent refers to a town. -/
def letting : EntityFamily :=
  [plain "Person" ["Home", "Landlord"], plain "Home" ["Person"],
    plain "Landlord" ["Home", "Landlord", "Agent"], plain "Agent" ["Town"], plain "Town" []]

/-- A catalog that has an agent of its own. -/
def agency : Catalog := .ofList [.ofAttributes "Agent" [.basic "name" .string]]

/-- Where an agent is there already it stays, and the town behind it does not come in. From an empty
catalog the town does. -/
theorem register_reached_letting :
    letting.Distinct ∧ letting.type? "Person" = some (plain "Person" ["Home", "Landlord"]) ∧
      (letting.register agency "Person").schema? "Agent" = agency.schema? "Agent" ∧
      (letting.register agency "Person").schema? "Landlord" = some ⟨"Landlord", .empty⟩ ∧
      ¬letting.Reaches agency (plain "Person" ["Home", "Landlord"]) (plain "Town" []) ∧
      (letting.register .empty "Person").schema? "Town" = some ⟨"Town", .empty⟩ := by
  have hdistinct : letting.Distinct := by decide
  have hperson : letting.type? "Person" = some (plain "Person" ["Home", "Landlord"]) := rfl
  have hlandlord : letting.DependsOn (plain "Person" ["Home", "Landlord"])
      (plain "Landlord" ["Home", "Landlord", "Agent"]) := ⟨"Landlord", by decide, rfl⟩
  have hagent : letting.DependsOn (plain "Landlord" ["Home", "Landlord", "Agent"])
      (plain "Agent" ["Town"]) := ⟨"Agent", by decide, rfl⟩
  have htown : letting.DependsOn (plain "Agent" ["Town"]) (plain "Town" []) :=
    ⟨"Town", by decide, rfl⟩
  -- only the agent leads to the town
  have hbehind : ∀ u ∈ letting, ∀ k ∈ u.dependencies,
      letting.type? k = some (plain "Town" []) → agency.contains u.schema.name = true := by
    decide
  obtain ⟨-, hiff, hempty⟩ := register_reached hdistinct hperson agency
  refine ⟨hdistinct, hperson, ?_, ?_, ?_, ?_⟩
  · exact (hiff "Agent" _).2 (.inl rfl)
  · exact (hiff "Landlord" _).2 (.inr ⟨_, (Reaches.single rfl).step hlandlord rfl, rfl, rfl⟩)
  · intro hreaches
    generalize hu : plain "Town" [] = u at hreaches
    cases hreaches with
    | single _ => exact absurd hu (by decide)
    | step hbefore hdepends _ =>
      subst hu
      obtain ⟨k, hk, htype⟩ := hdepends
      have hthere := hbehind _ (hbefore.mem (List.mem_of_find?_eq_some hperson)) k hk htype
      rw [hbefore.absent] at hthere
      cases hthere
  · exact (hempty "Town" _).2
      ⟨_, ((Relation.ReflTransGen.single hlandlord).tail hagent).tail htown, rfl, rfl⟩

end EntityFamily

end FilterQuery
