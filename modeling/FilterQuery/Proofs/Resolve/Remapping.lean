/-
# FilterQuery.Proofs.Resolve.Remapping -- a remapped selector abbreviates a plain one

A segment of a selector may stand for a path of its own, and the parts of that path are taken as
they are. So following a remapped selector is looking names up, one after the other, and what a
remapping decides is only which names these are. The path that is found carries them: each attribute
is called what it has been looked up as. Joined with dots they are a selector that needs no
remapping (`Path.selector`).

`Resolver.Spelled` is what following keeps: looking up the names of the path, and nothing else,
leads to the very walk and to the very trace that have been reached. It is kept by each name that is
looked up, so it holds behind a segment, whatever that stands for, and behind a whole selector. A
resolver without remappings does nothing but look names up (`follow_unmapped`), so that it comes to
the same needs no second induction. No name holds a dot, so the plain selector falls into these
names again.
-/

import FilterQuery.Expression
import FilterQuery.Proofs.Resolve.Views
import FilterQuery.Proofs.Schema.Naming

namespace FilterQuery

/-! ## The selector of a path -/

namespace Path

/-- The names of the attributes on a path. -/
def names (path : List PathSegment) : List String := path.map (·.attr.name)

/-- The selector that names the attributes of a path. -/
def selector (path : List PathSegment) : String := Text.Dotted.join (names path)

@[simp] theorem names_append (path path' : List PathSegment) :
    names (path ++ path') = names path ++ names path' := List.map_append

end Path

namespace Resolver

open Run

variable {C : Type} {r : Resolver C} {entity : String} {t u u' : Trace} {w w' : Walk}

/-! ## Resolvers without remappings -/

/-- The resolver without remappings. All else is as it was, the access lists as well. -/
def unmapped (r : Resolver C) : Resolver C :=
  { r with settings := { r.settings with remappings := .empty } }

/-- Where nothing is remapped, following a segment is looking it up. -/
theorem follow_unmapped (r : Resolver C) : r.unmapped.follow = r.enter := by
  funext w segment
  rw [follow]
  by_cases hscalar : w.scalar.isSome = true
  · rw [if_pos hscalar, enter_of_scalar r hscalar]
  · rw [if_neg hscalar]
    show [segment].foldlM r.enter w = r.enter w segment
    rw [List.foldlM_cons]
    exact bind_pure _

/-! ## Names that are looked up -/

/-- Attributes are seen under their names, if they are described and remembered under these. -/
theorem named_sees (hr : r.describer.Named) (ht : t.cache.Named) : Describer.Named (r.sees t) := by
  intro entity name a ha
  unfold sees at ha
  split at ha
  · rcases Option.or_eq_some_iff.1 ha with h | ⟨-, h⟩
    · exact ht entity name a h
    · exact hr entity name a h
  · exact hr entity name a ha

/-- A name that has been looked up leads on to the attribute that is called so. -/
theorem exec_enter_eq_ok (hnamed : Describer.Named (r.sees t)) (hu : r.Steady (r.sees t) u)
    {name : String} (h : (r.enter w name).exec u = (.ok w', u')) :
    r.Steady (r.sees t) u' ∧ ∃ a : Attribute, a.name = name ∧ w' = w.onTo a := by
  have hdescribe : r.settings.access.allows w.entity name = true →
      Ensures (r.Steady (r.sees t)) (r.describe w.entity name) fun a? =>
        ∀ a, a? = some a → ∃ b : Attribute, b.name = name ∧ w.onTo a = w.onTo b := by
    intro hallows v hv
    refine ⟨steady_describe hv w.entity name, ?_⟩
    intro a? ha? a ha
    rw [exec_describe_fst, hv w.entity name hallows, ha] at ha?
    exact ⟨a, hnamed w.entity name a (Except.ok.inj ha?), rfl⟩
  obtain ⟨hsteady, hstep⟩ := ensures_enter_of
    (S := fun v => ∃ a : Attribute, a.name = name ∧ v = w.onTo a) hdescribe u hu
  rw [h] at hsteady hstep
  exact ⟨hsteady, hstep w' rfl⟩

/-- From the start in the trace `t`, looking up the names of the path, none of which holds a dot,
leads to the walk and to the trace `u`, and what is seen has not changed. -/
structure Spelled (r : Resolver C) (entity : String) (t : Trace) (w : Walk) (u : Trace) : Prop where
  run : ((Path.names w.path).foldlM r.enter { entity := entity }).exec t = (.ok w, u)
  undotted : ∀ name ∈ Path.names w.path, '.' ∉ name.toList
  steady : r.Steady (r.sees t) u

namespace Spelled

theorem start (r : Resolver C) (entity : String) (t : Trace) :
    r.Spelled entity t { entity := entity } t where
  run := rfl
  undotted := fun _ hname => nomatch hname
  steady := r.steady_self t

/-- One more name is one step more. -/
theorem enter (hnamed : Describer.Named (r.sees t)) (hw : r.Spelled entity t w u) {name : String}
    (hname : '.' ∉ name.toList) (h : (r.enter w name).exec u = (.ok w', u')) :
    r.Spelled entity t w' u' ∧ Path.names w'.path = Path.names w.path ++ [name] := by
  obtain ⟨hsteady, a, ha, hw'⟩ := exec_enter_eq_ok hnamed hw.steady h
  have hnames : Path.names w'.path = Path.names w.path ++ [name] := by
    rw [hw', Walk.path_onTo, Path.names_append, ← ha]
    rfl
  refine ⟨⟨?_, ?_, hsteady⟩, hnames⟩
  · rw [hnames, List.foldlM_append, exec_bind, hw.run]
    show ([name].foldlM r.enter w).exec u = _
    rw [List.foldlM_cons, exec_bind, h]
    rfl
  · intro name' hname'
    rw [hnames, List.mem_append, List.mem_singleton] at hname'
    rcases hname' with hold | rfl
    · exact hw.undotted name' hold
    · exact hname

/-- More names are as many steps more. -/
theorem enterAll (hnamed : Describer.Named (r.sees t)) (hw : r.Spelled entity t w u)
    {names : List String} (hnames : ∀ name ∈ names, '.' ∉ name.toList)
    (h : (names.foldlM r.enter w).exec u = (.ok w', u')) :
    r.Spelled entity t w' u' ∧ Path.names w'.path = Path.names w.path ++ names := by
  refine exec_foldlM_eq_ok (P := fun taken v k =>
    r.Spelled entity t v k ∧ Path.names v.path = Path.names w.path ++ taken) ?_
    ⟨hw, (List.append_nil _).symm⟩ h
  rintro taken name hname v k v' k' ⟨hv, htaken⟩ hstep
  obtain ⟨hv', hmore⟩ := hv.enter hnamed (hnames name hname) hstep
  refine ⟨hv', ?_⟩
  rw [hmore, htaken, List.append_assoc]

/-- A segment is followed by names without dots, whether it is remapped or not. -/
theorem dot_not_mem_of_mem_expand {segment name : String} (hsegment : '.' ∉ segment.toList)
    (h : name ∈ r.expand entity segment) : '.' ∉ name.toList := by
  unfold expand at h
  split at h
  · exact Text.Dotted.dot_not_mem_of_mem_parts h
  · rwa [List.mem_singleton.1 h]

theorem follow (hnamed : Describer.Named (r.sees t)) (hw : r.Spelled entity t w u)
    {segment : String} (hsegment : '.' ∉ segment.toList)
    (h : (r.follow w segment).exec u = (.ok w', u')) : r.Spelled entity t w' u' := by
  unfold Resolver.follow at h
  split at h
  · cases h
  · exact (hw.enterAll hnamed (fun name hname => dot_not_mem_of_mem_expand hsegment hname) h).1

/-- What a whole selector leads to, its names lead to. -/
theorem of_selector (hnamed : Describer.Named (r.sees t)) {selector : String}
    (h : ((Text.Dotted.parts selector).foldlM r.follow { entity := entity }).exec t = (.ok w, u)) :
    r.Spelled entity t w u :=
  exec_foldlM_eq_ok (P := fun _ v k => r.Spelled entity t v k)
    (fun _ _ hsegment _ _ _ _ hv hstep =>
      hv.follow hnamed (Text.Dotted.dot_not_mem_of_mem_parts hsegment) hstep)
    (start r entity t) h

/-- A walk with an outcome has looked up a name. -/
theorem names_ne_nil (hw : r.Spelled entity t w u) {x : List PathSegment × ValueType}
    (hx : w.outcome = some x) : Path.names w.path ≠ [] := by
  intro hnil
  have hrun := hw.run
  rw [hnil] at hrun
  cases hrun
  cases hx

/-- The selector of the path falls into the names that have been looked up. -/
theorem parts_selector (hw : r.Spelled entity t w u) {x : List PathSegment × ValueType}
    (hx : w.outcome = some x) : Text.Dotted.parts (Path.selector w.path) = Path.names w.path :=
  Text.Dotted.parts_join (hw.names_ne_nil hx) hw.undotted

end Spelled

/-! ## Remapping is abbreviation -/

/-- Remapping is abbreviation. Where attributes are described and remembered under their names, a
selector that leads to a path and a type stands for the selector of that path: under the same access
lists, but without any remappings, this one leads to the same path and type and leaves the same
trace behind, and it still leads there after anything else that has been remembered since. No other
selector leads there without remappings. -/
theorem path_abbreviates (hr : r.describer.Named) (ht : t.cache.Named) {selector : String}
    {path : List PathSegment} {type : ValueType}
    (h : ((r.path entity selector).exec t).1 = .ok (path, type)) :
    (r.unmapped.path entity (Path.selector path)).exec t = (r.path entity selector).exec t ∧
      (∀ u, r.Steady (r.sees t) u →
        ((r.unmapped.path entity (Path.selector path)).exec u).1 = .ok (path, type)) ∧
      ∀ plain, ((r.unmapped.path entity plain).exec t).1 = .ok (path, type) →
        plain = Path.selector path := by
  have hnamed : Describer.Named (r.sees t) := named_sees hr ht
  rcases hexec : (r.path entity selector).exec t with ⟨result, u⟩
  rw [hexec] at h
  cases h
  obtain ⟨w, hw, hx⟩ := exec_path_eq_ok hexec
  have hspelled : r.Spelled entity t w u := .of_selector hnamed hw
  have hsame : (r.unmapped.path entity (Path.selector path)).exec t = (.ok (path, type), u) := by
    have hparts := hspelled.parts_selector hx
    rw [← Walk.outcome_path hx] at hparts
    have hrun := hspelled.run
    rw [← Walk.outcome_path hx] at hrun
    rw [path_eq_found, follow_unmapped, hparts, exec_bind, hrun]
    dsimp only
    rw [Walk.found_eq_ok_iff.2 hx, exec_ofExcept]
  refine ⟨hsame, ?_, ?_⟩
  · intro v hv
    have hagree := fun k (hk : r.Steady (r.sees t) k) =>
      ((couples_steady r.unmapped (r.sees t)).path entity (Path.selector path) k {} hk).1
    rw [hagree v hv, ← hagree t (r.steady_self t), hsame]
  · -- without remappings, the names that are looked up are the parts of the selector
    intro plain hplain
    rcases hexec' : (r.unmapped.path entity plain).exec t with ⟨result, u'⟩
    rw [hexec'] at hplain
    cases hplain
    obtain ⟨w', hw', hx'⟩ := exec_path_eq_ok hexec'
    rw [follow_unmapped] at hw'
    obtain ⟨-, hnames⟩ := (Spelled.start r entity t).enterAll hnamed
      (fun name hname => Text.Dotted.dot_not_mem_of_mem_parts hname) hw'
    rw [Path.selector, Walk.outcome_path hx', hnames]
    exact (Text.Dotted.join_parts plain).symm

/-- People with friends, who are people, and with an address. -/
def acquaintances : Catalog :=
  (Catalog.empty.register (.ofAttributes "Person"
    [.association "friends" "Person" true, .embedded "address" "Address"])).register
      (.ofAttributes "Address" [.basic "city" .string])

/-- A buddy is a friend of a friend, and friends are remapped to friends of friends themselves; an
address has a town. -/
def acquainted : Resolver Expression :=
  ⟨{ remappings := .ofList
      [("Person", .ofList [("buddy", "friends.friends"), ("friends", "friends.friends")]),
        ("Address", .ofList [("town", "city")])] },
    acquaintances.describe?, true, Expression.builder⟩

theorem named_acquaintances : acquainted.describer.Named :=
  ((Catalog.named_empty.register _ _).register _ _).describer

/-- The way to the city of a friend of a friend. -/
def buddysCity : List PathSegment :=
  [⟨"Person", .association "friends" "Person" true⟩,
    ⟨"Person", .association "friends" "Person" true⟩, ⟨"Person", .embedded "address" "Address"⟩,
    ⟨"Address", .basic "city" .string⟩]

/-- What the selector stands for is remapped itself where remappings count. -/
theorem path_abbreviates_buddy :
    acquainted.describer.Named ∧ SchemaCache.empty.Named ∧
      ((acquainted.path "Person" "buddy.address.town").exec {}).1 = .ok (buddysCity, .string) ∧
      Path.selector buddysCity = "friends.friends.address.city" ∧
      ((acquainted.path "Person" "friends.friends.address.city").exec {}).1 ≠
        .ok (buddysCity, .string) ∧
      (acquainted.unmapped.path "Person" (Path.selector buddysCity)).exec {} =
        (acquainted.path "Person" "buddy.address.town").exec {} ∧
      ∀ plain, ((acquainted.unmapped.path "Person" plain).exec {}).1 = .ok (buddysCity, .string) →
        plain = Path.selector buddysCity := by
  have hpath : ((acquainted.path "Person" "buddy.address.town").exec {}).1 =
      .ok (buddysCity, .string) := eq_ok_of_toOption (by decide +kernel)
  have hlonger : ((acquainted.path "Person" "friends.friends.address.city").exec {}).1 ≠
      .ok (buddysCity, .string) := by
    intro h
    exact absurd (congrArg Except.toOption h) (by decide +kernel)
  obtain ⟨hsame, -, hunique⟩ :=
    path_abbreviates named_acquaintances SchemaCache.named_empty hpath
  exact ⟨named_acquaintances, SchemaCache.named_empty, hpath, by decide +kernel, hlonger, hsame,
    hunique⟩

end Resolver

end FilterQuery
