/-
# FilterQuery.Proofs.Resolve.Connected -- a path is a walk through the schema

Following a selector goes from entity to entity. The path that it leaves behind is connected
(`Connected`): the first segment belongs to the entity of the filter, each further one to the entity
to which the attribute before it leads, and each attribute is the one that is described under the
name that was looked up there.

Which names are looked up is told by `Resolver.Ahead`. A segment of the selector may stand for
several names, so there is a row of names that are still to come from the segments taken so far. It
is filled with a segment when it has run empty, and each name that is looked up leaves it. So the
invariant of following is about both folds at once, that over segments and that over the names of
one of them (`Resolver.Keeps`).

A failure is told in the same terms (`Resolver.Halts`): the walk has come so far, this name is next,
and it is not allowed there, or not described, or there is no entity any more to look it up on.
What a resolver remembers makes no difference as long as it agrees with what is described.
-/

import FilterQuery.Expression
import FilterQuery.Proofs.Resolve.Views
import Mathlib.Data.List.Chain
import Mathlib.Data.List.Forall2

namespace FilterQuery

/-! ## Where a path leads -/

namespace Path

/-- The entity that a path from the given one has reached. Behind a scalar that is its owner. -/
def reached (entity : String) (path : List PathSegment) : String :=
  match path.getLast? with
  | some p => p.attr.target?.getD p.entity
  | none => entity

/-- The type of the scalar with which a path ends, if it ends with one. -/
def scalar? (path : List PathSegment) : Option ValueType :=
  match path.getLast? with
  | some p => if p.attr.target? = none then some p.attr.comparisonType else none
  | none => none

variable {entity : String} {path : List PathSegment}

@[simp] theorem reached_append (p : PathSegment) :
    reached entity (path ++ [p]) = p.attr.target?.getD p.entity := by
  rw [reached, List.getLast?_concat]

@[simp] theorem scalar?_append (p : PathSegment) :
    scalar? (path ++ [p]) = if p.attr.target? = none then some p.attr.comparisonType else none := by
  rw [scalar?, List.getLast?_concat]

end Path

/-- The path is a walk through what is described, from the entity along the names: each attribute
belongs to the entity to which the one before it leads, and is described under the name at its
place. -/
structure Connected (view : Describer) (entity : String) (names : List String)
    (path : List PathSegment) : Prop where
  head : ∀ p ∈ path.head?, p.entity = entity
  links : path.IsChain fun p q => p.attr.target? = some q.entity
  described : List.Forall₂ (fun name p => view p.entity name = some p.attr) names path

namespace Connected

variable {view : Describer} {entity name : String} {names : List String} {path : List PathSegment}
  {a : Attribute}

theorem nil (view : Describer) (entity : String) : Connected view entity [] [] :=
  ⟨by simp, .nil, .nil⟩

/-- A walk goes on from the entity that it has reached. -/
theorem append (h : Connected view entity names path) (hopen : Path.scalar? path = none)
    (ha : view (Path.reached entity path) name = some a) :
    Connected view entity (names ++ [name]) (path ++ [⟨Path.reached entity path, a⟩]) := by
  refine ⟨?_, ?_, List.rel_append h.described (.cons ha .nil)⟩
  · cases path with
    | nil => simp [Path.reached]
    | cons p path => simpa using h.head
  · -- the last attribute so far leads to an entity, since the path is open
    refine List.isChain_append.2 ⟨h.links, .singleton _, ?_⟩
    intro p hp q hq
    cases hq
    rw [Path.scalar?, hp] at hopen
    rw [Path.reached, hp]
    cases htarget : p.attr.target? with
    | none => simp [htarget] at hopen
    | some target => simp [htarget]

/-- Only the last attribute may lead to no entity. -/
theorem target?_isSome (h : Connected view entity names path) :
    ∀ p ∈ path.dropLast, p.attr.target?.isSome = true := by
  have hlinks := h.links
  clear h
  induction hlinks with
  | nil => simp
  | singleton p => simp
  | cons_cons hlink _ ih =>
    intro p hp
    rw [List.dropLast_cons_cons] at hp
    rcases List.mem_cons.1 hp with rfl | hp
    · rw [hlink]
      rfl
    · exact ih p hp

end Connected

/-- The walk is where its path leads from the entity. -/
structure Walk.Tracks (w : Walk) (entity : String) : Prop where
  entity : w.entity = Path.reached entity w.path
  scalar : w.scalar = Path.scalar? w.path

namespace Walk

variable {w : Walk} {entity : String} {p : PathSegment}

theorem Tracks.start (entity : String) : Tracks { entity := entity } entity := ⟨rfl, rfl⟩

theorem tracks_onTo (w : Walk) (a : Attribute) (entity : String) : (w.onTo a).Tracks entity := by
  rw [onTo]
  split
  · rename_i target htarget
    exact ⟨by simp [htarget], by simp [htarget]⟩
  · rename_i htarget
    exact ⟨by simp [htarget], by simp [htarget]⟩

/-- A walk with steps has a path and a type, that of its last attribute. -/
theorem Tracks.outcome_eq (h : w.Tracks entity) (hlast : w.path.getLast? = some p) :
    w.outcome = some (w.path,
      if p.attr.target? = none then p.attr.comparisonType else p.attr.valueType) := by
  rw [outcome, h.scalar, Path.scalar?, hlast]
  by_cases htarget : p.attr.target? = none
  · simp [htarget]
  · simp [htarget]

end Walk

namespace Resolver

open Run

variable {C : Type} {r : Resolver C} {view : Describer} {entity : String}

/-! ## The names that are looked up -/

/-- When these segments have been taken, these names have been looked up, along the path, and those
of the last list are still ahead before the next segment is taken. A segment is taken for the names
for which it stands on the entity that has been reached; behind a scalar it stands for itself. -/
inductive Ahead (r : Resolver C) (entity : String) :
    List String → List String → List PathSegment → List String → Prop
  | start : Ahead r entity [] [] [] []
  | segment {taken names : List String} {path : List PathSegment} (segment : String) :
      Ahead r entity taken names path [] → Path.scalar? path = none →
        Ahead r entity (taken ++ [segment]) names path
          (r.expand (Path.reached entity path) segment)
  | behind {taken names : List String} {path : List PathSegment} (segment : String) :
      Ahead r entity taken names path [] → (Path.scalar? path).isSome = true →
        Ahead r entity (taken ++ [segment]) names path [segment]
  | name {taken names queue : List String} {name : String} {path : List PathSegment}
      (p : PathSegment) : Ahead r entity taken names path (name :: queue) →
        Ahead r entity taken (names ++ [name]) (path ++ [p]) queue

/-- Why a walk along the path does not go on to a name: it has come to a scalar, the name is not
allowed on the entity that has been reached, or it is allowed, but not described. -/
inductive Halts (r : Resolver C) (view : Describer) (entity : String) (path : List PathSegment)
    (name : String) : Failure → Prop
  | scalar : (Path.scalar? path).isSome = true →
      Halts r view entity path name (.unknownSelector (Path.reached entity path) name)
  | denied : Path.scalar? path = none →
      r.settings.access.allows (Path.reached entity path) name = false →
        Halts r view entity path name (.accessDenied (Path.reached entity path) name)
  | unknown : Path.scalar? path = none →
      r.settings.access.allows (Path.reached entity path) name = true →
        view (Path.reached entity path) name = none →
          Halts r view entity path name (.unknownSelector (Path.reached entity path) name)

/-- A segment that has been taken leaves a step or a name ahead. -/
theorem Ahead.ne_nil {taken names queue : List String} {path : List PathSegment}
    (h : r.Ahead entity taken names path queue) (htaken : taken ≠ []) (hqueue : queue = []) :
    path ≠ [] := by
  cases h with
  | start => exact absurd rfl htaken
  | segment s _ _ => exact absurd hqueue (r.expand_ne_nil _ s)
  | behind s _ _ => cases hqueue
  | name p _ => simp

/-! ## Following -/

/-- The walk is connected, along the names that have been looked up. -/
def Keeps (r : Resolver C) (view : Describer) (entity : String) (taken queue : List String)
    (w : Walk) : Prop :=
  w.Tracks entity ∧
    ∃ names, r.Ahead entity taken names w.path queue ∧ Connected view entity names w.path

/-- A walk along some of the segments is connected, and halts at its next name with this failure. -/
def Stuck (r : Resolver C) (view : Describer) (entity : String) (segments : List String)
    (f : Failure) : Prop :=
  ∃ taken names path name queue, taken <+: segments ∧
    r.Ahead entity taken names path (name :: queue) ∧ Connected view entity names path ∧
      r.Halts view entity path name f

variable {segments taken queue : List String} {name segment : String} {w : Walk}

/-- What halts a walk at its next name is how it gets stuck. -/
theorem Keeps.stuck {f : Failure} (hw : r.Keeps view entity taken (name :: queue) w)
    (htaken : taken <+: segments) (hf : r.Halts view entity w.path name f) :
    r.Stuck view entity segments f := by
  obtain ⟨-, names, hahead, hconnected⟩ := hw
  exact ⟨taken, names, w.path, name, queue, htaken, hahead, hconnected, hf⟩

/-- An attribute that is described under the next name is one step more. -/
theorem Keeps.onTo {a : Attribute} (hw : r.Keeps view entity taken (name :: queue) w)
    (hopen : Path.scalar? w.path = none) (ha : view w.entity name = some a) :
    r.Keeps view entity taken queue (w.onTo a) := by
  obtain ⟨htracks, names, hahead, hconnected⟩ := hw
  refine ⟨w.tracks_onTo a entity, names ++ [name], ?_, ?_⟩
  · rw [Walk.path_onTo]
    exact hahead.name _
  · rw [htracks.entity] at ha
    rw [Walk.path_onTo, htracks.entity]
    exact hconnected.append hopen ha

theorem ends_describe {E : Failure → Prop}
    (h : r.settings.access.allows entity name = true) :
    Ends (r.Steady view) (r.describe entity name) E (fun a? => a? = view entity name) := by
  intro t ht
  refine ⟨steady_describe ht entity name, ?_⟩
  rw [exec_describe_fst]
  exact ht entity name h

theorem ends_enter (hw : r.Keeps view entity taken (name :: queue) w)
    (htaken : taken <+: segments) :
    Ends (r.Steady view) (r.enter w name) (r.Stuck view entity segments)
      (r.Keeps view entity taken queue) := by
  have htracks := hw.1
  cases hscalar : w.scalar.isSome with
  | true =>
    rw [enter_of_scalar r hscalar, htracks.entity]
    rw [htracks.scalar] at hscalar
    exact .throw (hw.stuck htaken (.scalar hscalar))
  | false =>
    rw [enter_of_entity r hscalar]
    have hopen : Path.scalar? w.path = none := by
      rwa [htracks.scalar, Option.isSome_eq_false_iff, Option.isNone_iff_eq_none] at hscalar
    have hcheck : Meets (r.Stuck view entity segments)
        (fun _ => r.settings.access.allows w.entity name = true)
        (r.settings.access.check w.entity name) := by
      rw [AccessLists.check]
      split
      · assumption
      · rename_i hdenied
        rw [Bool.not_eq_true] at hdenied
        rw [htracks.entity] at hdenied ⊢
        exact hw.stuck htaken (.denied hopen hdenied)
    -- what is seen is the view only where the lists allow it, so the check comes first
    refine Ends.bind (.ofExcept hcheck) fun _ hallows => ?_
    refine (ends_describe hallows).bind fun a? ha => ?_
    cases a? with
    | none =>
      rw [htracks.entity] at hallows ha ⊢
      exact .throw (hw.stuck htaken (.unknown hopen hallows ha.symm))
    | some a => exact .pure (hw.onTo hopen ha.symm)

theorem ends_follow (hw : r.Keeps view entity taken [] w)
    (htaken : taken ++ [segment] <+: segments) :
    Ends (r.Steady view) (r.follow w segment) (r.Stuck view entity segments)
      (r.Keeps view entity (taken ++ [segment]) []) := by
  obtain ⟨htracks, names, hahead, hconnected⟩ := hw
  rw [follow]
  split
  · rename_i hscalar
    rw [htracks.scalar] at hscalar
    have hw' : r.Keeps view entity (taken ++ [segment]) [segment] w :=
      ⟨htracks, names, hahead.behind segment hscalar, hconnected⟩
    rw [htracks.entity]
    exact .throw (hw'.stuck htaken (.scalar hscalar))
  · rename_i hscalar
    have hopen : Path.scalar? w.path = none := by
      rwa [htracks.scalar, Option.not_isSome_iff_eq_none] at hscalar
    have hw' : r.Keeps view entity (taken ++ [segment]) (r.expand w.entity segment) w := by
      rw [htracks.entity]
      exact ⟨htracks, names, hahead.segment segment hopen, hconnected⟩
    exact Ends.foldlM (S := fun queue => r.Keeps view entity (taken ++ [segment]) queue)
      (fun name queue w hw => ends_enter hw htaken) _ w hw'

/-- Following all segments keeps the walk connected, or gets stuck at a name. -/
theorem ends_segments (r : Resolver C) (view : Describer) (entity : String)
    (segments : List String) :
    Ends (r.Steady view) (segments.foldlM r.follow { entity := entity })
      (r.Stuck view entity segments) (r.Keeps view entity segments []) := by
  have hstep : ∀ segment rest w,
      (∃ taken, taken ++ segment :: rest = segments ∧ r.Keeps view entity taken [] w) →
        Ends (r.Steady view) (r.follow w segment) (r.Stuck view entity segments) fun w' =>
          ∃ taken, taken ++ rest = segments ∧ r.Keeps view entity taken [] w' := by
    rintro segment rest w ⟨taken, hsegments, hw⟩
    rw [List.append_cons] at hsegments
    exact (ends_follow hw ⟨rest, hsegments⟩).mono fun w' hw' => ⟨_, hsegments, hw'⟩
  -- what has been taken is told by what is still to come, which is what the fold goes over
  have hstart : r.Keeps view entity [] [] { entity := entity } :=
    ⟨.start entity, [], .start, .nil view entity⟩
  refine (Ends.foldlM (S := fun rest w =>
    ∃ taken, taken ++ rest = segments ∧ r.Keeps view entity taken [] w) hstep segments _
    ⟨[], rfl, hstart⟩).mono ?_
  rintro w ⟨taken, htaken, hw⟩
  rw [List.append_nil] at htaken
  rwa [← htaken]

/-- A walk along all parts of a selector has a last step. -/
theorem Keeps.exists_last {selector : String}
    (hw : r.Keeps view entity (Text.Dotted.parts selector) [] w) :
    ∃ last, w.path.getLast? = some last := by
  obtain ⟨-, names, hahead, -⟩ := hw
  have hlast := hahead.ne_nil (Text.Dotted.parts_ne_nil selector) rfl
  exact ⟨_, List.getLast?_eq_getLast_of_ne_nil hlast⟩

/-- What is remembered is what is described. -/
def Consistent (r : Resolver C) (t : Trace) : Prop :=
  r.cached = true → ∀ entity name a,
    t.cache.table.get? (entity, name) = some a → r.describer entity name = some a

theorem Consistent.steady {t : Trace} (h : r.Consistent t) : r.Steady r.describer t := by
  intro entity name _
  rw [sees]
  split
  · rename_i hcached
    cases hget : t.cache.table.get? (entity, name) with
    | none => rfl
    | some a => rw [h hcached entity name a hget]; rfl
  · rfl

/-- A path that has been found is a walk through the schema, along the names for which the segments
of the selector stand, from the entity on; it has a step, and its type is that of the last one. A
selector whose path is not found has such a walk in front of the name at which it fails, and the
failure names the entity that this walk has reached. A selector that has been followed to its end
has a path, so there is no third outcome. -/
theorem path_connected (r : Resolver C) (t : Trace) (h : r.Consistent t)
    (entity selector : String) :
    (∀ path type, ((r.path entity selector).exec t).1 = .ok (path, type) →
      ∃ names last, r.Ahead entity (Text.Dotted.parts selector) names path [] ∧
        Connected r.describer entity names path ∧
        (∀ p ∈ path.dropLast, p.attr.target?.isSome = true) ∧ path.getLast? = some last ∧
        type = if last.attr.target? = none then last.attr.comparisonType
          else last.attr.valueType) ∧
      (∀ f, ((r.path entity selector).exec t).1 = .error f →
        ∃ taken names path name queue, taken <+: Text.Dotted.parts selector ∧
          r.Ahead entity taken names path (name :: queue) ∧
          Connected r.describer entity names path ∧ r.Halts r.describer entity path name f) ∧
      ∀ w u, ((Text.Dotted.parts selector).foldlM r.follow { entity := entity }).exec t =
        (.ok w, u) → w.outcome.isSome = true := by
  obtain ⟨-, hmeets⟩ := ends_segments r r.describer entity (Text.Dotted.parts selector) t h.steady
  obtain ⟨hstuck, hkeeps⟩ := meets_iff.1 hmeets
  rw [path_eq, exec_bind]
  rcases hexec : ((Text.Dotted.parts selector).foldlM r.follow { entity := entity }).exec t with
    ⟨f | w, u⟩ <;> rw [hexec] at hstuck hkeeps
  · refine ⟨?_, ?_, ?_⟩
    · intro path type hok
      cases hok
    · intro g hg
      cases hg
      exact hstuck f rfl
    · intro w v hw
      cases hw
  · have hw := hkeeps w rfl
    obtain ⟨last, hlast⟩ := hw.exists_last
    have houtcome := hw.1.outcome_eq hlast
    dsimp only
    rw [houtcome]
    refine ⟨?_, ?_, ?_⟩
    · intro path type hok
      cases hok
      obtain ⟨-, names, hahead, hconnected⟩ := hw
      exact ⟨names, last, hahead, hconnected, hconnected.target?_isSome, hlast, rfl⟩
    · intro f hf
      cases hf
    · intro w' v hw'
      cases hw'
      rw [houtcome]
      rfl

/-- People have a home, which is an address, and addresses a city; a town is the city of the
home. -/
def homes : Resolver Expression :=
  ⟨{ remappings := .ofList [("Person", .ofList [("town", "home.city")])] },
    fun entity name =>
      if entity = "Person" ∧ name = "home" then some (.embedded "home" "Address")
      else if entity = "Address" ∧ name = "city" then some (.basic "city" .string)
      else none,
    true, Expression.builder⟩

/-- The home is remembered. -/
def remembered : Trace :=
  { cache := ⟨.ofList [(("Person", "home"), .embedded "home" "Address")]⟩ }

theorem consistent_remembered : homes.Consistent remembered := by
  intro _ entity name a ha
  simp only [remembered, Table.ofList, List.foldl_cons, List.foldl_nil, Table.get?_put] at ha
  split at ha
  · rename_i hkey
    cases hkey
    cases ha
    rfl
  · cases ha

/-- A segment that stands for two names, and another one behind the scalar to which they lead. -/
theorem path_connected_homes :
    homes.Consistent remembered ∧
      (∃ names, Connected homes.describer "Person" names
        [⟨"Person", .embedded "home" "Address"⟩, ⟨"Address", .basic "city" .string⟩]) ∧
      ∃ f, ((homes.path "Person" "town.zip").exec remembered).1 = .error f ∧
        ∃ path name, homes.Halts homes.describer "Person" path name f := by
  have hconsistent := consistent_remembered
  obtain ⟨hok, -, -⟩ := path_connected homes remembered hconsistent "Person" "town"
  obtain ⟨-, herror, -⟩ := path_connected homes remembered hconsistent "Person" "town.zip"
  have htown : ((homes.path "Person" "town").exec remembered).1.toOption =
      some ([⟨"Person", .embedded "home" "Address"⟩, ⟨"Address", .basic "city" .string⟩],
        .string) := by decide +kernel
  have hzip : ((homes.path "Person" "town.zip").exec remembered).1.isOk = false := by
    decide +kernel
  refine ⟨hconsistent, ?_, ?_⟩
  · rcases hexec : ((homes.path "Person" "town").exec remembered).1 with f | x
    · rw [hexec] at htown
      cases htown
    · rw [hexec] at htown
      cases htown
      obtain ⟨names, -, -, hconnected, -⟩ := hok _ _ hexec
      exact ⟨names, hconnected⟩
  · rcases hexec : ((homes.path "Person" "town.zip").exec remembered).1 with f | x
    · obtain ⟨-, -, path, name, -, -, -, -, hhalts⟩ := herror f hexec
      exact ⟨f, rfl, path, name, hhalts⟩
    · rw [hexec] at hzip
      cases hzip

end Resolver

end FilterQuery
