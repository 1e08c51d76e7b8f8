/-
# FilterQuery.Proofs.Session.Access -- no way around the access lists

What the access lists of a session hold is decided by its history: the calls that have listed
attributes of an entity and have not been taken back since (`Standing`). `Tracks` states this of
both kinds of lists, next to the naming of attributes in the catalog and in the cache, and is kept
by every step. So whatever a step hands over, its path is allowed by what the history says, for
each attribute on the entity that owns it.
-/

import FilterQuery.Expression
import FilterQuery.Proofs.Histories
import FilterQuery.Proofs.Resolve.Access
import FilterQuery.Proofs.Session.Steps

namespace FilterQuery.Session

variable {C : Type}

/-! ## Calls that stand -/

/-- The history has listed these names and has not cleared the list since. -/
def Standing (list : List String → Step C) (clear : Step C) (history : List (Step C))
    (names : List String) : Prop :=
  ∃ before after, history = before ++ list names :: after ∧ clear ∉ after

/-- A whitelist call for an entity that stands. -/
def Whitelisting (history : List (Step C)) (entity : String) (names : List String) : Prop :=
  Standing (fun names => .change (.whitelist entity names)) (.change (.clearWhitelist entity))
    history names

/-- A blacklist call for an entity that stands. -/
def Blacklisting (history : List (Step C)) (entity : String) (names : List String) : Prop :=
  Standing (fun names => .change (.blacklist entity names)) (.change (.clearBlacklist entity))
    history names

variable {list : List String → Step C} {clear : Step C} {history : List (Step C)}

theorem not_standing_nil (names : List String) : ¬ Standing list clear [] names := by
  rintro ⟨before, after, h, -⟩
  cases before <;> cases h

/-- A call stands after a step if it is that step, or stood before and is not cleared by it. -/
theorem standing_concat (step : Step C) (names : List String) :
    Standing list clear (history ++ [step]) names ↔
      step = list names ∨ step ≠ clear ∧ Standing list clear history names := by
  constructor
  · rintro ⟨before, after, h, hclear⟩
    rcases concat_eq_append_cons_iff.1 h with ⟨-, hstep, -⟩ | ⟨init, rfl, hhistory⟩
    · exact .inl hstep
    · simp only [List.mem_append, List.mem_singleton, not_or] at hclear
      exact .inr ⟨Ne.symm hclear.2, before, init, hhistory, hclear.1⟩
  · rintro (rfl | ⟨hne, before, after, rfl, hclear⟩)
    · exact ⟨history, [], rfl, List.not_mem_nil⟩
    · refine ⟨before, after ++ [step], by simp, ?_⟩
      simp only [List.mem_append, List.mem_singleton, not_or]
      exact ⟨hclear, Ne.symm hne⟩

/-! ## Lists record the calls that stand -/

/-- What a step does to lists of one kind: a listing call extends a list, a clearing call takes it
away, and anything else leaves all as they are. -/
inductive ListEffect (list : String → List String → Step C) (clear : String → Step C)
    (lists : Table String (List String)) : Step C → Table String (List String) → Prop
  | extend (entity : String) (names : List String) :
      ListEffect list clear lists (list entity names) (AccessLists.extend lists entity names)
  | erase (entity : String) : ListEffect list clear lists (clear entity) (lists.erase entity)
  | keep {step : Step C} : (∀ entity names, step ≠ list entity names) →
      (∀ entity, step ≠ clear entity) → ListEffect list clear lists step lists

/-- The lists hold what the calls list, and an entity has a list if there is a call for it. -/
def Records (lists : Table String (List String)) (calls : String → List String → Prop) : Prop :=
  ∀ entity, match lists.get? entity with
    | none => ∀ names, ¬ calls entity names
    | some listed => (∃ names, calls entity names) ∧
        ∀ name, name ∈ listed ↔ ∃ names, calls entity names ∧ name ∈ names

namespace Records

variable {lists : Table String (List String)} {calls calls' : String → List String → Prop}

theorem of_none (h : Records lists calls) {entity : String} (hnone : lists.get? entity = none)
    (names : List String) : ¬ calls entity names := by
  have hentity := h entity
  rw [hnone] at hentity
  exact hentity names

theorem of_some (h : Records lists calls) {entity : String} {listed : List String}
    (hsome : lists.get? entity = some listed) : (∃ names, calls entity names) ∧
      ∀ name, name ∈ listed ↔ ∃ names, calls entity names ∧ name ∈ names := by
  have hentity := h entity
  rw [hsome] at hentity
  exact hentity

theorem congr (h : Records lists calls)
    (hcalls : ∀ entity names, calls' entity names ↔ calls entity names) :
    Records lists calls' := by
  intro entity
  have hentity := h entity
  simp only [hcalls]
  exact hentity

/-- Listing more names records one more call. -/
theorem extend (h : Records lists calls) {entity : String} {names : List String}
    (hcalls : ∀ entity' names', calls' entity' names' ↔
      (entity = entity' ∧ names = names') ∨ calls entity' names') :
    Records (AccessLists.extend lists entity names) calls' := by
  intro entity'
  rw [AccessLists.extend, Table.alter, Table.get?_put]
  by_cases he : entity' = entity
  · subst he
    rw [if_pos rfl]
    refine ⟨⟨names, (hcalls _ _).2 (.inl ⟨rfl, rfl⟩)⟩, ?_⟩
    intro name
    -- the names of the calls before are those of the list before, also where there is none
    have hbefore : name ∈ (lists.get? entity').getD [] ↔
        ∃ names, calls entity' names ∧ name ∈ names := by
      cases hl : lists.get? entity' with
      | none => simp [h.of_none hl]
      | some listed => exact (h.of_some hl).2 name
    simp only [List.mem_append, hbefore, hcalls, true_and]
    constructor
    · rintro (⟨names', hc, hn⟩ | hn)
      · exact ⟨names', .inr hc, hn⟩
      · exact ⟨names, .inl rfl, hn⟩
    · rintro ⟨names', rfl | hc, hn⟩
      · exact .inr hn
      · exact .inl ⟨names', hc, hn⟩
  · rw [if_neg he]
    have hentity := h entity'
    simp only [hcalls, Ne.symm he, false_and, false_or]
    exact hentity

/-- Clearing the list of an entity takes its calls back. -/
theorem erase (h : Records lists calls) {entity : String}
    (hcalls : ∀ entity' names', calls' entity' names' ↔ entity ≠ entity' ∧ calls entity' names') :
    Records (lists.erase entity) calls' := by
  intro entity'
  rw [Table.get?_erase]
  by_cases he : entity' = entity
  · subst he
    rw [if_pos rfl]
    intro names hc
    exact ((hcalls _ _).1 hc).1 rfl
  · rw [if_neg he]
    have hentity := h entity'
    simp only [hcalls, ne_eq, Ne.symm he, not_false_eq_true, true_and]
    exact hentity

/-- Lists that a step treats as its call says record the calls that stand after it. -/
theorem concat {list : String → List String → Step C} {clear : String → Step C}
    {lists' : Table String (List String)} {step : Step C}
    (hlist : ∀ entity names entity' names',
      list entity names = list entity' names' ↔ entity = entity' ∧ names = names')
    (hclear : ∀ entity entity', clear entity = clear entity' ↔ entity = entity')
    (hne : ∀ entity names entity', list entity names ≠ clear entity')
    (h : Records lists fun entity => Standing (list entity) (clear entity) history)
    (he : ListEffect list clear lists step lists') :
    Records lists' fun entity => Standing (list entity) (clear entity) (history ++ [step]) := by
  cases he with
  | extend entity names =>
    refine h.extend fun entity' names' => ?_
    rw [standing_concat, hlist]
    simp [hne]
  | erase entity =>
    refine h.erase fun entity' names' => ?_
    rw [standing_concat, ne_eq, hclear]
    simp [Ne.symm (hne entity' names' entity)]
  | keep hother hkeep =>
    refine h.congr fun entity' names' => ?_
    rw [standing_concat]
    simp [hother, hkeep]

end Records

/-! ## What a step does to the lists -/

/-- What a change does to the access lists. -/
def onAccess (l : AccessLists) : Settings.Change C → AccessLists
  | .whitelist entity names => l.whitelist entity names
  | .blacklist entity names => l.blacklist entity names
  | .clearWhitelist entity => l.clearWhitelist entity
  | .clearBlacklist entity => l.clearBlacklist entity
  | _ => l

theorem access_file (s : Settings C) (o : Operator) (t : Option ValueType)
    (p : Option (CustomPredicate C)) : (s.file o t p).access = s.access := by
  rw [Settings.file, Settings.ensureOperator]
  split <;> rfl

theorem access_apply {s s' : Settings C} {c : Settings.Change C} (h : s.apply c = .ok s') :
    s'.access = onAccess s.access c := by
  cases c with
  | predicate p =>
    cases h
    exact access_file s _ _ _
  | foreignPredicate o t =>
    cases h
    exact access_file s _ _ _
  | maxDepth n =>
    rw [Settings.apply, Settings.change] at h
    split at h
    · cases h
    · cases h
      rfl
  | _ =>
    cases h
    rfl

/-- A step that does not change the settings leaves the access lists as they are. -/
theorem access_after (s : Session C) (step : Step C) :
    (s.after step).settings.access =
      match step with
      | .change c => onAccess s.settings.access c
      | _ => s.settings.access := by
  cases step with
  | change c =>
    show (s.change c).2.settings.access = _
    rw [change]
    split
    · rename_i answer settings h
      have happly : s.settings.apply c = .ok settings := by
        rw [Settings.apply, h]
        rfl
      exact access_apply happly
    · rename_i f h
      -- only a limit of zero is refused
      cases c with
      | maxDepth n => rfl
      | _ => cases h
  | compile text entity =>
    cases h : s.parse text with
    | ok n =>
      rw [(compile_of_ok h).1]
      rfl
    | error f => rw [(compile_of_error h).1]
  | _ => rfl

theorem whitelists_effect (s : Session C) (step : Step C) :
    ListEffect (fun entity names => .change (.whitelist entity names))
      (fun entity => .change (.clearWhitelist entity)) s.settings.access.whitelists step
      (s.after step).settings.access.whitelists := by
  rw [access_after]
  cases step with
  | change c =>
    cases c with
    | whitelist entity names => exact .extend entity names
    | clearWhitelist entity => exact .erase entity
    | _ => exact .keep (by simp) (by simp)
  | _ => exact .keep (by simp) (by simp)

theorem blacklists_effect (s : Session C) (step : Step C) :
    ListEffect (fun entity names => .change (.blacklist entity names))
      (fun entity => .change (.clearBlacklist entity)) s.settings.access.blacklists step
      (s.after step).settings.access.blacklists := by
  rw [access_after]
  cases step with
  | change c =>
    cases c with
    | blacklist entity names => exact .extend entity names
    | clearBlacklist entity => exact .erase entity
    | _ => exact .keep (by simp) (by simp)
  | _ => exact .keep (by simp) (by simp)

/-! ## The invariant of a run -/

/-- The lists of the session record the calls of the history that stand, and its attributes are
found under their names. -/
structure Tracks (history : List (Step C)) (s : Session C) : Prop where
  whitelists : Records s.settings.access.whitelists (Whitelisting history)
  blacklists : Records s.settings.access.blacklists (Blacklisting history)
  catalog : s.catalog.Named
  cache : s.cache.Named

namespace Tracks

variable {s : Session C}

theorem trace_respects {α : Type} {l : AccessLists} {run : Run α} {Q : α → Prop}
    (hcache : s.cache.Named) (hrun : Run.Ensures (Trace.Respects l) run Q) :
    (s.trace run).Respects l := by
  have hstart : Trace.Respects l { cache := s.cache } := ⟨hcache, fun c hc => nomatch hc⟩
  exact (hrun _ hstart).1

theorem named_catalog (h : s.catalog.Named) (step : Step C) : (s.after step).catalog.Named := by
  rw [catalog_after]
  cases step with
  | register entity attributes => exact h.register entity attributes
  | unregister entity => exact h.unregister entity
  | _ => exact h

theorem named_cache (hcatalog : s.catalog.Named) (hcache : s.cache.Named) (step : Step C) :
    (s.after step).cache.Named := by
  intro entity name a h
  rcases (remembered_after h).2 with hbefore | hsaid
  · exact hcache entity name a hbefore
  · exact (named_catalog hcatalog step).describer entity name a hsaid

theorem resolving_respects (hcatalog : s.catalog.Named) (hcache : s.cache.Named) (n : Node)
    (entity : String) : (s.resolving n entity).Respects s.settings.access :=
  trace_respects hcache
    (Resolver.ensures_resolve (r := s.resolver s.settings.cacheEnabled) hcatalog.describer n entity)

theorem asking_respects (hcatalog : s.catalog.Named) (hcache : s.cache.Named) (cached : Bool)
    (entity selector : String) :
    (s.trace ((s.resolver cached).path entity selector)).Respects s.settings.access :=
  trace_respects hcache
    (Resolver.ensures_path (r := s.resolver cached) hcatalog.describer entity selector)

/-- What a step hands over is allowed by the lists of the session before it. -/
theorem allowed_handed (hcatalog : s.catalog.Named) (hcache : s.cache.Named) (step : Step C) :
    ∀ c ∈ s.handed step, s.settings.access.AllowsPath c.leaf.path := by
  intro c hc
  cases step with
  | path entity selector cached =>
    exact (asking_respects hcatalog hcache cached entity selector).allowed c hc
  | resolve n entity => exact (resolving_respects hcatalog hcache n entity).allowed c hc
  | compile text entity =>
    cases hp : s.parse text with
    | ok n =>
      rw [(compile_of_ok hp).2] at hc
      exact (resolving_respects hcatalog hcache n entity).allowed c hc
    | error f =>
      rw [(compile_of_error hp).2] at hc
      cases hc
  | _ => cases hc

/-- Every step keeps the invariant. -/
theorem concat (h : Tracks history s) (step : Step C) :
    Tracks (history ++ [step]) (s.after step) where
  whitelists := Records.concat (by simp) (by simp) (by simp) h.whitelists (whitelists_effect s step)
  blacklists := Records.concat (by simp) (by simp) (by simp) h.blacklists (blacklists_effect s step)
  catalog := named_catalog h.catalog step
  cache := named_cache h.catalog h.cache step

/-- Every run keeps the invariant. -/
theorem append (steps : List (Step C)) : ∀ {history : List (Step C)} {s : Session C},
    Tracks history s → Tracks (history ++ steps) (s.run steps) := by
  induction steps with
  | nil =>
    intro history s h
    rwa [List.append_nil]
  | cons step steps ih =>
    intro history s h
    have hrest := ih (h.concat step)
    rwa [List.append_assoc] at hrest

/-- A session starts without calls. -/
theorem start (builder : ConditionBuilder C) {settings : Settings C} (h : settings.access = {}) :
    Tracks [] { builder, settings } where
  whitelists := by
    rw [h]
    exact fun entity names => not_standing_nil names
  blacklists := by
    rw [h]
    exact fun entity names => not_standing_nil names
  catalog := Catalog.named_empty
  cache := SchemaCache.named_empty

/-- What the lists allow, by the calls that stand. -/
theorem allows_iff (h : Tracks history s) (entity name : String) :
    s.settings.access.allows entity name = true ↔
      ((∃ names, Whitelisting history entity names) →
          ∃ names, Whitelisting history entity names ∧ name ∈ names) ∧
        ∀ names, Blacklisting history entity names → name ∉ names := by
  rw [AccessLists.allows, Bool.and_eq_true]
  refine and_congr ?_ ?_
  · cases hl : s.settings.access.whitelists.get? entity with
    | none => simp [h.whitelists.of_none hl]
    | some listed =>
      obtain ⟨hany, hlisted⟩ := h.whitelists.of_some hl
      simp [hany, hlisted]
  · cases hl : s.settings.access.blacklists.get? entity with
    | none => simp [h.blacklists.of_none hl]
    | some listed =>
      obtain ⟨-, hlisted⟩ := h.blacklists.of_some hl
      simp [hlisted]

end Tracks

/-! ## No way around the lists -/

/-- However a session is configured and used, every leaf that a step hands over, to the builder of
the session or to a custom predicate, has a path of which each attribute is in no standing
blacklist call for the entity that owns it, and in a standing whitelist call for that entity if
there is one. -/
theorem allowed_of_handed (builder : ConditionBuilder C) (settings : Settings C)
    (hstart : settings.access = {}) (history : List (Step C)) (step : Step C) :
    ∀ c ∈ (run { builder, settings } history).handed step, ∀ p ∈ c.leaf.path,
      (∀ names, Blacklisting history p.entity names → p.attr.name ∉ names) ∧
        ((∃ names, Whitelisting history p.entity names) →
          ∃ names, Whitelisting history p.entity names ∧ p.attr.name ∈ names) := by
  intro c hc p hp
  have htracks : Tracks history (run { builder, settings } history) :=
    (Tracks.start builder hstart).append history
  have hallowed := Tracks.allowed_handed htracks.catalog htracks.cache step c hc p hp
  obtain ⟨hwhite, hblack⟩ := (htracks.allows_iff p.entity p.attr.name).1 hallowed
  exact ⟨hblack, hwhite⟩

/-- A selector that stands for a path through a value object, with lists on both entities. -/
def remapped : List (Step Expression) :=
  [.register "Person" [.embedded "address" "Address", .basic "name" .string],
    .register "Address" [.basic "city" .string, .basic "zip" .string],
    .change (.remap "Person" "zip" "address.zip"),
    .change (.whitelist "Address" ["zip"]),
    .change (.blacklist "Person" ["name"])]

theorem allowed_of_handed_remapped :
    ((run { builder := Expression.builder } remapped).handed
        (.resolve (.comparison ⟨⟨"==", [], false⟩, "zip", ["0150"]⟩) "Person")).map
          (·.leaf.attributePath) = ["address.zip"] ∧
      ∀ c ∈ (run { builder := Expression.builder } remapped).handed
          (.resolve (.comparison ⟨⟨"==", [], false⟩, "zip", ["0150"]⟩) "Person"),
        ∀ p ∈ c.leaf.path,
          (∀ names, Blacklisting remapped p.entity names → p.attr.name ∉ names) ∧
            ((∃ names, Whitelisting remapped p.entity names) →
              ∃ names, Whitelisting remapped p.entity names ∧ p.attr.name ∈ names) :=
  ⟨by decide +kernel, allowed_of_handed Expression.builder {} rfl remapped _⟩

end FilterQuery.Session
