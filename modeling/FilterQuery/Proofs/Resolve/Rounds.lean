/-
# FilterQuery.Proofs.Resolve.Rounds -- following a selector takes so many rounds

Following a selector can be told as a loop over a queue. It starts with the segments of the
selector, each of which may stand for a path (`Pursuit.start`). A round takes the first segment of
the queue; if that stands for a path, the first part of the path is looked up and the other parts go
to the front of the queue, to be taken as they are (`Resolver.round`). The loop comes to the same as
following (`Loops.exec_pursue`), since one round is what following does first (`pursue_eq_round`).

The queue may grow while it is consumed, and the entities may lead back to where the walk has been,
so neither of them says that the loop ends. What a round lowers is the cost of the queue
(`Pursuit.cost`): a segment that is taken as it is costs one round, and one that may stand for a
path as many as the longest path has parts that anything stands for (`Settings.longestTarget`). And
each round that does not fail adds one step to the path.
-/

import FilterQuery.Expression
import FilterQuery.Proofs.Resolve.Lifting
import FilterQuery.Proofs.Table.Entries
import Mathlib.Data.List.MinMax

namespace FilterQuery

/-! ## The longest path that anything stands for -/

namespace Settings

variable {C : Type} {s : Settings C}

/-- The paths that stand for selectors. -/
def targets (s : Settings C) : List String := s.remappings.values.flatMap Table.values

/-- The greatest number of parts of a path that stands for a selector, at least one. -/
def longestTarget (s : Settings C) : Nat :=
  max 1 ((s.targets.map fun target => (Text.Dotted.parts target).length).foldr max 0)

theorem mem_targets {entity selector target : String}
    (h : s.remapping? entity selector = some target) : target ∈ s.targets := by
  obtain ⟨table, htable, htarget⟩ := Option.bind_eq_some_iff.1 h
  have hentity : (entity, table) ∈ s.remappings.entries := Table.mem_of_valueAt htable
  have hselector : (selector, target) ∈ table.entries := Table.mem_of_valueAt htarget
  exact List.mem_flatMap.2
    ⟨table, List.mem_map_of_mem hentity, List.mem_map_of_mem hselector⟩

theorem one_le_longestTarget (s : Settings C) : 1 ≤ s.longestTarget := le_max_left _ _

theorem length_le_longestTarget {target : String} (h : target ∈ s.targets) :
    (Text.Dotted.parts target).length ≤ s.longestTarget :=
  le_max_of_le_right (List.le_max_of_le' 0 (List.mem_map_of_mem h) le_rfl)

end Settings

/-! ## The loop -/

/-- A walk and the segments that it is still to follow, each with whether it may stand for a
path. -/
structure Pursuit where
  walk : Walk
  queue : List (String × Bool)

namespace Pursuit

/-- The start at an entity, with all segments of a selector to come. -/
def start (entity selector : String) : Pursuit :=
  ⟨{ entity := entity }, (Text.Dotted.parts selector).map fun segment => (segment, true)⟩

/-- The number of rounds that a queue can take, if no segment stands for more than `m` names. -/
def cost (m : Nat) : List (String × Bool) → Nat
  | [] => 0
  | s :: rest => (if s.2 then m else 1) + cost m rest

variable (m : Nat)

theorem cost_append (queue queue' : List (String × Bool)) :
    cost m (queue ++ queue') = cost m queue + cost m queue' := by
  induction queue with
  | nil => simp [cost]
  | cons s rest ih =>
    rw [List.cons_append, cost, cost, ih]
    omega

/-- Names that are taken as they are cost a round each. -/
theorem cost_names (names : List String) :
    cost m (names.map fun name => (name, false)) = names.length := by
  induction names with
  | nil => rfl
  | cons name names ih =>
    rw [List.map_cons, cost, ih, List.length_cons]
    simp [Nat.add_comm]

theorem cost_start (entity selector : String) :
    cost m (start entity selector).queue = (Text.Dotted.parts selector).length * m := by
  unfold start
  induction Text.Dotted.parts selector with
  | nil => simp [cost]
  | cons segment segments ih =>
    rw [List.map_cons, cost, ih, List.length_cons, Nat.succ_mul]
    simp [Nat.add_comm]

end Pursuit

namespace Resolver

open Run

variable {C : Type} {r : Resolver C} {entity : String} {t u : Trace} {w : Walk} {p q : Pursuit}

/-- The names for which a segment of the queue is taken on an entity. -/
def stands (r : Resolver C) (entity : String) (s : String × Bool) : List String :=
  if s.2 then r.expand entity s.1 else [s.1]

/-- One round of the loop. The first of the names for which the segment is taken is looked up. The
others come to the front of the queue. -/
def round (r : Resolver C) (p : Pursuit) : Run Pursuit :=
  match p.queue with
  | [] => pure p
  | s :: rest =>
    if p.walk.scalar.isSome then throw (.unknownSelector p.walk.entity s.1)
    else do
      let names := r.stands p.walk.entity s
      let w ← r.enter p.walk (names.headD s.1)
      return ⟨w, (names.tail.map fun name => (name, false)) ++ rest⟩

/-- From the pursuit and the trace `t`, the loop ends after `n` rounds with this result and with the
trace `u`. The round that fails counts. -/
inductive Loops (r : Resolver C) :
    Pursuit → Trace → Nat → Except Failure Walk → Trace → Prop
  | done (w : Walk) (t : Trace) : Loops r ⟨w, []⟩ t 0 (.ok w) t
  | fails {p : Pursuit} {t u : Trace} {f : Failure} : p.queue ≠ [] →
      (r.round p).exec t = (.error f, u) → Loops r p t 1 (.error f) u
  | next {p q : Pursuit} {t v u : Trace} {n : Nat} {x : Except Failure Walk} : p.queue ≠ [] →
      (r.round p).exec t = (.ok q, v) → Loops r q v n x u → Loops r p t (n + 1) x u

/-! ## What one round does -/

theorem stands_ne_nil (r : Resolver C) (entity : String) (s : String × Bool) :
    r.stands entity s ≠ [] := by
  unfold stands
  split
  · exact r.expand_ne_nil entity s.1
  · simp

/-- A segment costs a round for each of its names, at the least. -/
theorem length_stands_le (r : Resolver C) (entity : String) (s : String × Bool) :
    (r.stands entity s).length ≤ if s.2 then r.settings.longestTarget else 1 := by
  unfold stands expand
  split
  · split
    · rename_i target htarget
      exact Settings.length_le_longestTarget (Settings.mem_targets htarget)
    · exact r.settings.one_le_longestTarget
  · exact le_rfl

/-- Looking a name up adds one step to the path. -/
theorem length_path_of_enter {name : String} {w' : Walk}
    (h : (r.enter w name).exec t = (.ok w', u)) : w'.path.length = w.path.length + 1 := by
  have henter : Ensures (fun _ => True) (r.enter w name)
      fun v => v.path.length = w.path.length + 1 := by
    refine ensures_enter_of fun _ => ?_
    intro k hk
    refine ⟨trivial, ?_⟩
    intro a? _ a _
    simp
  refine (henter t trivial).2 w' ?_
  rw [h]

/-- A round that does not fail adds one step to the path and lowers the cost of the queue. -/
theorem round_lowers (hqueue : p.queue ≠ []) (h : (r.round p).exec t = (.ok q, u)) :
    q.walk.path.length = p.walk.path.length + 1 ∧
      Pursuit.cost r.settings.longestTarget q.queue + 1 ≤
        Pursuit.cost r.settings.longestTarget p.queue := by
  obtain ⟨w, queue⟩ := p
  cases queue with
  | nil => exact absurd rfl hqueue
  | cons s rest =>
    unfold round at h
    dsimp only at h
    split at h
    · cases h
    · obtain ⟨w', v, henter, h⟩ := exec_bind_eq_ok h
      cases h
      refine ⟨length_path_of_enter henter, ?_⟩
      have hne : 0 < (r.stands w.entity s).length :=
        List.length_pos_iff.2 (r.stands_ne_nil w.entity s)
      have hle := r.length_stands_le w.entity s
      rw [Pursuit.cost_append, Pursuit.cost_names, List.length_tail, Pursuit.cost]
      omega

/-! ## The loop is following -/

/-- Follows a segment of the queue, or looks it up as it is. -/
def take (r : Resolver C) (w : Walk) (s : String × Bool) : Run Walk :=
  if s.2 then r.follow w s.1 else r.enter w s.1

/-- Follows all that is in the queue. -/
def pursue (r : Resolver C) (p : Pursuit) : Run Walk := p.queue.foldlM r.take p.walk

theorem take_of_scalar (h : w.scalar.isSome = true) (s : String × Bool) :
    r.take w s = throw (.unknownSelector w.entity s.1) := by
  unfold take
  split
  · rw [follow, if_pos h]
  · exact enter_of_scalar r h s.1

theorem take_of_entity (h : w.scalar.isSome = false) (s : String × Bool) :
    r.take w s = (r.stands w.entity s).foldlM r.enter w := by
  unfold take stands
  split
  · rw [follow, if_neg (by simp [h])]
  · rw [List.foldlM_cons]
    exact (bind_pure _).symm

theorem pursue_start (r : Resolver C) (entity selector : String) :
    r.pursue (.start entity selector) =
      (Text.Dotted.parts selector).foldlM r.follow { entity := entity } := by
  rw [pursue, Pursuit.start, List.foldlM_map]
  rfl

/-- What is in the queue is followed by one round, and then by following what is in the queue. -/
theorem pursue_eq_round (hqueue : p.queue ≠ []) : r.pursue p = r.round p >>= r.pursue := by
  obtain ⟨w, queue⟩ := p
  cases queue with
  | nil => exact absurd rfl hqueue
  | cons s rest =>
    rw [pursue, round, List.foldlM_cons]
    dsimp only
    by_cases hscalar : w.scalar.isSome = true
    · rw [if_pos hscalar, take_of_scalar hscalar]
      rfl
    · rw [if_neg hscalar, take_of_entity (by simpa using hscalar)]
      obtain ⟨name, more, hnames⟩ := List.exists_cons_of_ne_nil (r.stands_ne_nil w.entity s)
      -- the names behind the first are looked up after it, before the rest of the queue
      rw [hnames, List.foldlM_cons, bind_assoc, bind_assoc]
      refine bind_congr fun w' => ?_
      rw [pure_bind, pursue, List.foldlM_append, List.tail_cons, List.foldlM_map]
      rfl

namespace Loops

variable {n : Nat} {x : Except Failure Walk}

/-- The loop comes to what following the queue comes to. -/
theorem exec_pursue (h : r.Loops p t n x u) : (r.pursue p).exec t = (x, u) := by
  induction h with
  | done w t => rfl
  | fails hqueue hround => rw [pursue_eq_round hqueue, exec_bind, hround]
  | next hqueue hround _ ih =>
    rw [pursue_eq_round hqueue, exec_bind, hround]
    exact ih

/-- There are no more rounds than the queue can take. -/
theorem le_cost (h : r.Loops p t n x u) : n ≤ Pursuit.cost r.settings.longestTarget p.queue := by
  induction h with
  | done w t => exact Nat.zero_le _
  | @fails p t u f hqueue hround =>
    obtain ⟨s, rest, hcons⟩ := List.exists_cons_of_ne_nil hqueue
    have hone := r.settings.one_le_longestTarget
    rw [hcons, Pursuit.cost]
    split <;> omega
  | next hqueue hround _ ih =>
    have hlower := (round_lowers hqueue hround).2
    omega

/-- The path grows by one step in each round. -/
theorem length_path (h : r.Loops p t n x u) :
    ∀ w, x = .ok w → w.path.length = p.walk.path.length + n := by
  induction h with
  | done w t =>
    intro w' hw'
    cases hw'
    rfl
  | fails hqueue hround =>
    intro w hw
    cases hw
  | next hqueue hround _ ih =>
    intro w hw
    have hstep := (round_lowers hqueue hround).1
    have hrest := ih w hw
    omega

end Loops

/-- The loop ends from every pursuit, since each round lowers what the queue can take. -/
theorem exists_loops (r : Resolver C) (p : Pursuit) (t : Trace) :
    ∃ n x u, r.Loops p t n x u := by
  induction hcost : Pursuit.cost r.settings.longestTarget p.queue using
    Nat.strong_induction_on generalizing p t with
  | _ m ih =>
    by_cases hqueue : p.queue = []
    · obtain ⟨w, queue⟩ := p
      cases hqueue
      exact ⟨0, .ok w, t, .done w t⟩
    · rcases hround : (r.round p).exec t with ⟨f | q, v⟩
      · exact ⟨1, .error f, v, .fails hqueue hround⟩
      · have hlower := (round_lowers hqueue hround).2
        obtain ⟨n, x, u, hrest⟩ := ih _ (by omega) q v rfl
        exact ⟨n + 1, x, u, .next hqueue hround hrest⟩

/-- Whatever the remappings and the schema are, also where they lead back to themselves, the loop
that follows a selector ends. It takes no more rounds than the selector has segments times the
greatest number of parts of a path that stands for a selector. The path is what the loop comes to,
and it has one step for each round. -/
theorem rounds_of_path (r : Resolver C) (t : Trace) (entity selector : String) :
    (∃ n x u, r.Loops (.start entity selector) t n x u) ∧
      ∀ n x u, r.Loops (.start entity selector) t n x u →
        n ≤ (Text.Dotted.parts selector).length * r.settings.longestTarget ∧
        (r.path entity selector).exec t = (x >>= fun w => w.found entity selector, u) ∧
        ∀ path type, ((r.path entity selector).exec t).1 = .ok (path, type) → path.length = n := by
  refine ⟨r.exists_loops _ t, ?_⟩
  intro n x u h
  have hpursue : ((Text.Dotted.parts selector).foldlM r.follow { entity := entity }).exec t =
      (x, u) := by
    rw [← pursue_start]
    exact h.exec_pursue
  refine ⟨?_, ?_, ?_⟩
  · rw [← Pursuit.cost_start _ entity]
    exact h.le_cost
  · rw [path_eq_found, exec_bind, hpursue]
    cases x <;> rfl
  · intro path type hpath
    rcases hexec : (r.path entity selector).exec t with ⟨result, v⟩
    rw [hexec] at hpath
    cases hpath
    obtain ⟨w, hw, hout⟩ := exec_path_eq_ok hexec
    rw [hpursue] at hw
    cases hw
    have hlength : w.path.length = 0 + n := h.length_path w rfl
    rw [Walk.outcome_path hout, hlength, Nat.zero_add]

/-- Everybody has friends, and a friend stands for a friend of a friend. -/
def circular : Resolver Expression :=
  ⟨{ remappings := .ofList [("Person", .ofList [("friend", "friend.friend")])] },
    fun _ name => some (.association name "Person" false), true, Expression.builder⟩

/-- A remapping to itself on an entity that leads back to itself takes all the rounds that the bound
allows. -/
theorem rounds_of_path_circular :
    (Text.Dotted.parts "friend.friend").length * circular.settings.longestTarget = 4 ∧
      (∃ x u, circular.Loops (.start "Person" "friend.friend") {} 4 x u) ∧
      ∀ n x u, circular.Loops (.start "Person" "friend.friend") {} n x u → n ≤ 4 := by
  have hbound :
      (Text.Dotted.parts "friend.friend").length * circular.settings.longestTarget = 4 := by
    decide +kernel
  have hfound : (((circular.path "Person" "friend.friend").exec {}).1.toOption.map
      fun y => y.1.length) = some 4 := by decide +kernel
  obtain ⟨⟨n, x, u, hloops⟩, hall⟩ := rounds_of_path circular {} "Person" "friend.friend"
  obtain ⟨⟨path, type⟩, hpath, hfour⟩ := Option.map_eq_some_iff.1 hfound
  obtain ⟨-, -, hlength⟩ := hall n x u hloops
  have hn : n = 4 := (hlength path type (eq_ok_of_toOption hpath)).symm.trans hfour
  refine ⟨hbound, ⟨x, u, hn ▸ hloops⟩, ?_⟩
  intro n' x' u' hloops'
  rw [← hbound]
  exact (hall n' x' u' hloops').1

end Resolver

end FilterQuery
