import Instancy.Progress.Reachability.Tracker
import Instancy.Library.Propagation

namespace Instancy

open Library MutableAntichain

variable {location : Location} {place : Location}

namespace Tracker

variable {T S : Type} [PathSummary S] [Timestamp T S] {topology : Topology S}

/-- The worklist as a list of updates to pointstamps. -/
def owed (worklist : List (WorklistEntry T)) : List ((Location × T) × Int) :=
  worklist.map fun entry => ((entry.location, entry.time), entry.diff)

/-- The number of hops from the times of one frontier to a pointstamp. -/
def carried (topology : Topology S) (origin : Location) (frontier : List T) (point : Location × T) : Int :=
  (frontier.map fun time => ((topology.forward origin time).count point : Int)).sum

/-- The number of hops from all frontiers of a tracker to a pointstamp. -/
def inflow (tracker : Tracker T topology) (point : Location × T) : Int :=
  ∑ origin ∈ topology.locations.toFinset,
    carried topology origin (tracker.ports origin).implications.frontier point

/-- Each implication count and the work owed to it add up to the seeds and hops that lead to it. -/
def Balanced (tracker : Tracker T topology) : Prop :=
  ∀ location time,
    (tracker.ports location).implications.countFor time + netOf (owed tracker.worklist) (location, time) =
      present (tracker.ports location).pointstamps.frontier time + tracker.inflow (location, time)

/-- Work is owed only to registered ports. -/
def Registered (tracker : Tracker T topology) : Prop :=
  ∀ entry ∈ tracker.worklist, entry.location ∈ topology.locations

/-- Hops lead only to registered ports. -/
def ForwardClosed (topology : Topology S) (T : Type) [Timestamp T S] : Prop :=
  ∀ origin (time : T), ∀ hop ∈ topology.forward origin time, hop.1 ∈ topology.locations

theorem owed_append (first second : List (WorklistEntry T)) :
    owed (first ++ second) = owed first ++ owed second := List.map_append

theorem push_perm (worklist entries : List (WorklistEntry T)) : (push worklist entries).Perm (entries ++ worklist) := by
  unfold push
  induction entries generalizing worklist with
  | nil => exact List.Perm.refl _
  | cons entry rest ih =>
    refine (ih _).trans ?_
    refine ((List.perm_orderedInsert ordLe entry worklist).append_left rest).trans ?_
    exact List.perm_middle

theorem owed_push (worklist entries : List (WorklistEntry T)) (point : Location × T) :
    netOf (owed (push worklist entries)) point = netOf (owed entries) point + netOf (owed worklist) point := by
  rw [← netOf_append, ← owed_append]
  exact netOf_perm ((push_perm worklist entries).map _) point

variable {entry : WorklistEntry T}

theorem mem_push {worklist entries : List (WorklistEntry T)} :
    entry ∈ push worklist entries ↔ entry ∈ entries ∨ entry ∈ worklist := by
  rw [(push_perm worklist entries).mem_iff, List.mem_append]

/-- The accumulated entries all have the key, and the total is what they owe. -/
theorem accumulate_spec (time : T) (location : Location) (diff : Int) (worklist : List (WorklistEntry T)) :
    ∃ taken, worklist = taken ++ (accumulate time location diff worklist).2 ∧
      (∀ entry ∈ taken, entry.time = time ∧ entry.location = location) ∧
      ∀ point, netOf (owed taken) point =
        if (location, time) = point then (accumulate time location diff worklist).1 - diff else 0 := by
  induction worklist generalizing diff with
  | nil => exact ⟨[], rfl, nofun, fun point => by simp [accumulate, owed]⟩
  | cons entry rest ih =>
    unfold accumulate
    by_cases same : entry.time = time ∧ entry.location = location
    · rw [if_pos same]
      obtain ⟨taken, split, keys, nets⟩ := ih (diff + entry.diff)
      refine ⟨entry :: taken, by rw [List.cons_append, ← split], fun other member => ?_, fun point => ?_⟩
      · rcases List.mem_cons.mp member with isFirst | later
        · exact isFirst ▸ same
        · exact keys other later
      · have tail := nets point
        unfold owed at tail ⊢
        rw [List.map_cons, netOf_cons, tail, same.1, same.2]
        split <;> omega
    · rw [if_neg same]
      exact ⟨[], rfl, nofun, fun point => by simp [owed]⟩

/-- The pushed hops of frontier changes owe the weighted number of hops to each pointstamp. -/
theorem owed_hops (location : Location) (changes : List (T × Int)) (point : Location × T) :
    netOf (owed (changes.flatMap fun change =>
        (topology.forward location change.1).map fun hop => (⟨hop.2, hop.1, change.2⟩ : WorklistEntry T))) point =
      weigh changes fun time => ((topology.forward location time).count point : Int) := by
  induction changes with
  | nil => rfl
  | cons change rest ih =>
    rw [List.flatMap_cons, owed_append, netOf_append, ih, weigh_cons]
    congr 1
    induction topology.forward location change.1 with
    | nil => simp [owed]
    | cons hop hops ihHops =>
      rw [List.map_cons]
      unfold owed at ihHops ⊢
      rw [List.map_cons, netOf_cons, ihHops, List.count_cons]
      by_cases same : hop = point
      · subst same
        simp
        ring
      · simp [same]

theorem owed_changes (location : Location) (changes : List (T × Int)) (point : Location × T) :
    netOf (owed (changes.map fun change => (⟨change.1, location, change.2⟩ : WorklistEntry T))) point =
      if location = point.1 then netOf changes point.2 else 0 := by
  induction changes with
  | nil => simp [owed]
  | cons change rest ih =>
    unfold owed at ih ⊢
    rw [List.map_cons, List.map_cons, netOf_cons, ih, netOf_cons]
    obtain ⟨place, instant⟩ := point
    by_cases same : location = place
    · simp [same]
    · simp [same]

theorem sum_eq_add_sub {locations : Finset Location} (member : place ∈ locations)
    (before after : Location → Int) (elsewhere : ∀ other, other ≠ place → after other = before other) :
    ∑ other ∈ locations, after other = ∑ other ∈ locations, before other + (after place - before place) := by
  rw [← Finset.add_sum_erase locations after member, ← Finset.add_sum_erase locations before member]
  have rest : ∑ other ∈ locations.erase place, after other = ∑ other ∈ locations.erase place, before other :=
    Finset.sum_congr rfl fun other inRest => elsewhere other (Finset.ne_of_mem_erase inRest)
  rw [rest]
  ring

/-- A changed implication frontier changes the inflow by the hops of its frontier changes. -/
theorem propagateAt_inflow (tracker : Tracker T topology)
    (registered : location ∈ topology.locations) (time : T) (diff : Int) (point : Location × T) :
    (tracker.propagateAt location time diff).inflow point = tracker.inflow point +
      weigh ((tracker.ports location).implications.updateIter [(time, diff)]).2
        fun t => ((topology.forward location t).count point : Int) := by
  rw [updateIter_weigh]
  have changed := sum_eq_add_sub (List.mem_toFinset.mpr registered)
    (fun origin => carried topology origin (tracker.ports origin).implications.frontier point)
    (fun origin => carried topology origin
      ((tracker.propagateAt location time diff).ports origin).implications.frontier point)
    (fun other apart => by simp only [propagateAt, Function.update_of_ne apart])
  unfold inflow
  rw [changed]
  simp only [propagateAt, Function.update_self]
  rfl

variable {tracker : Tracker T topology}

/-- An implication change pays what the worklist owed to it. -/
theorem propagateAt_balanced {time : T} {diff : Int} (registered : location ∈ topology.locations)
    (owing : ∀ place instant, (tracker.ports place).implications.countFor instant +
      netOf (owed tracker.worklist) (place, instant) + (if (location, time) = (place, instant) then diff else 0) =
        present (tracker.ports place).pointstamps.frontier instant + tracker.inflow (place, instant)) :
    (tracker.propagateAt location time diff).Balanced := by
  intro place instant
  have before := owing place instant
  rw [propagateAt_inflow tracker registered]
  have paid : netOf (owed (tracker.propagateAt location time diff).worklist) (place, instant) =
      weigh ((tracker.ports location).implications.updateIter [(time, diff)]).2
        (fun t => ((topology.forward location t).count (place, instant) : Int)) +
        netOf (owed tracker.worklist) (place, instant) := by
    change netOf (owed (push _ _)) _ = _
    rw [owed_push, owed_hops]
  rw [paid]
  by_cases same : place = location
  · subst place
    have counted := updateIter_countFor (tracker.ports location).implications [(time, diff)] instant
    rw [netOf_cons, netOf_nil, Int.add_zero] at counted
    simp only [propagateAt, Function.update_self, counted]
    simp only [Prod.mk.injEq, true_and] at before
    omega
  · have apart : ¬ (location, time) = (place, instant) := fun equal => same (congrArg Prod.fst equal).symm
    rw [if_neg apart] at before
    simp only [propagateAt, Function.update_of_ne same]
    omega

theorem propagateAt_registered (closed : ForwardClosed topology T)
    (registered : tracker.Registered) (location : Location) (time : T) (diff : Int) :
    (tracker.propagateAt location time diff).Registered := by
  intro entry member
  rcases mem_push.mp member with fresh | old
  · obtain ⟨change, _, pushed⟩ := List.mem_flatMap.mp fresh
    obtain ⟨hop, reached, same⟩ := List.mem_map.mp pushed
    subst same
    exact closed location change.1 hop reached
  · exact registered entry old

/-- A round of the loop either drops a settled key or propagates at its location. -/
theorem propagateStep_eq {next : Tracker T topology} (step : tracker.propagateStep = some next) :
    ∃ entry rest, tracker.worklist = entry :: rest ∧
      ((accumulate entry.time entry.location entry.diff rest).1 = 0 ∧
          next = { tracker with worklist := (accumulate entry.time entry.location entry.diff rest).2 } ∨
        (accumulate entry.time entry.location entry.diff rest).1 ≠ 0 ∧
          next = propagateAt { tracker with worklist := (accumulate entry.time entry.location entry.diff rest).2 }
            entry.location entry.time (accumulate entry.time entry.location entry.diff rest).1) := by
  unfold propagateStep at step
  split at step
  · cases step
  · rename_i entry rest found
    refine ⟨entry, rest, found, ?_⟩
    dsimp only at step
    split at step
    · rename_i zero
      cases step
      exact Or.inl ⟨zero, rfl⟩
    · rename_i nonzero
      refine Or.inr ⟨nonzero, ?_⟩
      split at step
      · rename_i same
        cases step
        rw [same]
        rfl
      · rename_i same
        cases step
        rw [same]
        rfl

/-- The facts that every round of the loop keeps. -/
structure Consistent (tracker : Tracker T topology) : Prop where
  balanced : tracker.Balanced
  registered : tracker.Registered

/-- Taking a key off the worklist leaves its total owed to it. -/
theorem owed_pop {rest : List (WorklistEntry T)} (found : tracker.worklist = entry :: rest) (point : Location × T) :
    netOf (owed tracker.worklist) point =
      netOf (owed (accumulate entry.time entry.location entry.diff rest).2) point +
        if (entry.location, entry.time) = point then (accumulate entry.time entry.location entry.diff rest).1
        else 0 := by
  obtain ⟨taken, split, _, nets⟩ := accumulate_spec entry.time entry.location entry.diff rest
  have total := nets point
  rw [found]
  change netOf (((entry.location, entry.time), entry.diff) :: owed rest) point = _
  rw [netOf_cons]
  conv_lhs => rw [split, owed_append, netOf_append, total]
  split <;> omega

theorem propagateStep_consistent {next : Tracker T topology} (closed : ForwardClosed topology T)
    (consistent : tracker.Consistent) (step : tracker.propagateStep = some next) : next.Consistent := by
  obtain ⟨entry, rest, found, outcome⟩ := propagateStep_eq step
  obtain ⟨taken, split, _, _⟩ := accumulate_spec entry.time entry.location entry.diff rest
  have remaining : ∀ other ∈ (accumulate entry.time entry.location entry.diff rest).2,
      other.location ∈ topology.locations := by
    intro other member
    apply consistent.registered
    rw [found, split]
    exact List.mem_cons_of_mem _ (List.mem_append_right _ member)
  have balance := consistent.balanced
  rcases outcome with ⟨zero, same⟩ | ⟨_, same⟩
  · subst same
    refine ⟨fun place instant => ?_, remaining⟩
    have before := balance place instant
    rw [owed_pop found, zero, ite_self, Int.add_zero] at before
    exact before
  · subst same
    refine ⟨propagateAt_balanced ?_ fun place instant => ?_, propagateAt_registered closed ?_ _ _ _⟩
    · apply consistent.registered
      rw [found]
      exact List.mem_cons_self
    · have before := balance place instant
      rw [owed_pop found, ← Int.add_assoc] at before
      exact before
    · exact remaining

section Drain

/-- The net count posted at a pointstamp: what is applied and what is pending. -/
def posted (tracker : Tracker T topology) (location : Location) (time : T) : Int :=
  (tracker.ports location).pointstamps.countFor time + (tracker.pending location).net time

variable (info : PortInformation T)

@[simp] theorem refreshNonzero_frontier (counter : Nat) :
    (refreshNonzero info counter).1.pointstamps.frontier = info.pointstamps.frontier := rfl

@[simp] theorem refreshNonzero_countFor (counter : Nat) (time : T) :
    (refreshNonzero info counter).1.pointstamps.countFor time = info.pointstamps.countFor time :=
  isZero_countFor info.pointstamps time

@[simp] theorem refreshNonzero_implications (counter : Nat) :
    (refreshNonzero info counter).1.implications = info.implications := rfl

section

variable (tracker : Tracker T topology)

/-- A drain of one port leaves every implication as it is. -/
theorem drainPort_implications (location place : Location) :
    ((tracker.drainPort location).ports place).implications = (tracker.ports place).implications := by
  unfold drainPort
  split
  · rfl
  · by_cases same : place = location
    · subst place
      simp only [Function.update_self, refreshNonzero_implications]
    · simp only [Function.update_of_ne same]

theorem drainPort_posted (location place : Location) (time : T) :
    (tracker.drainPort location).posted place time = tracker.posted place time := by
  unfold drainPort
  split
  · rfl
  · unfold posted
    by_cases same : place = location
    · subst place
      simp only [Function.update_self, refreshNonzero_countFor, updateIter_countFor, ChangeBatch.drain_net,
        ChangeBatch.drain_rest, ChangeBatch.new_net]
      omega
    · simp only [Function.update_of_ne same]

/-- The drained port has nothing pending. -/
theorem drainPort_pending (location : Location) (time : T) :
    ((tracker.drainPort location).pending location).net time = 0 := by
  unfold drainPort
  split
  · rename_i empty
    exact ChangeBatch.net_of_isEmptyClean empty time
  · simp only [Function.update_self, ChangeBatch.drain_rest, ChangeBatch.new_net]

theorem drainPort_pending_of_ne (apart : place ≠ location) :
    (tracker.drainPort location).pending place = tracker.pending place := by
  unfold drainPort
  split
  · rfl
  · simp only [Function.update_of_ne apart]

theorem drainPort_isEmptyClean (location : Location) :
    ((tracker.drainPort location).pending location).isEmptyClean = true := by
  unfold drainPort
  split
  · assumption
  · simp only [Function.update_self, ChangeBatch.drain_rest]
    rfl

theorem drainPort_pointstamps_of_ne (apart : place ≠ location) :
    ((tracker.drainPort location).ports place).pointstamps = (tracker.ports place).pointstamps := by
  unfold drainPort
  split
  · rfl
  · simp only [Function.update_of_ne apart]

end

variable {tracker : Tracker T topology}

/-- The frontier changes of a drained port are owed to it. -/
theorem drainPort_balanced (balanced : tracker.Balanced) (location : Location) :
    (tracker.drainPort location).Balanced := by
  intro place instant
  have before := balanced place instant
  have flow : (tracker.drainPort location).inflow (place, instant) = tracker.inflow (place, instant) := by
    unfold inflow
    simp only [drainPort_implications]
  rw [flow, drainPort_implications]
  unfold drainPort
  split
  · exact before
  · simp only [owed_push, owed_changes]
    by_cases same : place = location
    · subst place
      simp only [Function.update_self, refreshNonzero_frontier, if_true]
      have moved := updateIter_changes (tracker.ports location).pointstamps
        (tracker.pending location).drain.1 instant
      omega
    · have apart : location ≠ place := fun equal => same equal.symm
      simp only [Function.update_of_ne same, apart, if_false]
      omega

theorem drainPort_registered (registered : tracker.Registered)
    (member : location ∈ topology.locations) : (tracker.drainPort location).Registered := by
  unfold drainPort
  split
  · exact registered
  · intro entry found
    rcases mem_push.mp found with fresh | old
    · obtain ⟨change, _, same⟩ := List.mem_map.mp fresh
      subst same
      exact member
    · exact registered entry old

theorem drainPort_consistent (consistent : tracker.Consistent)
    (member : location ∈ topology.locations) : (tracker.drainPort location).Consistent :=
  ⟨drainPort_balanced consistent.balanced location, drainPort_registered consistent.registered member⟩

/-- The facts of a drain over some of the registered ports. -/
theorem foldl_drainPort (consistent : tracker.Consistent)
    (places : List Location) (members : ∀ place ∈ places, place ∈ topology.locations) :
    (places.foldl drainPort tracker).Consistent ∧
      (∀ place time, (places.foldl drainPort tracker).posted place time = tracker.posted place time) ∧
      ∀ place, (place ∈ places ∨ ∀ time, (tracker.pending place).net time = 0) →
        ∀ time, ((places.foldl drainPort tracker).pending place).net time = 0 := by
  induction places generalizing tracker with
  | nil =>
    refine ⟨consistent, fun _ _ => rfl, fun place either => ?_⟩
    rcases either with member | clear
    · cases member
    · exact clear
  | cons first rest ih =>
    obtain ⟨restConsistent, restPosted, restPending⟩ :=
      ih (drainPort_consistent consistent (members first List.mem_cons_self))
        fun place member => members place (List.mem_cons_of_mem first member)
    refine ⟨restConsistent, fun place time => (restPosted place time).trans (drainPort_posted _ _ _ _), ?_⟩
    intro place either
    apply restPending
    by_cases same : place = first
    · subst place
      exact Or.inr (drainPort_pending tracker first)
    · rcases either with member | clear
      · rcases List.mem_cons.mp member with isFirst | later
        · exact absurd isFirst same
        · exact Or.inl later
      · rw [drainPort_pending_of_ne tracker same]
        exact Or.inr clear

/-- A drain over some ports empties them and leaves the others alone. -/
theorem foldl_drainPort_clears (places : List Location) (tracker : Tracker T topology) (location : Location) :
    (location ∈ places → ((places.foldl drainPort tracker).pending location).isEmptyClean = true) ∧
      (location ∉ places → (places.foldl drainPort tracker).pending location = tracker.pending location ∧
        ((places.foldl drainPort tracker).ports location).pointstamps = (tracker.ports location).pointstamps) := by
  induction places generalizing tracker with
  | nil => exact ⟨nofun, fun _ => ⟨rfl, rfl⟩⟩
  | cons place rest ih =>
    rw [List.foldl_cons]
    obtain ⟨cleared, kept⟩ := ih (tracker.drainPort place)
    refine ⟨fun member => ?_, fun absent => ?_⟩
    · by_cases later : location ∈ rest
      · exact cleared later
      · have same : location = place := (List.mem_cons.mp member).resolve_right later
        rw [(kept later).1, same]
        exact drainPort_isEmptyClean tracker place
    · have apart : location ≠ place := fun same => absent (same ▸ List.mem_cons_self)
      have notLater : location ∉ rest := fun later => absent (List.mem_cons_of_mem place later)
      rw [(kept notLater).1, (kept notLater).2]
      exact ⟨drainPort_pending_of_ne tracker apart, drainPort_pointstamps_of_ne tracker apart⟩

/-- The drain of different ports owes only times of the frontiers before it or after it. -/
theorem mem_foldl_drainPort (places : List Location) (distinct : places.Nodup) (tracker : Tracker T topology)
    (member : entry ∈ (places.foldl drainPort tracker).worklist) :
    entry ∈ tracker.worklist ∨ entry.location ∈ places ∧
      (entry.time ∈ (tracker.ports entry.location).pointstamps.frontier ∨
        entry.time ∈ ((places.foldl drainPort tracker).ports entry.location).pointstamps.frontier) := by
  induction places generalizing tracker with
  | nil => exact Or.inl member
  | cons place rest ih =>
    obtain ⟨absent, distinctRest⟩ := List.nodup_cons.mp distinct
    rw [List.foldl_cons] at member ⊢
    have kept := ((foldl_drainPort_clears rest (tracker.drainPort place) place).2 absent).2
    rcases ih distinctRest (tracker.drainPort place) member with early | ⟨inRest, times⟩
    · unfold drainPort at early
      split at early
      · exact Or.inl early
      · rename_i pending
        rcases mem_push.mp early with fresh | old
        · obtain ⟨change, moved, same⟩ := List.mem_map.mp fresh
          subst same
          refine Or.inr ⟨List.mem_cons_self, ?_⟩
          rw [kept]
          unfold drainPort
          rw [if_neg pending]
          simp only [Function.update_self, refreshNonzero_frontier]
          exact mem_frontier_of_change moved
        · exact Or.inl old
    · have apart : entry.location ≠ place := fun same => absent (same ▸ inRest)
      rw [drainPort_pointstamps_of_ne tracker apart] at times
      exact Or.inr ⟨List.mem_cons_of_mem place inRest, times⟩

/-- Propagation changes neither the applied counts nor the pending ones. -/
theorem propagateStep_posted {next : Tracker T topology}
    (step : tracker.propagateStep = some next) (location : Location) :
    (next.ports location).pointstamps = (tracker.ports location).pointstamps ∧
      next.pending location = tracker.pending location := by
  obtain ⟨entry, rest, _, ⟨_, same⟩ | ⟨_, same⟩⟩ := propagateStep_eq step
  · subst same
    exact ⟨rfl, rfl⟩
  · subst same
    refine ⟨?_, rfl⟩
    unfold propagateAt
    by_cases here : location = entry.location
    · subst here
      simp only [Function.update_self]
    · simp only [Function.update_of_ne here]

end Drain

section Settled

/-- A hop of the tables takes one pointstamp to the next. -/
def TableStep (topology : Topology S) (before after : Location × T) : Prop :=
  before.1 ∈ topology.locations ∧ after ∈ topology.forward before.1 before.2

theorem carried_nonneg (topology : Topology S) (origin : Location) (frontier : List T) (point : Location × T) :
    0 ≤ carried topology origin frontier point := by
  apply List.sum_nonneg
  intro value member
  obtain ⟨time, _, same⟩ := List.mem_map.mp member
  rw [← same]
  exact Int.natCast_nonneg _

theorem carried_pos_iff (topology : Topology S) (origin : Location) (frontier : List T) (point : Location × T) :
    0 < carried topology origin frontier point ↔ ∃ time ∈ frontier, point ∈ topology.forward origin time := by
  induction frontier with
  | nil => simp [carried]
  | cons time rest ih =>
    have step : carried topology origin (time :: rest) point =
        ((topology.forward origin time).count point : Int) + carried topology origin rest point := by
      unfold carried
      rw [List.map_cons, List.sum_cons]
    have nonneg := carried_nonneg topology origin rest point
    have counted : 0 < (topology.forward origin time).count point ↔ point ∈ topology.forward origin time :=
      List.count_pos_iff
    simp only [List.mem_cons, exists_eq_or_imp, ← ih, ← counted]
    omega

theorem inflow_pos_iff (tracker : Tracker T topology) (point : Location × T) :
    0 < tracker.inflow point ↔ ∃ origin start, start ∈ (tracker.ports origin).implications.frontier ∧
      TableStep topology (origin, start) point := by
  unfold inflow TableStep
  rw [Finset.sum_pos_iff_of_nonneg fun origin _ => carried_nonneg topology origin _ point]
  simp only [List.mem_toFinset, carried_pos_iff]
  constructor
  · intro found
    obtain ⟨origin, registered, start, member, hop⟩ := found
    exact ⟨origin, start, member, registered, hop⟩
  · intro found
    obtain ⟨origin, start, member, registered, hop⟩ := found
    exact ⟨origin, registered, start, member, hop⟩

theorem inflow_nonneg (tracker : Tracker T topology) (point : Location × T) : 0 ≤ tracker.inflow point :=
  Finset.sum_nonneg fun origin _ => carried_nonneg topology origin _ point

/-- With nothing owed, the implications solve the local frontier equations. -/
theorem Balanced.locallyExact {tracker : Tracker T topology} (balanced : tracker.Balanced)
    (settled : tracker.worklist = []) :
    LocallyExact (TableStep topology) (fun location => (tracker.ports location).pointstamps.frontier)
      (fun location => (tracker.ports location).implications.frontier) := by
  intro location
  refine (tracker.ports location).implications.isFrontier.congr fun time => ?_
  have balance := balanced location time
  rw [settled] at balance
  have flow := tracker.inflow_nonneg (location, time)
  rw [← tracker.inflow_pos_iff]
  change 0 < (tracker.ports location).implications.countFor time ↔ _
  change _ + 0 = _ at balance
  unfold present at balance
  split at balance
  · rename_i member
    simp only [member, true_or, iff_true]
    omega
  · rename_i absent
    simp only [absent, false_or]
    omega

end Settled

section Posts

variable {T S : Type} [PathSummary S] [Timestamp T S] {topology : Topology S}

/-- The second tracker is the first one with some changes posted at some locations. -/
structure Posts (tracker next : Tracker T topology) (net : Location → T → Int) (touched : Location → Prop) : Prop where
  ports : next.ports = tracker.ports
  worklist : next.worklist = tracker.worklist
  exportChanges : next.exportChanges = tracker.exportChanges
  pending : ∀ location, ¬ touched location → next.pending location = tracker.pending location
  posted : ∀ location time, next.posted location time = tracker.posted location time + net location time

theorem Posts.refl (tracker : Tracker T topology) : Posts tracker tracker (fun _ _ => 0) fun _ => False :=
  ⟨rfl, rfl, rfl, fun _ _ => rfl, fun _ _ => (Int.add_zero _).symm⟩

theorem Posts.trans {first second third : Tracker T topology} {early late : Location → T → Int}
    {touchedEarly touchedLate : Location → Prop} (posts : Posts first second early touchedEarly)
    (more : Posts second third late touchedLate) :
    Posts first third (fun location time => early location time + late location time)
      fun location => touchedEarly location ∨ touchedLate location where
  ports := more.ports.trans posts.ports
  worklist := more.worklist.trans posts.worklist
  exportChanges := more.exportChanges.trans posts.exportChanges
  pending location apart :=
    (more.pending location fun late => apart (Or.inr late)).trans
      (posts.pending location fun early => apart (Or.inl early))
  posted location time := by rw [more.posted, posts.posted, Int.add_assoc]

theorem Posts.weaken {first second : Tracker T topology} {net other : Location → T → Int}
    {touched wider : Location → Prop} (posts : Posts first second net touched)
    (same : ∀ location time, net location time = other location time)
    (wide : ∀ location, touched location → wider location) : Posts first second other wider where
  ports := posts.ports
  worklist := posts.worklist
  exportChanges := posts.exportChanges
  pending location apart := posts.pending location fun inside => apart (wide location inside)
  posted location time := by rw [posts.posted, same]

section

variable {tracker next : Tracker T topology} {net : Location → T → Int} {touched : Location → Prop}
  (posts : Posts tracker next net touched)
include posts

theorem Posts.posted_of_not (apart : ¬ touched location) (time : T) :
    next.posted location time = tracker.posted location time := by
  unfold Tracker.posted
  rw [posts.ports, posts.pending location apart]

theorem Posts.consistent (consistent : tracker.Consistent) : next.Consistent := by
  refine ⟨fun location time => ?_, fun entry member => ?_⟩
  · have flow : next.inflow (location, time) = tracker.inflow (location, time) := by
      unfold inflow
      rw [posts.ports]
    rw [posts.ports, posts.worklist, flow]
    exact consistent.balanced location time
  · rw [posts.worklist] at member
    exact consistent.registered entry member

end

/-- A change posted at a registered port is pending there. -/
theorem post_posts (tracker : Tracker T topology) (registered : location ∈ topology.locations)
    (time : T) (diff : Int) : ∃ next, tracker.post location time diff = some next ∧
      Posts tracker next (fun place instant => netOf [((location, time), diff)] (place, instant))
        fun place => place = location := by
  refine ⟨_, if_pos registered, rfl, rfl, rfl, fun place apart => ?_, fun place instant => ?_⟩
  · simp only [Function.update_of_ne apart]
  · unfold posted
    by_cases same : place = location
    · subst place
      simp only [Function.update_self, ChangeBatch.update_net, netOf_cons, netOf_nil, Prod.mk.injEq, true_and]
      omega
    · have apart : ¬ (location, time) = (place, instant) := fun equal => same (congrArg Prod.fst equal).symm
      simp only [Function.update_of_ne same, netOf_cons, netOf_nil, apart, if_false]
      omega

/-- Some changes at registered ports are posted as a whole. -/
theorem foldlM_post {A : Type} (change : A → (Location × T) × Int) (items : List A) (tracker : Tracker T topology)
    (registered : ∀ item ∈ items, (change item).1.1 ∈ topology.locations) :
    ∃ next, items.foldlM (fun current item => current.post (change item).1.1 (change item).1.2 (change item).2) tracker =
        some next ∧
      Posts tracker next (fun location time => netOf (items.map change) (location, time))
        fun location => ∃ item ∈ items, location = (change item).1.1 := by
  induction items generalizing tracker with
  | nil => exact ⟨tracker, rfl, (Posts.refl tracker).weaken (fun _ _ => rfl) fun _ => False.elim⟩
  | cons item rest ih =>
    obtain ⟨middle, posted, first⟩ :=
      tracker.post_posts (registered item List.mem_cons_self) (change item).1.2 (change item).2
    obtain ⟨next, others, second⟩ := ih middle fun other member => registered other (List.mem_cons_of_mem item member)
    refine ⟨next, ?_, (first.trans second).weaken (fun location time => ?_) fun location touched => ?_⟩
    · rw [List.foldlM_cons, posted]
      exact others
    · simp only [List.map_cons, netOf_cons, netOf_nil, Int.add_zero]
    · rcases touched with same | ⟨other, member, same⟩
      · exact ⟨item, List.mem_cons_self, same⟩
      · exact ⟨other, List.mem_cons_of_mem item member, same⟩

/-- The propagation leaves the applied and the pending counts alone. -/
theorem propagateWorklist_unchanged {tracker next : Tracker T topology} {fuel : Nat}
    (ended : tracker.propagateWorklist fuel = some next) (location : Location) :
    (next.ports location).pointstamps = (tracker.ports location).pointstamps ∧
      next.pending location = tracker.pending location := by
  refine (loop_invariant (fun current : Tracker T topology =>
    (current.ports location).pointstamps = (tracker.ports location).pointstamps ∧
      current.pending location = tracker.pending location) (fun current later same step => ?_) ⟨rfl, rfl⟩ ended).1
  obtain ⟨points, pending⟩ := propagateStep_posted step location
  exact ⟨points.trans same.1, pending.trans same.2⟩

section

variable {tracker : Tracker T topology} (counted : Location → Bool)

theorem setCounted_ports (location : Location) :
    ((tracker.setCounted counted).ports location).pointstamps = (tracker.ports location).pointstamps ∧
      ((tracker.setCounted counted).ports location).implications = (tracker.ports location).implications := by
  unfold setCounted
  dsimp only
  split <;> exact ⟨rfl, rfl⟩

theorem setCounted_posted (location : Location) (time : T) :
    (tracker.setCounted counted).posted location time = tracker.posted location time := by
  unfold posted
  rw [(setCounted_ports counted location).1]
  rfl

end

end Posts

end Tracker

end Instancy
