import Instancy.Progress.Reachability.ZeroCounts
import Instancy.Progress.Subgraph.WorkerScope

namespace Instancy

open Library

/-- The calls of a tracker around its zero tests. -/
inductive ZeroTrackingCall (T : Type) where
  | updateTarget (node port : Nat) (time : T) (diff : Int)
  | updateSource (node port : Nat) (time : T) (diff : Int)
  | applyPending
  | propagateWorklist
  | propagateAll
  | setCounted (counted : Location → Bool)

variable {counted : Location → Bool}

namespace Tracker

variable {T S : Type} [PathSummary S] [Timestamp T S] {topology : Topology S}

/-- Whether no port has a nonzero count. -/
def allCountsZero (tracker : Tracker T topology) : Bool :=
  topology.locations.all fun location => !(tracker.ports location).nonzero

/-- The drain of the port would take one off a counter that is already zero. -/
structure Underflows (tracker : Tracker T topology) (location : Location) : Prop where
  pending : (tracker.pending location).isEmptyClean = false
  isCounted : (tracker.ports location).counted = true
  wasNonzero : (tracker.ports location).nonzero = true
  isZero : ((tracker.ports location).pointstamps.updateIter (tracker.pending location).drain.1).1.isZero.1 = true
  counter : tracker.nonzeroCounted = 0

/-- The zero tests agree with a recount: `net` is the sum of everything that was posted at a port. -/
structure Recounts (tracker : Tracker T topology) (counted : Location → Bool) (net : Location → T → Int) : Prop where
  countsZeroAt : ∀ location, tracker.countsZeroAt location = true ↔ ∀ time, net location time = 0
  countedZero : tracker.countedZero = true ↔
    ∀ location ∈ topology.locations, counted location = true → ∀ time, net location time = 0
  allCountsZero : tracker.allCountsZero = true ↔ tracker.nonzeroCounts = []
  nonzeroCounts : ∀ location time count, (⟨location, time⟩, count) ∈ tracker.nonzeroCounts ↔
    count ≠ 0 ∧ net location time = count

variable {tracker : Tracker T topology} (tallied : tracker.Tallied counted)

include tallied

/-- The counter of a tallied tracker holds every flag that a drain may clear. -/
theorem Tallied.not_underflows {location : Location} (member : location ∈ topology.locations) :
    ¬ tracker.Underflows location := by
  intro underflows
  have held : 0 < tracker.nonzeroCounted := by
    rw [tallied.number]
    refine List.countP_pos_iff.mpr ⟨location, member, ?_⟩
    rw [← tallied.chosen location member, underflows.isCounted, underflows.wasNonzero]
    rfl
  exact absurd underflows.counter (Nat.ne_of_gt held)

theorem Tallied.foldl_drainPort (distinct : topology.locations.Nodup) (places : List Location)
    (members : ∀ place ∈ places, place ∈ topology.locations) : (places.foldl Tracker.drainPort tracker).Tallied counted :=
  List.foldlRecOn places Tracker.drainPort tallied fun _ held place isIn => held.drainPort distinct (members place isIn)

/-- A flag that follows the counts and a counter that follows the flags make the zero tests a recount. -/
theorem Tallied.recounts {net : Location → T → Int} (applied : ∀ location ∈ topology.locations, ∀ time,
      (tracker.ports location).pointstamps.countFor time = net location time)
    (outside : ∀ location, location ∉ topology.locations → ∀ time, net location time = 0) :
    tracker.Recounts counted net := by
  have flag : ∀ location ∈ topology.locations,
      (tracker.ports location).nonzero = false ↔ ∀ time, net location time = 0 := by
    intro location member
    rw [← Bool.not_eq_true, tallied.flagged location member, not_exists]
    simp only [not_not, applied location member]
  have listed : ∀ location time count, (⟨location, time⟩, count) ∈ tracker.nonzeroCounts ↔
      count ≠ 0 ∧ net location time = count := by
    intro location time count
    unfold nonzeroCounts
    rw [List.mem_flatMap]
    constructor
    · intro found
      obtain ⟨place, member, inPlace⟩ := found
      obtain ⟨entry, isEntry, same⟩ := List.mem_map.mp inPlace
      cases same
      rw [(tracker.ports location).pointstamps.netCounts_compacted.mem_iff, MutableAntichain.netCounts_net,
        applied location member] at isEntry
      exact isEntry
    · intro found
      obtain ⟨nonzero, value⟩ := found
      have member : location ∈ topology.locations := by
        by_contra absent
        exact nonzero (value.symm.trans (outside location absent time))
      refine ⟨location, member, List.mem_map.mpr ⟨(time, count), ?_, rfl⟩⟩
      rw [(tracker.ports location).pointstamps.netCounts_compacted.mem_iff, MutableAntichain.netCounts_net,
        applied location member]
      exact ⟨nonzero, value⟩
  refine ⟨fun location => ?_, ?_, ?_, listed⟩
  · unfold Tracker.countsZeroAt
    by_cases member : location ∈ topology.locations
    · rw [if_pos member, Bool.not_eq_true', flag location member]
    · rw [if_neg member]
      exact ⟨fun _ => outside location member, fun _ => rfl⟩
  · unfold Tracker.countedZero
    rw [beq_iff_eq, tallied.number, List.countP_eq_zero]
    refine forall₂_congr fun location member => ?_
    rw [Bool.and_eq_true, not_and, Bool.not_eq_true, flag location member]
  · unfold Tracker.allCountsZero
    rw [List.all_eq_true, List.eq_nil_iff_forall_not_mem]
    constructor
    · intro zero entry isEntry
      obtain ⟨nonzero, value⟩ := (listed entry.1.location entry.1.time entry.2).mp isEntry
      have member : entry.1.location ∈ topology.locations := by
        by_contra absent
        exact nonzero (value.symm.trans (outside _ absent _))
      have none := (flag _ member).mp (Bool.not_eq_true' _ ▸ zero _ member) entry.1.time
      exact nonzero (value.symm.trans none)
    · intro none location member
      rw [Bool.not_eq_true', flag location member]
      intro time
      by_contra nonzero
      exact none (⟨location, time⟩, net location time) ((listed location time _).mpr ⟨nonzero, rfl⟩)

end Tracker

namespace ZeroTrackingCall

variable {T S : Type} [PathSummary S] [Timestamp T S] {topology : Topology S}

def run (fuel : Nat) (tracker : Tracker T topology) : ZeroTrackingCall T → Option (Tracker T topology)
  | updateTarget node port time diff => tracker.updateTarget node port time diff
  | updateSource node port time diff => tracker.updateSource node port time diff
  | applyPending => some tracker.applyPending
  | propagateWorklist => tracker.propagateWorklist fuel
  | propagateAll => tracker.propagateAll fuel
  | setCounted counted => some (tracker.setCounted counted)

/-- The calls run one after the other; an update of a port that does not exist and a lack of fuel have no result. -/
def runAll (fuel : Nat) (calls : List (ZeroTrackingCall T)) (tracker : Tracker T topology) :
    Option (Tracker T topology) :=
  calls.foldlM (run fuel) tracker

/-- The count change that a call posts. -/
def posts : ZeroTrackingCall T → Option ((Location × T) × Int)
  | updateTarget node port time diff => some ((.target node port, time), diff)
  | updateSource node port time diff => some ((.source node port, time), diff)
  | _ => none

/-- The sum of everything that the calls post at a port and a time. -/
def netPosted (calls : List (ZeroTrackingCall T)) (location : Location) (time : T) : Int :=
  netOf (calls.filterMap posts) (location, time)

/-- The ports that count after a call. -/
def chosen (counted : Location → Bool) : ZeroTrackingCall T → Location → Bool
  | setCounted fresh => fresh
  | _ => counted

/-- The ports that count after some calls: every port, until the calls choose. -/
def chosenAfter (calls : List (ZeroTrackingCall T)) : Location → Bool := calls.foldl chosen fun _ => true

/-- Whether the call applies everything that is pending. -/
def drains : ZeroTrackingCall T → Bool
  | applyPending => true
  | propagateAll => true
  | _ => false

/-- The flags, the counter and the counts of a tracker after some calls. -/
structure Tracks (calls : List (ZeroTrackingCall T)) (tracker : Tracker T topology) : Prop where
  tallied : tracker.Tallied (chosenAfter calls)
  posted : ∀ location time, tracker.posted location time = netPosted calls location time
  outside : ∀ location, location ∉ topology.locations → ∀ time, netPosted calls location time = 0

theorem netPosted_concat (calls : List (ZeroTrackingCall T)) (call : ZeroTrackingCall T) (location : Location)
    (time : T) :
    netPosted (calls ++ [call]) location time =
      netPosted calls location time + netOf call.posts.toList (location, time) := by
  unfold netPosted
  cases same : call.posts <;> simp [same]

theorem chosenAfter_concat (calls : List (ZeroTrackingCall T)) (call : ZeroTrackingCall T) :
    chosenAfter (calls ++ [call]) = call.chosen (chosenAfter calls) := by
  unfold chosenAfter
  rw [List.foldl_concat]

variable {calls : List (ZeroTrackingCall T)} {tracker next : Tracker T topology} {call : ZeroTrackingCall T}

/-- A call that posts nothing and keeps the posted counts keeps the sums. -/
theorem Tracks.quiet (tracks : Tracks calls tracker) (silent : call.posts = none)
    (tallied : next.Tallied (call.chosen (chosenAfter calls)))
    (same : ∀ location time, next.posted location time = tracker.posted location time) :
    Tracks (calls ++ [call]) next := by
  have net : ∀ location time, netPosted (calls ++ [call]) location time = netPosted calls location time := by
    intro location time
    rw [netPosted_concat, silent, Option.toList_none, netOf_nil, Int.add_zero]
  refine ⟨chosenAfter_concat calls call ▸ tallied, fun location time => ?_, fun location absent time => ?_⟩
  · rw [same, net, tracks.posted]
  · rw [net, tracks.outside location absent]

theorem Tracks.post (tracks : Tracks calls tracker) {location : Location} {time : T}
    {diff : Int} (isPost : call.posts = some ((location, time), diff))
    (keeps : call.chosen (chosenAfter calls) = chosenAfter calls)
    (posted : tracker.post location time diff = some next) : Tracks (calls ++ [call]) next := by
  have registered : location ∈ topology.locations := by
    unfold Tracker.post at posted
    split at posted
    · assumption
    · cases posted
  obtain ⟨_, done, posts⟩ := tracker.post_posts registered time diff
  cases posted.symm.trans done
  have net : ∀ place instant, netPosted (calls ++ [call]) place instant =
      netPosted calls place instant + netOf [((location, time), diff)] (place, instant) := by
    intro place instant
    rw [netPosted_concat, isPost, Option.toList_some]
  refine ⟨by rw [chosenAfter_concat, keeps]; exact tracks.tallied.post posted, fun place instant => ?_,
    fun place absent instant => ?_⟩
  · rw [posts.posted, net, tracks.posted]
  · have apart : ¬ (location, time) = (place, instant) := by
      intro equal
      cases equal
      exact absent registered
    rw [net, tracks.outside place absent, netOf_cons, if_neg apart]
    rfl

theorem applyPending_posted (tracker : Tracker T topology) (location : Location) (time : T) :
    tracker.applyPending.posted location time = tracker.posted location time := by
  refine List.foldlRecOn (motive := fun current : Tracker T topology =>
    current.posted location time = tracker.posted location time) topology.locations Tracker.drainPort rfl
    fun current same place _ => ?_
  exact (current.drainPort_posted place location time).trans same

variable {fuel : Nat}

theorem propagateWorklist_posted (ended : tracker.propagateWorklist fuel = some next) (location : Location)
    (time : T) : next.posted location time = tracker.posted location time := by
  obtain ⟨points, pending⟩ := Tracker.propagateWorklist_unchanged ended location
  unfold Tracker.posted
  rw [points, pending]

theorem Tracks.run (distinct : topology.locations.Nodup) (tracks : Tracks calls tracker)
    (done : call.run fuel tracker = some next) : Tracks (calls ++ [call]) next := by
  cases call with
  | updateTarget node port time diff => exact tracks.post rfl rfl done
  | updateSource node port time diff => exact tracks.post rfl rfl done
  | applyPending =>
    cases done
    exact tracks.quiet rfl (tracks.tallied.applyPending distinct) (applyPending_posted tracker)
  | propagateWorklist =>
    exact tracks.quiet rfl (tracks.tallied.propagateWorklist done) (propagateWorklist_posted done)
  | propagateAll =>
    refine tracks.quiet rfl ((tracks.tallied.applyPending distinct).propagateWorklist done) fun location time => ?_
    exact (propagateWorklist_posted done location time).trans (applyPending_posted tracker location time)
  | setCounted counted =>
    cases done
    exact tracks.quiet rfl (tracks.tallied.setCounted counted) (Tracker.setCounted_posted counted)

theorem Tracks.new : Tracks [] (Tracker.new : Tracker T topology) :=
  ⟨Tracker.new_tallied, fun _ _ => rfl, fun _ _ _ => rfl⟩

theorem Tracks.runAll (distinct : topology.locations.Nodup) {fuel : Nat} (later : List (ZeroTrackingCall T)) :
    ∀ {calls : List (ZeroTrackingCall T)} {tracker next : Tracker T topology}, Tracks calls tracker →
      runAll fuel later tracker = some next → Tracks (calls ++ later) next := by
  induction later with
  | nil =>
    intro calls tracker next tracks done
    cases done
    rw [List.append_nil]
    exact tracks
  | cons call rest ih =>
    intro calls tracker next tracks done
    obtain ⟨middle, first, others⟩ := Option.bind_eq_some_iff.mp done
    rw [List.append_cons]
    exact ih (tracks.run distinct first) others

/-- Nothing is pending at the ports of the graph. -/
def Applied (tracker : Tracker T topology) : Prop :=
  ∀ location ∈ topology.locations, ∀ time, (tracker.pending location).net time = 0

theorem applied_applyPending
    (tracker : Tracker T topology) : Applied tracker.applyPending := fun location member time =>
  ChangeBatch.net_of_isEmptyClean ((Tracker.foldl_drainPort_clears topology.locations tracker location).1 member) time

theorem applied_of_drains (drains : call.drains = true) (done : call.run fuel tracker = some next) : Applied next := by
  cases call with
  | applyPending =>
    cases done
    exact applied_applyPending tracker
  | propagateAll =>
    intro location member time
    rw [(Tracker.propagateWorklist_unchanged done location).2]
    exact applied_applyPending tracker location member time
  | _ => cases drains

/-- A call that posts nothing leaves nothing pending. -/
theorem Applied.run (applied : Applied tracker) (silent : call.posts = none)
    (done : call.run fuel tracker = some next) : Applied next := by
  cases call with
  | updateTarget => cases silent
  | updateSource => cases silent
  | applyPending => exact applied_of_drains rfl done
  | propagateAll => exact applied_of_drains rfl done
  | propagateWorklist =>
    intro location member time
    rw [(Tracker.propagateWorklist_unchanged done location).2]
    exact applied location member time
  | setCounted counted =>
    cases done
    exact applied

/-- For every graph and every sequence of calls: no drain of a port ever takes one off a zero counter, and after a call
that applies the pending changes, until the next change is posted, the zero tests agree with a recount. -/
theorem runAll_recounts (builder : Builder S) (tables : PathTables S) (fuel : Nat) (calls : List (ZeroTrackingCall T))
    {tracker : Tracker T (builder.topology tables)} (done : runAll fuel calls Tracker.new = some tracker) :
    (∀ places location rest, builder.locations = places ++ location :: rest →
      ¬ (places.foldl Tracker.drainPort tracker).Underflows location) ∧
    ∀ before drain later, calls = before ++ drain :: later → drain.drains = true →
      (∀ call ∈ later, call.posts = none) → tracker.Recounts (chosenAfter calls) (netPosted calls) := by
  have distinct : (builder.topology tables).locations.Nodup := builder.locations_nodup
  have tracks : Tracks calls tracker := Tracks.runAll distinct calls Tracks.new done
  refine ⟨fun places location rest split => ?_, fun before drain later split drains silent => ?_⟩
  · have inGraph : ∀ place, place ∈ places ++ location :: rest → place ∈ (builder.topology tables).locations :=
      fun place member => show place ∈ builder.locations from split ▸ member
    exact (tracks.tallied.foldl_drainPort distinct places fun place member =>
      inGraph place (List.mem_append_left _ member)).not_underflows
        (inGraph location (List.mem_append_right places List.mem_cons_self))
  · have ran := done
    rw [split, ZeroTrackingCall.runAll, List.foldlM_append] at ran
    obtain ⟨start, _, ran⟩ := Option.bind_eq_some_iff.mp ran
    obtain ⟨middle, drained, ran⟩ := Option.bind_eq_some_iff.mp ran
    have applied : Applied tracker := foldlM_some_invariant Applied later
      (fun call member _ _ applied done => applied.run (silent call member) done) (applied_of_drains drains drained) ran
    refine tracks.tallied.recounts (fun location member time => ?_) tracks.outside
    rw [← tracks.posted, Tracker.posted, applied location member time, Int.add_zero]

/-- A port of the ring gets a count and loses it again while it is not counted. -/
theorem ring_recounts : ∃ tracker : Tracker (Unsigned 64) (ring.topology fun _ _ => Antichain.new),
    runAll 20 [updateTarget 1 0 4 1, propagateAll, setCounted (fun location => location != .target 1 0),
      updateTarget 1 0 4 (-1), propagateAll] Tracker.new = some tracker ∧
    (∀ places location rest, ring.locations = places ++ location :: rest →
      ¬ (places.foldl Tracker.drainPort tracker).Underflows location) ∧
    tracker.Recounts (fun location => location != .target 1 0) (netPosted [updateTarget 1 0 4 1, propagateAll,
      setCounted (fun location => location != .target 1 0), updateTarget 1 0 4 (-1), propagateAll]) := by
  obtain ⟨tracker, ran⟩ : ∃ tracker : Tracker (Unsigned 64) (ring.topology fun _ _ => Antichain.new),
    runAll 20 [updateTarget 1 0 4 1, propagateAll, setCounted (fun location => location != .target 1 0),
      updateTarget 1 0 4 (-1), propagateAll] Tracker.new = some tracker := ⟨_, rfl⟩
  obtain ⟨safe, recount⟩ := runAll_recounts ring _ 20 _ ran
  exact ⟨tracker, ran, safe, recount [_, _, _, _] propagateAll [] rfl rfl nofun⟩

end ZeroTrackingCall

end Instancy
