import Instancy.Progress.Reachability.Propagation
import Instancy.Progress.Reachability.Walk

namespace Instancy

open Library Relation MutableAntichain

namespace Builder

variable {T S : Type} [UnsignedSummary S] {builder : Builder S}

/-- The facts about a graph on which its trackers rely. -/
structure Sound (builder : Builder S) : Prop where
  wellFormed : builder.WellFormed
  reach : builder.EdgesReachInputs
  acyclic : ∀ location, ¬ TransGen builder.IdentityHop location location

theorem Assembled.sound (assembled : Assembled builder) (reach : builder.EdgesReachInputs) {fuel : Nat}
    (noCycle : builder.findIdentityCycle fuel = some none) : builder.Sound :=
  ⟨assembled.wellFormed, reach, assembled.wellFormed.acyclic reach noCycle⟩

theorem identityHop_locations (sound : builder.Sound) (origin finish : Location)
    (hop : builder.IdentityHop origin finish) : origin ∈ builder.locations ∧ finish ∈ builder.locations :=
  ⟨sound.wellFormed.hop_origin hop, sound.wellFormed.hop_finish sound.reach hop⟩

variable [UnsignedTimestamp T S]

/-- The tables of a graph have the hops of the graph. -/
theorem tableStep_iff (wellFormed : builder.WellFormed) {tables : PathTables S} {before after : Location × T} :
    Tracker.TableStep (builder.topology tables) before after ↔ builder.Step before after := by
  constructor
  · intro step
    exact mem_forward.mp step.2
  · intro step
    have ⟨_, hop, _⟩ := step
    exact ⟨wellFormed.hop_origin hop, mem_forward.mpr step⟩

theorem tableStep_eq (wellFormed : builder.WellFormed) {tables : PathTables S} :
    Tracker.TableStep (builder.topology tables) = (builder.Step : Location × T → Location × T → Prop) := by
  funext before after
  exact propext (tableStep_iff wellFormed)

theorem forwardClosed (sound : builder.Sound) (tables : PathTables S) :
    Tracker.ForwardClosed (builder.topology tables) T := by
  intro origin time hop reached
  obtain ⟨summary, found, _⟩ := mem_forward.mp reached
  exact sound.wellFormed.hop_finish sound.reach found

/-- Steps make no endless descent: they lower the time or follow an identity hop backwards. -/
theorem step_wellFounded (sound : builder.Sound) : WellFounded (builder.Step : Location × T → Location × T → Prop) := by
  have hops : WellFounded builder.IdentityHop :=
    wellFounded_of_acyclic builder.locations.toFinset.finite_toSet
      (fun origin finish hop => by
        simpa using identityHop_locations sound origin finish hop) sound.acyclic
  have lex : WellFounded (Prod.Lex ((· < ·) : T → T → Prop) builder.IdentityHop) :=
    WellFounded.prod_lex wellFounded_lt hops
  refine Subrelation.wf ?_ (InvImage.wf (fun point : Location × T => (point.2, point.1)) lex)
  intro before after step
  rcases eq_or_lt_of_le step.le with same | earlier
  · exact Prod.lex_def.mpr (Or.inr ⟨same, step.identity_of_eq same⟩)
  · exact Prod.lex_def.mpr (Or.inl earlier)

/-- A pointstamp comes after another one if it is later, or an identity hop further at the same time. -/
def After (builder : Builder S) (later earlier : Location × T) : Prop :=
  OrdLt earlier.2 later.2 ∨ earlier.2 = later.2 ∧ builder.IdentityHop earlier.1 later.1

/-- Work at finitely many times makes no endless ascent. -/
theorem after_wellFounded (sound : builder.Sound) {busy : Set T} (finite : busy.Finite) :
    WellFounded fun later earlier : Location × T => earlier.2 ∈ busy ∧ builder.After later earlier := by
  have hops : WellFounded (flip builder.IdentityHop) :=
    wellFounded_flip_of_acyclic builder.locations.toFinset.finite_toSet
      (fun origin finish hop => by
        simpa using identityHop_locations sound origin finish hop) sound.acyclic
  have order : IsStrictOrder T fun later earlier : T => OrdLt earlier later :=
    { irrefl := OrdLt.irrefl
      trans := fun _ _ _ first second => second.trans first }
  have times := Set.wellFoundedOn_iff.mp
    (finite.wellFoundedOn (r := fun later earlier : T => OrdLt earlier later))
  have lex := InvImage.wf (fun point : Location × T => (point.2, point.1)) (WellFounded.prod_lex times hops)
  have unbusy : ∀ point : Location × T, point.2 ∉ busy →
      Acc (fun later earlier : Location × T => earlier.2 ∈ busy ∧ builder.After later earlier) point :=
    fun point idle => ⟨point, fun _ after => absurd after.1 idle⟩
  refine ⟨fun point => ?_⟩
  induction point using lex.induction with
  | _ point ih =>
    refine ⟨point, fun later after => ?_⟩
    by_cases member : later.2 ∈ busy
    · apply ih later
      rcases after.2 with strict | ⟨same, hop⟩
      · exact Prod.lex_def.mpr (Or.inl ⟨strict, member, after.1⟩)
      · exact Prod.lex_def.mpr (Or.inr ⟨same.symm, hop⟩)
    · exact unbusy later member

/-- A hop from a time at or after a pointstamp leads to a pointstamp after it. -/
theorem after_of_step {location : Location} {time moved : T} {finish : Location × T} (later : time ≤ moved)
    (step : builder.Step (location, moved) finish) : builder.After finish (location, time) := by
  have onward : time ≤ finish.2 := later.trans step.le
  by_cases same : time = finish.2
  · have still : moved = finish.2 := le_antisymm step.le (same ▸ later)
    exact Or.inr ⟨same, step.identity_of_eq still⟩
  · exact Or.inl ⟨ordLe_of_le onward, same⟩

end Builder

namespace Tracker

variable {T S : Type} [UnsignedSummary S] [UnsignedTimestamp T S] {builder : Builder S} {tables : PathTables S}

/-- The pointstamps that a worklist still has to visit. -/
def keys (worklist : List (WorklistEntry T)) : Multiset (Location × T) :=
  (worklist.map fun entry => (entry.location, entry.time) : List (Location × T))

omit [UnsignedSummary S] [UnsignedTimestamp T S] in
theorem keys_append (first second : List (WorklistEntry T)) : keys (first ++ second) = keys first + keys second := by
  unfold keys
  rw [List.map_append]
  rfl

theorem keys_push (worklist entries : List (WorklistEntry T)) :
    keys (push worklist entries) = keys entries + keys worklist := by
  rw [← keys_append]
  exact Multiset.coe_eq_coe.mpr ((push_perm worklist entries).map _)

variable {tracker : Tracker T (builder.topology tables)}

/-- A round replaces a pointstamp of the worklist by later ones if it has work to do there. -/
theorem propagateStep_descends {busy : Set T} {next : Tracker T (builder.topology tables)}
    (working : ∀ entry rest, tracker.worklist = entry :: rest →
      (accumulate entry.time entry.location entry.diff rest).1 ≠ 0 → entry.time ∈ busy)
    (step : tracker.propagateStep = some next) :
    TransGen (CutExpand fun later earlier => earlier.2 ∈ busy ∧ builder.After later earlier) (keys next.worklist)
      (keys tracker.worklist) := by
  obtain ⟨entry, rest, found, outcome⟩ := propagateStep_eq step
  obtain ⟨taken, split, _, _⟩ := accumulate_spec entry.time entry.location entry.diff rest
  have before : keys tracker.worklist = (entry.location, entry.time) ::ₘ
      (keys taken + keys (accumulate entry.time entry.location entry.diff rest).2) := by
    rw [found, ← keys_append, ← split]
    rfl
  rw [before]
  rcases outcome with ⟨_, same⟩ | ⟨nonzero, same⟩
  · subst same
    have dropped := transGen_cutExpand_round
      (fun later earlier => earlier.2 ∈ busy ∧ builder.After later earlier) (entry.location, entry.time) (keys taken)
      (keys (accumulate entry.time entry.location entry.diff rest).2) 0
      (fun _ member => absurd member (Multiset.notMem_zero _))
    rwa [Multiset.zero_add] at dropped
  · subst same
    unfold propagateAt
    rw [keys_push]
    apply transGen_cutExpand_round
    intro point member
    refine ⟨working entry rest found nonzero, ?_⟩
    obtain ⟨pushed, fresh, same⟩ := List.mem_map.mp (Multiset.mem_coe.mp member)
    obtain ⟨change, moved, hopped⟩ := List.mem_flatMap.mp fresh
    obtain ⟨hop, reached, isPushed⟩ := List.mem_map.mp hopped
    rw [← same, ← isPushed]
    exact Builder.after_of_step (updateIter_single_le _ entry.time _ moved) (Builder.mem_forward.mp reached)

/-- The loop ends with every large fuel if it only ever works at finitely many times. -/
theorem propagateWorklist_ends (sound : builder.Sound) {busy : Set T} (finite : busy.Finite)
    {holds : Tracker T (builder.topology tables) → Prop}
    (keeps : ∀ tracker next, holds tracker → tracker.propagateStep = some next → holds next)
    (working : ∀ tracker, holds tracker → ∀ entry rest, tracker.worklist = entry :: rest →
      (accumulate entry.time entry.location entry.diff rest).1 ≠ 0 → entry.time ∈ busy) (start : holds tracker) :
    ∃ bound result, ∀ fuel, bound ≤ fuel → tracker.propagateWorklist fuel = some result := by
  have descent := InvImage.wf (fun tracker : Tracker T (builder.topology tables) => keys tracker.worklist)
    (Builder.after_wellFounded sound finite).cutExpand.transGen
  exact loop_terminates holds descent keeps
    (fun current _ held step => propagateStep_descends (working current held) step) tracker start

theorem propagateWorklist_terminates [Finite T] (sound : builder.Sound)
    (tracker : Tracker T (builder.topology tables)) :
    ∃ bound result, ∀ fuel, bound ≤ fuel → tracker.propagateWorklist fuel = some result :=
  propagateWorklist_ends sound Set.finite_univ (fun _ _ _ _ => trivial) (fun _ _ _ _ _ _ => trivial)
    (trivial : (fun _ => True) tracker)

theorem propagateStep_none (done : tracker.propagateStep = none) :
    tracker.worklist = [] := by
  unfold propagateStep at done
  split at done
  · assumption
  · dsimp only at done
    split at done
    · cases done
    · split at done <;> cases done

/-- A tracker between two calls: nothing is owed, and nothing is pending at an unregistered port. -/
structure Settled (tracker : Tracker T (builder.topology tables)) : Prop where
  consistent : tracker.Consistent
  worklist : tracker.worklist = []
  quiet : ∀ location, location ∉ builder.locations → ∀ time, (tracker.pending location).net time = 0

/-- The frontiers are those of everything that the posted counts can reach. -/
def Exact (tracker : Tracker T (builder.topology tables)) : Prop :=
  ∀ location, IsFrontier (tracker.frontierAt location)
    (Reached builder.Step (fun origin start => 0 < tracker.posted origin start) location)

theorem frontierAt_eq (tracker : Tracker T (builder.topology tables)) (location : Location) :
    tracker.frontierAt location = (tracker.ports location).implications.frontier := by
  cases location <;> rfl

/-- A consistent tracker with nothing owed and nothing pending is exact. -/
theorem Consistent.exact {tracker : Tracker T (builder.topology tables)} (sound : builder.Sound)
    (consistent : tracker.Consistent) (settled : tracker.worklist = [])
    (applied : ∀ location time, (tracker.pending location).net time = 0) : tracker.Exact := by
  have solved := consistent.balanced.locallyExact settled
  rw [Builder.tableStep_eq sound.wellFormed] at solved
  intro location
  rw [frontierAt_eq]
  have samePosted : (fun origin start => 0 < tracker.posted origin start) =
      fun origin start => 0 < (tracker.ports origin).pointstamps.countFor start := by
    funext origin start
    rw [posted, applied, Int.add_zero]
  rw [samePosted]
  exact solved.isFrontier_of_holds builder.step_monotone (Builder.step_wellFounded sound)
    (fun origin => (tracker.ports origin).pointstamps.isFrontier) location

/-- The loop keeps the posted counts and ends exact if nothing is pending. -/
theorem propagateWorklist_spec {result : Tracker T (builder.topology tables)} (sound : builder.Sound)
    (consistent : tracker.Consistent) {fuel : Nat} (ended : tracker.propagateWorklist fuel = some result) :
    result.Consistent ∧ result.worklist = [] ∧
      (∀ location, (result.ports location).pointstamps = (tracker.ports location).pointstamps) ∧
      ∀ location, result.pending location = tracker.pending location := by
  have kept := loop_invariant (fun current : Tracker T (builder.topology tables) => current.Consistent)
    (fun current next holds step => propagateStep_consistent (Builder.forwardClosed sound tables) holds step)
    consistent ended
  exact ⟨kept.1, propagateStep_none kept.2, fun location => (propagateWorklist_unchanged ended location).1,
    fun location => (propagateWorklist_unchanged ended location).2⟩

/-- Every propagation from a settled tracker ends with every large fuel. -/
def PropagationEnds (T : Type) [UnsignedTimestamp T S] (builder : Builder S) (tables : PathTables S) : Prop :=
  ∀ tracker : Tracker T (builder.topology tables), tracker.Settled →
    ∃ bound result, ∀ fuel, bound ≤ fuel → tracker.drainPendingChanges.propagateWorklist fuel = some result

/-- A propagation from a settled tracker ends settled and exact, with the same posted counts. -/
theorem propagateAll_spec (sound : builder.Sound)
    (ends : PropagationEnds T builder tables) (settled : tracker.Settled) :
    ∃ bound result, (∀ fuel, bound ≤ fuel → tracker.propagateAll fuel = some result) ∧ result.Settled ∧
      result.Exact ∧ ∀ location time, result.posted location time = tracker.posted location time := by
  obtain ⟨drainConsistent, drainPosted, drainPending⟩ :=
    foldl_drainPort settled.consistent builder.locations fun _ member => member
  have noPending : ∀ location time, ((tracker.drainPendingChanges).pending location).net time = 0 := by
    intro location
    apply drainPending
    by_cases member : location ∈ builder.locations
    · exact Or.inl member
    · exact Or.inr (settled.quiet location member)
  obtain ⟨bound, result, ended⟩ := ends tracker settled
  obtain ⟨consistent, empty, samePoints, samePending⟩ :=
    propagateWorklist_spec sound drainConsistent (ended bound le_rfl)
  have applied : ∀ location time, (result.pending location).net time = 0 := by
    intro location time
    rw [samePending]
    exact noPending location time
  refine ⟨bound, result, ended, ⟨consistent, empty, fun location _ => applied location⟩,
    consistent.exact sound empty applied, fun location time => ?_⟩
  rw [← drainPosted location time]
  unfold posted
  rw [samePoints, samePending]

end Tracker

section Calls

variable {T S : Type} [UnsignedSummary S] [UnsignedTimestamp T S]

/-- The calls that a user of a tracker makes. -/
inductive TrackerCall (T : Type) where
  | updateTarget (node port : Nat) (time : T) (diff : Int)
  | updateSource (node port : Nat) (time : T) (diff : Int)
  | propagateAll

namespace TrackerCall

/-- The count change that a call posts. -/
def posts : TrackerCall T → Option ((Location × T) × Int)
  | updateTarget node port time diff => some ((.target node port, time), diff)
  | updateSource node port time diff => some ((.source node port, time), diff)
  | propagateAll => none

/-- The call names a port of the graph. -/
def InRange (builder : Builder S) (call : TrackerCall T) : Prop :=
  ∀ change, call.posts = some change → change.1.1 ∈ builder.locations

def run {topology : Topology S} (fuel : Nat) (tracker : Tracker T topology) :
    TrackerCall T → Option (Tracker T topology)
  | updateTarget node port time diff => tracker.updateTarget node port time diff
  | updateSource node port time diff => tracker.updateSource node port time diff
  | propagateAll => tracker.propagateAll fuel

/-- The calls run one after the other; a panic or a lack of fuel has no result. -/
def runAll {topology : Topology S} (fuel : Nat) : List (TrackerCall T) → Tracker T topology →
    Option (Tracker T topology)
  | [], tracker => some tracker
  | call :: rest, tracker => (call.run fuel tracker).bind (runAll fuel rest)

/-- The net count that a sequence of calls posts at a pointstamp. -/
def netPosted (calls : List (TrackerCall T)) (location : Location) (time : T) : Int :=
  netOf (calls.filterMap posts) (location, time)

variable {builder : Builder S} {tables : PathTables S}

theorem netPosted_cons (call : TrackerCall T) (rest : List (TrackerCall T)) (location : Location) (time : T) :
    netPosted (call :: rest) location time = netPosted [call] location time + netPosted rest location time := by
  unfold netPosted
  rw [← netOf_append, ← List.filterMap_append]
  rfl

variable {tracker : Tracker T (builder.topology tables)}

/-- A change posted at a registered port is pending there. -/
theorem post_spec (settled : tracker.Settled) {location : Location}
    (registered : location ∈ builder.locations) (time : T) (diff : Int) :
    ∃ next, tracker.post location time diff = some next ∧ next.Settled ∧ ∀ place instant,
      next.posted place instant = netOf [((location, time), diff)] (place, instant) + tracker.posted place instant := by
  obtain ⟨next, done, posts⟩ := tracker.post_posts registered time diff
  refine ⟨next, done, ⟨posts.consistent settled.consistent, posts.worklist.trans settled.worklist,
    fun place outside => ?_⟩, fun place instant => (posts.posted place instant).trans (Int.add_comm _ _)⟩
  rw [posts.pending place fun same => outside (same ▸ registered)]
  exact settled.quiet place outside

/-- Every call of a settled tracker ends settled and posts its change. -/
theorem run_spec (sound : builder.Sound)
    (ends : Tracker.PropagationEnds T builder tables) (settled : tracker.Settled) (call : TrackerCall T) (inRange : call.InRange builder) :
    ∃ bound next, (∀ fuel, bound ≤ fuel → call.run fuel tracker = some next) ∧ next.Settled ∧
      (∀ location time, next.posted location time =
        netPosted [call] location time + tracker.posted location time) ∧
      (call = propagateAll → next.Exact) := by
  cases call with
  | updateTarget node port time diff =>
    obtain ⟨next, done, nextSettled, counts⟩ :=
      post_spec settled (inRange ((.target node port, time), diff) rfl) time diff
    exact ⟨0, next, fun _ _ => done, nextSettled, counts, fun wrong => by cases wrong⟩
  | updateSource node port time diff =>
    obtain ⟨next, done, nextSettled, counts⟩ :=
      post_spec settled (inRange ((.source node port, time), diff) rfl) time diff
    exact ⟨0, next, fun _ _ => done, nextSettled, counts, fun wrong => by cases wrong⟩
  | propagateAll =>
    obtain ⟨bound, result, ended, resultSettled, exactly, counts⟩ := Tracker.propagateAll_spec sound ends settled
    refine ⟨bound, result, ended, resultSettled, fun location time => ?_, fun _ => exactly⟩
    rw [counts]
    exact (Int.zero_add _).symm

/-- A sequence of calls ends settled, with the net count of everything it posts. -/
theorem runAll_spec (sound : builder.Sound)
    (ends : Tracker.PropagationEnds T builder tables) (settled : tracker.Settled) (calls : List (TrackerCall T)) (inRange : ∀ call ∈ calls, call.InRange builder) :
    ∃ bound next, (∀ fuel, bound ≤ fuel → runAll fuel calls tracker = some next) ∧ next.Settled ∧
      ∀ location time, next.posted location time =
        netPosted calls location time + tracker.posted location time := by
  induction calls generalizing tracker with
  | nil => exact ⟨0, tracker, fun _ _ => rfl, settled, fun _ _ => (Int.zero_add _).symm⟩
  | cons call rest ih =>
    obtain ⟨first, middle, ran, middleSettled, middleCounts, _⟩ :=
      run_spec sound ends settled call (inRange call List.mem_cons_self)
    obtain ⟨second, last, ranRest, lastSettled, lastCounts⟩ :=
      ih middleSettled fun other member => inRange other (List.mem_cons_of_mem call member)
    refine ⟨max first second, last, fun fuel enough => ?_, lastSettled, fun location time => ?_⟩
    · rw [runAll, ran fuel (by omega), Option.bind_some]
      exact ranRest fuel (by omega)
    · rw [lastCounts, middleCounts, netPosted_cons call rest]
      omega

theorem runAll_append {topology : Topology S} (fuel : Nat) (first second : List (TrackerCall T))
    (tracker : Tracker T topology) :
    runAll fuel (first ++ second) tracker = (runAll fuel first tracker).bind (runAll fuel second) := by
  induction first generalizing tracker with
  | nil => rfl
  | cons call rest ih =>
    rw [List.cons_append, runAll, runAll, Option.bind_assoc]
    congr 1
    funext middle
    exact ih middle

theorem new_settled : (Tracker.new : Tracker T (builder.topology tables)).Settled := by
  refine ⟨⟨fun location time => ?_, fun entry member => absurd member List.not_mem_nil⟩, rfl, fun _ _ _ => rfl⟩
  have none : (Tracker.new : Tracker T (builder.topology tables)).inflow (location, time) = 0 :=
    Finset.sum_eq_zero fun _ _ => rfl
  rw [none]
  rfl

end TrackerCall

/-- The times that the posted counts of some calls imply at a location: walks from positive pointstamps. -/
def Implied (builder : Builder S) (calls : List (TrackerCall T)) (location : Location) (time : T) : Prop :=
  ∃ origin start summary, 0 < TrackerCall.netPosted calls origin start ∧
    builder.Walk origin location summary ∧ resultsIn summary start = some time

open TrackerCall in
/-- After every propagation, each frontier is the set of minimal times that the posted counts imply. -/
theorem runAll_propagateAll_frontier [Finite T] {builder : Builder S} (assembled : Builder.Assembled builder)
    (reach : builder.EdgesReachInputs) {searchFuel buildFuel : Nat}
    (noCycle : builder.findIdentityCycle searchFuel = some none) {built : Built T S}
    (isBuilt : builder.build buildFuel = some built) (calls : List (TrackerCall T))
    (inRange : ∀ call ∈ calls, call.InRange builder) :
    ∃ bound tracker, (∀ fuel, bound ≤ fuel → runAll fuel (calls ++ [propagateAll]) built.tracker = some tracker) ∧
      (∀ node port time, time ∈ tracker.targetFrontier node port ↔
        Minimal (Implied builder calls (.target node port)) time) ∧
      ∀ node port time, time ∈ tracker.sourceFrontier node port ↔
        Minimal (Implied builder calls (.source node port)) time := by
  have sound := assembled.sound reach noCycle
  obtain ⟨tables, _, same⟩ := Option.map_eq_some_iff.mp isBuilt
  subst same
  have ends : Tracker.PropagationEnds T builder tables :=
    fun tracker _ => Tracker.propagateWorklist_terminates sound tracker.drainPendingChanges
  obtain ⟨first, middle, ran, settled, counts⟩ := runAll_spec sound ends new_settled calls inRange
  obtain ⟨second, last, propagated, _, lastCounts, exactly⟩ :=
    run_spec sound ends settled propagateAll fun _ impossible => by cases impossible
  have frontier : ∀ location time, time ∈ last.frontierAt location ↔
      Minimal (Implied builder calls location) time := by
    intro location time
    refine ((exactly rfl location).congr fun instant => ?_).mem_iff_minimal time
    have samePosted : ∀ origin start, last.posted origin start = netPosted calls origin start := by
      intro origin start
      rw [lastCounts, counts]
      exact (Int.zero_add _).trans (Int.add_zero _)
    unfold Reached Implied
    simp only [samePosted, Builder.reflTransGen_step_iff]
    constructor
    · intro found
      obtain ⟨origin, start, positive, summary, walk, moved⟩ := found
      exact ⟨origin, start, summary, positive, walk, moved⟩
    · intro found
      obtain ⟨origin, start, summary, positive, walk, moved⟩ := found
      exact ⟨origin, start, positive, summary, walk, moved⟩
  refine ⟨max first second, last, fun fuel enough => ?_, fun node port => frontier (.target node port),
    fun node port => frontier (.source node port)⟩
  rw [runAll_append, ran fuel (by omega), Option.bind_some, runAll, propagated fuel (by omega)]
  rfl

/-- Two operators in a ring: the first passes times on and the second adds one. -/
def ringSteps : Except DataflowError (Builder (Unsigned 64)) := do
  let one ← (Builder.new 0 0).addNode 1 1 1 (PortConnectivity.ofIdentity 0)
  let two ← one.addNode 2 1 1 (PortConnectivity.ofIdentity 1)
  let forth ← two.addEdge (.source 1 0) (.target 2 0)
  forth.addEdge (.source 2 0) (.target 1 0)

def ring : Builder (Unsigned 64) :=
  match ringSteps with
  | .ok builder => builder
  | .error _ => Builder.new 0 0

theorem ring_assembled : Builder.Assembled ring := by
  have boundary : Builder.Assembled (Builder.new 0 0 : Builder (Unsigned 64)) := Builder.Assembled.new 0 0
  have one := @Builder.Assembled.addNode _ _ _ _ 1 1 1 (PortConnectivity.ofIdentity 0) boundary (by decide) rfl
  have two := @Builder.Assembled.addNode _ _ _ _ 2 1 1 (PortConnectivity.ofIdentity 1) one (by decide) rfl
  have forth := @Builder.Assembled.addEdge _ _ _ _ (.source 1 0) (.target 2 0) two rfl
  exact @Builder.Assembled.addEdge _ _ _ _ (.source 2 0) (.target 1 0) forth rfl

open TrackerCall in
theorem ring_frontier : ∃ built : Built (Unsigned 64) (Unsigned 64), ring.build 5 = some built ∧
    ∃ bound tracker, (∀ fuel, bound ≤ fuel → runAll fuel ([updateSource 1 0 5 1, updateSource 1 0 3 (-1)] ++
        [propagateAll]) built.tracker = some tracker) ∧
      (∀ node port time, time ∈ tracker.targetFrontier node port ↔
        Minimal (Implied ring [updateSource 1 0 5 1, updateSource 1 0 3 (-1)] (.target node port)) time) ∧
      ∀ node port time, time ∈ tracker.sourceFrontier node port ↔
        Minimal (Implied ring [updateSource 1 0 5 1, updateSource 1 0 3 (-1)] (.source node port)) time :=
  ⟨_, rfl, runAll_propagateAll_frontier ring_assembled (ring_assembled.wellFormed.edgesReachInputs (by decide))
    (show ring.findIdentityCycle 10 = some none by decide) (show ring.build 5 = some _ from rfl) _ (by
      intro call member change posted
      simp only [List.mem_cons, List.not_mem_nil, or_false] at member
      rcases member with same | same <;> subst same <;> cases posted <;> decide)⟩

end Calls

end Instancy
