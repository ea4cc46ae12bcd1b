import Instancy.Progress.Reachability.Correctness
import Instancy.Progress.Reachability.Tables

namespace Instancy

open Library Relation MutableAntichain

namespace WorklistEntry

variable {T : Type} [TotalOrd T]

theorem time_le {first second : WorklistEntry T} (below : ordLe first second) : ordLe first.time second.time := below.1

/-- An entry between two entries of one time and location has that time and location too. -/
theorem same_key {first middle last : WorklistEntry T} (low : ordLe first middle) (high : ordLe middle last)
    (sameTime : last.time = first.time) (sameLocation : last.location = first.location) :
    middle.time = first.time ∧ middle.location = first.location := by
  have time : middle.time = first.time :=
    TotalOrd.ordLe_antisymm _ _ (sameTime ▸ time_le high) (time_le low)
  have lowLocation : ordLe first.location middle.location := by
    apply (low.2 _).1
    change ordLe middle.time first.time
    rw [time]
    exact ordLe_refl _
  have highLocation : ordLe middle.location last.location := by
    apply (high.2 _).1
    change ordLe last.time middle.time
    rw [sameTime, time]
    exact ordLe_refl _
  exact ⟨time, TotalOrd.ordLe_antisymm _ _ (sameLocation ▸ highLocation) lowLocation⟩

end WorklistEntry

namespace Tracker

section Ordered

variable {T S : Type} [PathSummary S] [Timestamp T S] {topology : Topology S} {tracker next : Tracker T topology}

/-- The entries of the worklist stand in the order of the heap. -/
def Ordered (tracker : Tracker T topology) : Prop := tracker.worklist.Pairwise ordLe

theorem push_ordered {worklist : List (WorklistEntry T)} (ordered : worklist.Pairwise ordLe)
    (entries : List (WorklistEntry T)) : (push worklist entries).Pairwise ordLe := by
  unfold push
  induction entries generalizing worklist with
  | nil => exact ordered
  | cons entry rest ih =>
    exact ih (ordered.orderedInsert entry worklist)

theorem accumulate_sublist (time : T) (location : Location) (diff : Int) (worklist : List (WorklistEntry T)) :
    (accumulate time location diff worklist).2.Sublist worklist := by
  obtain ⟨taken, split, _⟩ := accumulate_spec time location diff worklist
  conv_rhs => rw [split]
  exact List.sublist_append_right taken _

/-- In an ordered worklist the entries of the first key stand together, so the sum takes all of them. -/
theorem accumulate_clears {entry : WorklistEntry T} {rest : List (WorklistEntry T)}
    (ordered : (entry :: rest).Pairwise ordLe) (diff : Int) :
    ∀ other ∈ (accumulate entry.time entry.location diff rest).2,
      ¬ (other.time = entry.time ∧ other.location = entry.location) := by
  induction rest generalizing diff with
  | nil => exact nofun
  | cons second rest ih =>
    have tail : (entry :: rest).Pairwise ordLe :=
      ordered.sublist (List.Sublist.cons_cons entry (List.sublist_cons_self second rest))
    unfold accumulate
    split
    · exact ih tail (diff + second.diff)
    · rename_i apart
      intro other member same
      obtain ⟨first, later⟩ := List.pairwise_cons.mp ordered
      rcases List.mem_cons.mp member with isSecond | inRest
      · exact apart (isSecond ▸ same)
      · exact apart (WorklistEntry.same_key (first second List.mem_cons_self)
          ((List.pairwise_cons.mp later).1 other inRest) same.1 same.2)

section

variable (ordered : tracker.Ordered)
include ordered

/-- The sum of the first key is all that is owed to it. -/
theorem Ordered.accumulate_eq {entry : WorklistEntry T} {rest : List (WorklistEntry T)}
    (found : tracker.worklist = entry :: rest) : (accumulate entry.time entry.location entry.diff rest).1 =
      netOf (owed tracker.worklist) (entry.location, entry.time) := by
  have isOrdered : (entry :: rest).Pairwise ordLe := found ▸ ordered
  have cleared : netOf (owed (accumulate entry.time entry.location entry.diff rest).2)
      (entry.location, entry.time) = 0 := by
    apply netOf_eq_zero
    intro change member same
    obtain ⟨other, remains, isOther⟩ := List.mem_map.mp member
    rw [← isOther, Prod.mk.injEq] at same
    exact accumulate_clears isOrdered entry.diff other remains ⟨same.2, same.1⟩
  rw [owed_pop found, cleared, if_pos rfl, Int.zero_add]

/-- Nothing is owed to a time before the first entry. -/
theorem Ordered.owed_before {entry : WorklistEntry T} {rest : List (WorklistEntry T)}
    (found : tracker.worklist = entry :: rest) (location : Location) {early : T} (before : OrdLt early entry.time) :
    netOf (owed tracker.worklist) (location, early) = 0 := by
  have isOrdered : (entry :: rest).Pairwise ordLe := found ▸ ordered
  apply netOf_eq_zero
  intro change member same
  obtain ⟨other, inside, isOther⟩ := List.mem_map.mp member
  rw [← isOther, Prod.mk.injEq] at same
  rw [found] at inside
  have later : ordLe entry.time other.time := by
    rcases List.mem_cons.mp inside with isFirst | inRest
    · exact isFirst ▸ ordLe_refl _
    · exact WorklistEntry.time_le ((List.pairwise_cons.mp isOrdered).1 other inRest)
  exact before.not_le (same.2 ▸ later)

theorem Ordered.propagateStep (step : tracker.propagateStep = some next) : next.Ordered := by
  obtain ⟨entry, rest, found, outcome⟩ := propagateStep_eq step
  have isOrdered : (entry :: rest).Pairwise ordLe := found ▸ ordered
  have remains : (accumulate entry.time entry.location entry.diff rest).2.Pairwise ordLe :=
    (List.pairwise_cons.mp isOrdered).2.sublist (accumulate_sublist _ _ _ rest)
  rcases outcome with ⟨_, same⟩ | ⟨_, same⟩
  · rw [same]
    exact remains
  · rw [same]
    exact push_ordered remains _

theorem Ordered.drainPort (location : Location) : (tracker.drainPort location).Ordered := by
  unfold Tracker.drainPort
  split
  · exact ordered
  · exact push_ordered ordered _

theorem Ordered.foldl_drainPort (places : List Location) : (places.foldl Tracker.drainPort tracker).Ordered := by
  induction places generalizing tracker with
  | nil => exact ordered
  | cons place rest ih => exact ih (ordered.drainPort place)

end

end Ordered

section Below

variable {T S : Type} [UnsignedSummary S] [UnsignedTimestamp T S] {builder : Builder S} {tables : PathTables S}
  {tracker : Tracker T (builder.topology tables)}

/-- The time is a seed of the propagation: it is on the frontier of the direct counts. -/
def Seeded (tracker : Tracker T (builder.topology tables)) (location : Location) (time : T) : Prop :=
  time ∈ (tracker.ports location).pointstamps.frontier

/-- The steps to the times before a limit. -/
def StepBefore (builder : Builder S) (limit : T) (before after : Location × T) : Prop :=
  builder.Step before after ∧ OrdLt after.2 limit

theorem stepBefore_monotone (limit : T) : StepMonotone (StepBefore builder limit) := by
  intro origin early late goal result ordered step
  obtain ⟨lower, below, taken⟩ := builder.step_monotone ordered step.1
  exact ⟨lower, below, taken, ordLe.trans_lt (ordLe_of_le below) step.2⟩

/-- A chain of steps that ends before a limit stays before it. -/
theorem reflTransGen_stepBefore {limit : T} {origin finish : Location × T}
    (chain : ReflTransGen builder.Step origin finish) (before : OrdLt finish.2 limit) :
    OrdLt origin.2 limit ∧ ReflTransGen (StepBefore builder limit) origin finish := by
  induction chain with
  | refl => exact ⟨before, ReflTransGen.refl⟩
  | tail _ last ih =>
    obtain ⟨started, walked⟩ := ih (ordLe.trans_lt (ordLe_of_le last.le) before)
    exact ⟨started, walked.tail ⟨last, before⟩⟩

/-- With nothing owed before a limit, the implications solve the frontier equations before it. -/
theorem Balanced.locallyExact_before (balanced : tracker.Balanced) (wellFormed : builder.WellFormed) {limit : T}
    (paid : ∀ location early, OrdLt early limit → netOf (owed tracker.worklist) (location, early) = 0) :
    LocallyExact (StepBefore builder limit)
      (fun location => (tracker.ports location).pointstamps.frontier.filter fun time => OrdLt time limit)
      (fun location => (tracker.ports location).implications.frontier.filter fun time => OrdLt time limit) := by
  have positive : ∀ location time, OrdLt time limit → (0 < (tracker.ports location).implications.countFor time ↔
      tracker.Seeded location time ∨ 0 < tracker.inflow (location, time)) := by
    intro location time before
    have balance := balanced location time
    rw [paid location time before, Int.add_zero] at balance
    have flow := tracker.inflow_nonneg (location, time)
    unfold Seeded
    unfold present at balance
    split at balance
    · rename_i member
      simp only [member, true_or, iff_true]
      omega
    · rename_i absent
      simp only [absent, false_or]
      omega
  have arrives : ∀ location time, OrdLt time limit → (0 < tracker.inflow (location, time) ↔ ∃ origin start,
      start ∈ (tracker.ports origin).implications.frontier.filter (fun time => OrdLt time limit) ∧
        StepBefore builder limit (origin, start) (location, time)) := by
    intro location time before
    simp only [tracker.inflow_pos_iff, Builder.tableStep_iff wellFormed, List.mem_filter, decide_eq_true_eq]
    constructor
    · intro found
      obtain ⟨origin, start, member, step⟩ := found
      exact ⟨origin, start, ⟨member, ordLe.trans_lt (ordLe_of_le step.le) before⟩, step, before⟩
    · intro found
      obtain ⟨origin, start, member, step⟩ := found
      exact ⟨origin, start, member.1, step.1⟩
  intro location
  have frontier := (tracker.ports location).implications.isFrontier
  refine ⟨frontier.incomparable.filter _, fun time member => ?_, fun time holds => ?_⟩
  · obtain ⟨onFrontier, isBefore⟩ := List.mem_filter.mp member
    have before := of_decide_eq_true isBefore
    rcases (positive location time before).mp (frontier.sound time onFrontier) with seeded | flows
    · exact Or.inl (List.mem_filter.mpr ⟨seeded, isBefore⟩)
    · exact Or.inr ((arrives location time before).mp flows)
  · have held : OrdLt time limit ∧ 0 < (tracker.ports location).implications.countFor time := by
      rcases holds with seeded | arrived
      · obtain ⟨member, isBefore⟩ := List.mem_filter.mp seeded
        have before := of_decide_eq_true isBefore
        exact ⟨before, (positive location time before).mpr (Or.inl member)⟩
      · have before : OrdLt time limit := by
          obtain ⟨_, _, _, step⟩ := arrived
          exact step.2
        exact ⟨before, (positive location time before).mpr (Or.inr ((arrives location time before).mpr arrived))⟩
    obtain ⟨below, member, under⟩ := frontier.covers time held.2
    exact ⟨below, List.mem_filter.mpr ⟨member, decide_eq_true (ordLe.trans_lt (ordLe_of_le under) held.1)⟩, under⟩

/-- With nothing owed before a limit, the frontier elements before it are final. -/
theorem Balanced.frontier_before (balanced : tracker.Balanced) (sound : builder.Sound) {limit : T}
    (paid : ∀ location early, OrdLt early limit → netOf (owed tracker.worklist) (location, early) = 0)
    {location : Location} {time : T} (member : time ∈ (tracker.ports location).implications.frontier)
    (before : OrdLt time limit) : Minimal (Reached builder.Step tracker.Seeded location) time := by
  have solved := balanced.locallyExact_before sound.wellFormed paid
  have wellFounded : WellFounded (StepBefore builder limit : Location × T → Location × T → Prop) :=
    Subrelation.wf (fun step => step.1) (Builder.step_wellFounded sound)
  have frontier := solved.isFrontier (stepBefore_monotone limit) wellFounded location
  have least := (frontier.mem_iff_minimal time).mp (List.mem_filter.mpr ⟨member, decide_eq_true before⟩)
  have reached : ∀ instant, OrdLt instant limit → (Reached builder.Step tracker.Seeded location instant ↔
      Reached (StepBefore builder limit) (fun origin start => start ∈
        (tracker.ports origin).pointstamps.frontier.filter fun time => OrdLt time limit) location instant) := by
    intro instant early
    constructor
    · intro found
      obtain ⟨origin, start, seeded, walk⟩ := found
      obtain ⟨started, walked⟩ := reflTransGen_stepBefore walk early
      exact ⟨origin, start, List.mem_filter.mpr ⟨seeded, decide_eq_true started⟩, walked⟩
    · intro found
      obtain ⟨origin, start, seeded, walk⟩ := found
      exact ⟨origin, start, (List.mem_filter.mp seeded).1, walk.lift id fun _ _ step => step.1⟩
  refine ⟨(reached time before).mpr least.1, fun other found below => ?_⟩
  exact least.2 ((reached other (ordLe.trans_lt (ordLe_of_le below) before)).mp found) below

end Below

section Busy

variable {T S : Type} [UnsignedSummary S] [UnsignedTimestamp T S] {builder : Builder S} {tables : PathTables S}
  {start tracker next : Tracker T (builder.topology tables)}

/-- The time has a nonzero implication count at some port. -/
def Occurs (tracker : Tracker T (builder.topology tables)) (time : T) : Prop :=
  ∃ location ∈ builder.locations, (tracker.ports location).implications.countFor time ≠ 0

/-- The times at which a propagation has work: those of the old implications, of the seeds, and of what arrives from the
final frontiers. -/
inductive Busy (start : Tracker T (builder.topology tables)) (time : T) : Prop where
  | occurs (found : start.Occurs time)
  | seeded {location : Location} (registered : location ∈ builder.locations) (member : start.Seeded location time)
  | arrives {origin location : Location} {early : T} (least : Minimal (Reached builder.Step start.Seeded origin) early)
      (step : builder.Step (origin, early) (location, time))

omit [UnsignedSummary S] [UnsignedTimestamp T S] in
theorem countFor_finite [TimeOrder T] (antichain : MutableAntichain T) :
    {time | antichain.countFor time ≠ 0}.Finite := by
  refine (antichain.updates.updates.map Prod.fst).finite_toSet.subset ?_
  intro time nonzero
  by_contra absent
  apply nonzero
  apply netOf_eq_zero
  intro change member same
  exact absent (same ▸ List.mem_map_of_mem member)

theorem step_finite (builder : Builder S) (tables : PathTables S) (origin : Location × T) :
    {time | ∃ location, builder.Step origin (location, time)}.Finite := by
  refine (((builder.topology tables).forward origin.1 origin.2).map Prod.snd).finite_toSet.subset ?_
  intro time found
  obtain ⟨location, step⟩ := found
  have member : (location, time) ∈ (builder.topology tables).forward origin.1 origin.2 := Builder.mem_forward.mpr step
  exact List.mem_map.mpr ⟨(location, time), member, rfl⟩

/-- A propagation has work at finitely many times, because the minimal times of a well-quasi-order are finitely many. -/
theorem busy_finite [WellQuasiOrderedLE T] (wellFormed : builder.WellFormed)
    (start : Tracker T (builder.topology tables)) : {time | start.Busy time}.Finite := by
  have occurring := builder.locations.finite_toSet.biUnion fun location _ =>
    countFor_finite (start.ports location).implications
  have seeds := builder.locations.finite_toSet.biUnion fun location _ =>
    (start.ports location).pointstamps.frontier.finite_toSet
  have arriving := builder.locations.finite_toSet.biUnion fun origin _ =>
    (WellQuasiOrderedLE.finite_of_isAntichain
      (setOfPred_minimal_antichain (Reached builder.Step start.Seeded origin))).biUnion fun early _ =>
        step_finite builder tables (origin, early)
  refine ((occurring.union seeds).union arriving).subset ?_
  intro time busy
  simp only [Set.mem_union, Set.mem_iUnion, Set.mem_ofPred_eq]
  cases busy with
  | occurs found =>
    obtain ⟨location, registered, nonzero⟩ := found
    exact Or.inl (Or.inl ⟨location, registered, nonzero⟩)
  | seeded registered member => exact Or.inl (Or.inr ⟨_, registered, member⟩)
  | arrives least step =>
    have ⟨_, hop, _⟩ := step
    exact Or.inr ⟨_, wellFormed.hop_origin hop, _, least, _, step⟩

/-- What every round of a propagation keeps: the implications change only at busy times. -/
structure Working (start tracker : Tracker T (builder.topology tables)) : Prop where
  consistent : tracker.Consistent
  ordered : tracker.Ordered
  points : ∀ location, (tracker.ports location).pointstamps = (start.ports location).pointstamps
  counts : ∀ time, tracker.Occurs time → start.Busy time
  entries : ∀ entry ∈ tracker.worklist, entry ∈ start.worklist ∨
    ∃ origin early, start.Busy early ∧ builder.Step (origin, early) (entry.location, entry.time)

theorem Working.of_start (consistent : start.Consistent) (ordered : start.Ordered) : start.Working start :=
  ⟨consistent, ordered, fun _ => rfl, fun _ => Busy.occurs, fun _ => Or.inl⟩

theorem Working.seeded (working : start.Working tracker) : tracker.Seeded = start.Seeded := by
  funext location time
  unfold Seeded
  rw [working.points]

/-- The frontier elements that a round meets before the time of its first entry are final. -/
theorem Working.final (working : start.Working tracker) (sound : builder.Sound) {entry : WorklistEntry T}
    {rest : List (WorklistEntry T)} (found : tracker.worklist = entry :: rest) {origin : Location} {early : T}
    (member : early ∈ (tracker.ports origin).implications.frontier) (before : OrdLt early entry.time) :
    Minimal (Reached builder.Step start.Seeded origin) early := by
  rw [← working.seeded]
  exact working.consistent.balanced.frontier_before sound
    (fun location early earlier => working.ordered.owed_before found location earlier) member before

theorem occurs_of_mem_frontier {location : Location} (registered : location ∈ builder.locations) {time : T}
    (member : time ∈ (tracker.ports location).implications.frontier) : tracker.Occurs time := by
  have positive := (tracker.ports location).implications.isFrontier.sound time member
  exact ⟨location, registered, Int.ne_of_gt positive⟩

/-- A time at which the entries do not cancel is busy. -/
theorem Working.busy (working : start.Working tracker) (sound : builder.Sound) {entry : WorklistEntry T}
    {rest : List (WorklistEntry T)} (found : tracker.worklist = entry :: rest)
    (nonzero : (accumulate entry.time entry.location entry.diff rest).1 ≠ 0) : start.Busy entry.time := by
  by_contra idle
  apply nonzero
  have registered : entry.location ∈ builder.locations :=
    working.consistent.registered entry (found ▸ List.mem_cons_self)
  have balance := working.consistent.balanced entry.location entry.time
  have count : (tracker.ports entry.location).implications.countFor entry.time = 0 := by
    by_contra occurs
    exact idle (working.counts entry.time ⟨entry.location, registered, occurs⟩)
  have noSeed : present (tracker.ports entry.location).pointstamps.frontier entry.time = 0 := by
    rw [working.points]
    exact if_neg fun member => idle (Busy.seeded registered member)
  have noFlow : ¬ 0 < tracker.inflow (entry.location, entry.time) := by
    intro flows
    obtain ⟨origin, early, member, hop⟩ := (tracker.inflow_pos_iff _).mp flows
    have step : builder.Step (origin, early) (entry.location, entry.time) :=
      (Builder.tableStep_iff sound.wellFormed).mp hop
    rcases ordLt_or_eq_of_le (ordLe_of_le step.le) with before | same
    · exact idle (Busy.arrives (working.final sound found member before) step)
    · have occurs : tracker.Occurs early := occurs_of_mem_frontier hop.1 member
      have equal : early = entry.time := same
      exact idle (equal ▸ working.counts early occurs)
  have flow := tracker.inflow_nonneg (entry.location, entry.time)
  rw [working.ordered.accumulate_eq found]
  omega

/-- A round at a busy time changes the implications at that time only and pushes hops of busy times. -/
theorem propagateAt_busy (counts : ∀ time, tracker.Occurs time → start.Busy time) {location : Location}
    (registered : location ∈ builder.locations) {time : T} (busy : start.Busy time) (diff : Int) :
    (∀ instant, (tracker.propagateAt location time diff).Occurs instant → start.Busy instant) ∧
      ∀ entry ∈ (tracker.propagateAt location time diff).worklist, entry ∈ tracker.worklist ∨
        ∃ origin early, start.Busy early ∧ builder.Step (origin, early) (entry.location, entry.time) := by
  have after : ∀ instant, (tracker.propagateAt location time diff).Occurs instant → start.Busy instant := by
    intro instant found
    obtain ⟨place, inside, nonzero⟩ := found
    by_cases same : instant = time
    · exact same ▸ busy
    · apply counts
      refine ⟨place, inside, fun zero => nonzero ?_⟩
      by_cases here : place = location
      · subst here
        have apart : time ≠ instant := fun equal => same equal.symm
        simp only [Tracker.propagateAt, Function.update_self, updateIter_countFor, netOf_cons, netOf_nil, if_neg apart]
        omega
      · simp only [Tracker.propagateAt, Function.update_of_ne here]
        exact zero
  refine ⟨after, fun entry member => ?_⟩
  rcases mem_push.mp member with fresh | old
  · obtain ⟨change, moved, pushed⟩ := List.mem_flatMap.mp fresh
    obtain ⟨hop, reached, same⟩ := List.mem_map.mp pushed
    subst same
    refine Or.inr ⟨location, change.1, ?_, Builder.mem_forward.mp reached⟩
    rcases mem_frontier_of_change moved with earlier | later
    · exact counts change.1 (occurs_of_mem_frontier registered earlier)
    · apply after change.1
      apply occurs_of_mem_frontier registered
      simp only [Tracker.propagateAt, Function.update_self]
      exact later
  · exact Or.inl old

theorem Working.step (working : start.Working tracker) (sound : builder.Sound)
    (step : tracker.propagateStep = some next) : start.Working next := by
  have consistent := propagateStep_consistent (Builder.forwardClosed sound tables) working.consistent step
  have ordered := working.ordered.propagateStep step
  have points : ∀ location, (next.ports location).pointstamps = (start.ports location).pointstamps :=
    fun location => (propagateStep_posted step location).1.trans (working.points location)
  obtain ⟨entry, rest, found, outcome⟩ := propagateStep_eq step
  have remains : ∀ other ∈ (accumulate entry.time entry.location entry.diff rest).2, other ∈ tracker.worklist := by
    intro other member
    rw [found]
    exact List.mem_cons_of_mem _ ((accumulate_sublist _ _ _ rest).subset member)
  rcases outcome with ⟨_, same⟩ | ⟨nonzero, same⟩
  · subst same
    exact ⟨consistent, ordered, points, working.counts, fun other member => working.entries other (remains other member)⟩
  · subst same
    have registered : entry.location ∈ builder.locations :=
      working.consistent.registered entry (found ▸ List.mem_cons_self)
    obtain ⟨counts, entries⟩ := @propagateAt_busy _ _ _ _ _ _ start
      { tracker with worklist := (accumulate entry.time entry.location entry.diff rest).2 } working.counts entry.location
      registered entry.time (working.busy sound found nonzero) (accumulate entry.time entry.location entry.diff rest).1
    refine ⟨consistent, ordered, points, counts, fun other member => ?_⟩
    rcases entries other member with old | fresh
    · exact working.entries other (remains other old)
    · exact Or.inr fresh

theorem Working.steps (sound : builder.Sound) (working : start.Working tracker)
    (steps : ReflTransGen (fun before after => before.propagateStep = some after) tracker next) :
    start.Working next := by
  induction steps with
  | refl => exact working
  | tail _ last ih => exact ih.step sound last

/-- The loop ends over every well-quasi-ordered time, whether or not the time has a limit. -/
theorem propagateWorklist_ends_of_consistent [WellQuasiOrderedLE T] (sound : builder.Sound)
    (consistent : start.Consistent) (ordered : start.Ordered) :
    ∃ bound result, ∀ fuel, bound ≤ fuel → start.propagateWorklist fuel = some result :=
  propagateWorklist_ends sound (busy_finite sound.wellFormed start)
    (fun _ _ working step => Working.step working sound step)
    (fun _ working _ _ found nonzero => Working.busy working sound found nonzero) (Working.of_start consistent ordered)

/-- The times at which a propagation works are those of the implications before it and after it. -/
theorem Busy.occurs_before_or_after (sound : builder.Sound) {result : Tracker T (builder.topology tables)}
    (working : start.Working result) (settled : result.worklist = []) {time : T} (busy : start.Busy time) :
    start.Occurs time ∨ result.Occurs time := by
  have balanced := working.consistent.balanced
  have counts : ∀ location, result.Seeded location time ∨ 0 < result.inflow (location, time) →
      (result.ports location).implications.countFor time ≠ 0 := by
    intro location holds
    have balance := balanced location time
    have flow := result.inflow_nonneg (location, time)
    rw [settled] at balance
    change _ + 0 = _ at balance
    unfold present at balance
    split at balance
    · omega
    · rename_i absent
      have flows := holds.resolve_left absent
      omega
  cases busy with
  | occurs found => exact Or.inl found
  | seeded registered member => exact Or.inr ⟨_, registered, counts _ (Or.inl (working.seeded ▸ member))⟩
  | arrives least step =>
    rename_i origin location early
    have solved := balanced.locallyExact settled
    rw [Builder.tableStep_eq sound.wellFormed] at solved
    have frontier := solved.isFrontier builder.step_monotone (Builder.step_wellFounded sound) origin
    rw [← working.seeded] at least
    have member := (frontier.mem_iff_minimal early).mpr least
    have hop : TableStep (builder.topology tables) (origin, early) (location, time) :=
      (Builder.tableStep_iff sound.wellFormed).mpr step
    have flows := (result.inflow_pos_iff (location, time)).mpr ⟨origin, early, member, hop⟩
    exact Or.inr ⟨location, Builder.forwardClosed sound tables origin early _ hop.2, counts location (Or.inr flows)⟩

end Busy

end Tracker

section Calls

variable {T S : Type} [UnsignedSummary S] [UnsignedTimestamp T S] {builder : Builder S}

theorem Tracker.Settled.ordered {tables : PathTables S} {tracker : Tracker T (builder.topology tables)}
    (settled : tracker.Settled) : tracker.Ordered := by
  unfold Tracker.Ordered
  rw [settled.worklist]
  exact List.Pairwise.nil

theorem Tracker.drainPendingChanges_implications {tables : PathTables S} (tracker : Tracker T (builder.topology tables))
    (location : Location) :
    (tracker.drainPendingChanges.ports location).implications = (tracker.ports location).implications := by
  unfold drainPendingChanges
  generalize (builder.topology tables).locations = places
  induction places generalizing tracker with
  | nil => rfl
  | cons place rest ih => exact (ih (tracker.drainPort place)).trans (tracker.drainPort_implications place location)

theorem Tracker.propagationEnds [WellQuasiOrderedLE T] (sound : builder.Sound) (tables : PathTables S) :
    Tracker.PropagationEnds T builder tables := by
  intro tracker settled
  exact Tracker.propagateWorklist_ends_of_consistent sound
    (Tracker.foldl_drainPort settled.consistent builder.locations fun _ member => member).1
    (settled.ordered.foldl_drainPort builder.locations)

open TrackerCall in
/-- After any calls, the propagation of the pending changes ends, also over times without a limit. Every entry that it
ever makes is at a time of the old or new pointstamps, or one hop after a time of the old or new implications. -/
theorem runAll_propagateWorklist_ends [WellQuasiOrderedLE T] (assembled : Builder.Assembled builder)
    (reach : builder.EdgesReachInputs) {searchFuel : Nat} (noCycle : builder.findIdentityCycle searchFuel = some none)
    {tables : PathTables S} (calls : List (TrackerCall T)) (inRange : ∀ call ∈ calls, call.InRange builder) :
    ∃ first tracker last result,
      (∀ fuel, first ≤ fuel → runAll fuel calls (Tracker.new : Tracker T (builder.topology tables)) = some tracker) ∧
      (∀ fuel, last ≤ fuel → tracker.drainPendingChanges.propagateWorklist fuel = some result) ∧
      ∀ state : Tracker T (builder.topology tables),
        ReflTransGen (fun before after => before.propagateStep = some after) tracker.drainPendingChanges state →
        (∀ time, state.Occurs time → tracker.Occurs time ∨ result.Occurs time) ∧
          ∀ entry ∈ state.worklist,
            (tracker.Seeded entry.location entry.time ∨ result.Seeded entry.location entry.time) ∨
            ∃ origin start, (tracker.Occurs start ∨ result.Occurs start) ∧
              builder.Step (origin, start) (entry.location, entry.time) := by
  have sound := assembled.sound reach noCycle
  have ends := Tracker.propagationEnds (T := T) sound tables
  obtain ⟨first, tracker, ran, settled, _⟩ := runAll_spec sound ends new_settled calls inRange
  obtain ⟨last, result, ended⟩ := ends tracker settled
  have drained : tracker.drainPendingChanges.Working tracker.drainPendingChanges :=
    Tracker.Working.of_start
      (Tracker.foldl_drainPort settled.consistent builder.locations fun _ member => member).1
      (settled.ordered.foldl_drainPort builder.locations)
  have finished := loop_invariant (Tracker.Working tracker.drainPendingChanges)
    (fun _ _ working step => working.step sound step) drained (ended last le_rfl)
  have done := Tracker.propagateStep_none finished.2
  have sameOccurs : ∀ time, tracker.drainPendingChanges.Occurs time → tracker.Occurs time := by
    intro time found
    obtain ⟨location, registered, nonzero⟩ := found
    rw [Tracker.drainPendingChanges_implications] at nonzero
    exact ⟨location, registered, nonzero⟩
  have occurring : ∀ time, tracker.drainPendingChanges.Busy time → tracker.Occurs time ∨ result.Occurs time := by
    intro time busy
    rcases busy.occurs_before_or_after sound finished.1 done with before | after
    · exact Or.inl (sameOccurs time before)
    · exact Or.inr after
  refine ⟨first, tracker, last, result, ran, ended, fun state steps => ?_⟩
  have working := Tracker.Working.steps sound drained steps
  refine ⟨fun time found => occurring time (working.counts time found), fun entry member => ?_⟩
  rcases working.entries entry member with initial | ⟨origin, start, busy, step⟩
  · apply Or.inl
    rcases Tracker.mem_foldl_drainPort builder.locations builder.locations_nodup tracker initial with old | ⟨_, times⟩
    · rw [settled.worklist] at old
      cases old
    · rw [finished.1.seeded]
      exact times
  · exact Or.inr ⟨origin, start, occurring start busy, step⟩

open TrackerCall in
/-- A capability that goes around a loop without a limit on its laps is taken back again. -/
theorem lapped_propagation_ends :
    ∃ first tracker last result,
      (∀ fuel, first ≤ fuel → runAll fuel [updateSource 0 0 ⟨3, 0⟩ 1, propagateAll, updateSource 0 0 ⟨3, 0⟩ (-1)]
        (Tracker.new : Tracker (Product Unbounded Unbounded)
          ((Builder.lapped ⟨0, 1⟩).topology fun _ _ => Antichain.new)) = some tracker) ∧
      (∀ fuel, last ≤ fuel → tracker.drainPendingChanges.propagateWorklist fuel = some result) ∧
      ∀ state : Tracker (Product Unbounded Unbounded) ((Builder.lapped ⟨0, 1⟩).topology fun _ _ => Antichain.new),
        ReflTransGen (fun before after => before.propagateStep = some after) tracker.drainPendingChanges state →
        (∀ time, state.Occurs time → tracker.Occurs time ∨ result.Occurs time) ∧
          ∀ entry ∈ state.worklist,
            (tracker.Seeded entry.location entry.time ∨ result.Seeded entry.location entry.time) ∨
            ∃ origin start, (tracker.Occurs start ∨ result.Occurs start) ∧
              (Builder.lapped ⟨0, 1⟩).Step (origin, start) (entry.location, entry.time) :=
  runAll_propagateWorklist_ends (Builder.lapped_assembled _) (Builder.lapped_reach _)
    (show (Builder.lapped _).findIdentityCycle 10 = some none by decide) _ (by
      intro call member change posted
      simp only [List.mem_cons, List.not_mem_nil, or_false] at member
      rcases member with same | same | same <;> subst same <;> cases posted <;> decide)

end Calls

end Instancy
