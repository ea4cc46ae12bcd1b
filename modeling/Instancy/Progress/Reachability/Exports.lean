import Instancy.Progress.Reachability.Correctness
import Instancy.Progress.Reachability.Tables

namespace Instancy

open Library MutableAntichain

namespace ChangeBatch

variable {A : Type} [TotalOrd A]

/-- The weighted sum of a batch depends only on its net changes. -/
theorem update_weigh (batch : ChangeBatch A) (item : A) (value : Int) (weight : A → Int) :
    weigh (batch.update item value).updates weight = weigh batch.updates weight + value * weight item := by
  have same : ∀ key, netOf (batch.update item value).updates key = netOf ((item, value) :: batch.updates) key := by
    intro key
    have changed := update_net batch item value key
    unfold net at changed
    rw [changed, netOf_cons]
    exact Int.add_comm _ _
  rw [weigh_congr same, weigh_cons]
  exact Int.add_comm _ _

theorem drain_weigh (batch : ChangeBatch A) (weight : A → Int) :
    weigh batch.drain.1 weight = weigh batch.updates weight :=
  weigh_congr (fun key => drain_net batch key) weight

end ChangeBatch

namespace Tracker

section Recorded

variable {T S : Type} [PathSummary S] [Timestamp T S] {topology : Topology S}

/-- The weight of what one time exports to one scope output. -/
def exportWeight (topology : Topology S) (location : Location) (output : Nat) (weight : T → Int) (time : T) : Int :=
  ((topology.exported location time).map fun entry => if entry.1 = output then weight entry.2 else 0).sum

/-- The weight of what the pointstamp frontiers of a tracker export to one scope output. -/
def exportSum (tracker : Tracker T topology) (output : Nat) (weight : T → Int) : Int :=
  ∑ location ∈ topology.locations.toFinset,
    ((tracker.ports location).pointstamps.frontier.map (exportWeight topology location output weight)).sum

theorem recordExports_weigh (location : Location) (batches : Nat → ChangeBatch T) (changes : List (T × Int))
    (output : Nat) (weight : T → Int) :
    weigh (recordExports topology location batches changes output).updates weight =
      weigh (batches output).updates weight + weigh changes (exportWeight topology location output weight) := by
  unfold recordExports
  induction changes generalizing batches with
  | nil => exact (Int.add_zero _).symm
  | cons change rest ih =>
    rw [List.foldl_cons, ih, weigh_cons, ← Int.add_assoc]
    congr 1
    -- The inner fold adds the change once for every exported time at the output.
    unfold exportWeight
    induction topology.exported location change.1 generalizing batches with
    | nil => simp
    | cons entry entries ihEntries =>
      rw [List.foldl_cons, ihEntries, List.map_cons, List.sum_cons]
      by_cases same : entry.1 = output
      · subst same
        rw [Function.update_self, ChangeBatch.update_weigh, if_pos rfl]
        ring
      · rw [Function.update_of_ne fun equal => same equal.symm, if_neg same]
        ring

variable (tracker : Tracker T topology)

/-- A drain records exactly the change of what the pointstamp frontiers export. -/
theorem drainPort_exports {location : Location}
    (registered : location ∈ topology.locations) (output : Nat) (weight : T → Int) :
    weigh ((tracker.drainPort location).exportChanges output).updates weight + tracker.exportSum output weight =
      weigh (tracker.exportChanges output).updates weight + (tracker.drainPort location).exportSum output weight := by
  have changed := sum_eq_add_sub (List.mem_toFinset.mpr registered)
    (fun place => ((tracker.ports place).pointstamps.frontier.map (exportWeight topology place output weight)).sum)
    (fun place => (((tracker.drainPort location).ports place).pointstamps.frontier.map
      (exportWeight topology place output weight)).sum)
    (fun other apart => by
      unfold drainPort
      split
      · rfl
      · simp only [Function.update_of_ne apart])
  unfold exportSum
  rw [changed]
  unfold drainPort
  split
  · omega
  · simp only [Function.update_self, refreshNonzero_frontier]
    rw [recordExports_weigh, updateIter_weigh]
    omega

theorem drainPendingChanges_exports (output : Nat) (weight : T → Int) :
    weigh (tracker.drainPendingChanges.exportChanges output).updates weight + tracker.exportSum output weight =
      weigh (tracker.exportChanges output).updates weight + tracker.drainPendingChanges.exportSum output weight := by
  suffices general : ∀ places : List Location, (∀ place ∈ places, place ∈ topology.locations) →
      ∀ tracker : Tracker T topology,
        weigh ((places.foldl drainPort tracker).exportChanges output).updates weight +
            tracker.exportSum output weight =
          weigh (tracker.exportChanges output).updates weight +
            (places.foldl drainPort tracker).exportSum output weight from
    general topology.locations (fun _ member => member) tracker
  intro places
  induction places with
  | nil => exact fun _ _ => rfl
  | cons place rest ih =>
    intro members tracker
    rw [List.foldl_cons]
    have first := drainPort_exports tracker (members place List.mem_cons_self) output weight
    have others := ih (fun other member => members other (List.mem_cons_of_mem place member))
      (tracker.drainPort place)
    omega

/-- A sum of weights is positive exactly if some item has a positive weight. -/
theorem sum_map_pos_iff {A : Type} (items : List A) {weight : A → Int} (nonneg : ∀ item, 0 ≤ weight item) :
    0 < (items.map weight).sum ↔ ∃ item ∈ items, 0 < weight item := by
  induction items with
  | nil => simp
  | cons item rest ih =>
    have first := nonneg item
    have others : 0 ≤ (rest.map weight).sum := by
      apply List.sum_nonneg
      intro value member
      obtain ⟨other, _, same⟩ := List.mem_map.mp member
      exact same ▸ nonneg other
    rw [List.map_cons, List.sum_cons]
    simp only [List.mem_cons, exists_eq_or_imp, ← ih]
    omega

variable {weight : T → Int}

theorem exportWeight_nonneg (nonneg : ∀ time, 0 ≤ weight time) (location : Location) (output : Nat)
    (time : T) : 0 ≤ exportWeight topology location output weight time := by
  apply List.sum_nonneg
  intro value member
  obtain ⟨entry, _, same⟩ := List.mem_map.mp member
  rw [← same]
  split
  · exact nonneg entry.2
  · exact Int.le_refl 0

theorem exportWeight_pos_iff (nonneg : ∀ time, 0 ≤ weight time) (location : Location) (output : Nat)
    (time : T) : 0 < exportWeight topology location output weight time ↔
      ∃ final, (output, final) ∈ topology.exported location time ∧ 0 < weight final := by
  unfold exportWeight
  rw [sum_map_pos_iff _ fun entry => by split <;> simp [nonneg]]
  constructor
  · intro found
    obtain ⟨entry, member, positive⟩ := found
    split at positive
    · rename_i same
      exact ⟨entry.2, same ▸ member, positive⟩
    · exact absurd positive (Int.lt_irrefl 0)
  · intro found
    obtain ⟨final, member, positive⟩ := found
    exact ⟨(output, final), member, by rw [if_pos rfl]; exact positive⟩

variable (nonneg : ∀ time, 0 ≤ weight time)

include nonneg

theorem exportTerm_nonneg (output : Nat) (location : Location) :
    0 ≤ ((tracker.ports location).pointstamps.frontier.map (exportWeight topology location output weight)).sum := by
  apply List.sum_nonneg
  intro value member
  obtain ⟨start, _, same⟩ := List.mem_map.mp member
  exact same ▸ exportWeight_nonneg nonneg location output start

theorem exportSum_nonneg (output : Nat) : 0 ≤ tracker.exportSum output weight :=
  Finset.sum_nonneg fun location _ => tracker.exportTerm_nonneg nonneg output location

/-- The export has weight exactly if some frontier time is exported to a time with weight. -/
theorem exportSum_pos_iff (output : Nat) : 0 < tracker.exportSum output weight ↔
      ∃ location ∈ topology.locations, ∃ start ∈ (tracker.ports location).pointstamps.frontier,
        ∃ final, (output, final) ∈ topology.exported location start ∧ 0 < weight final := by
  unfold exportSum
  rw [Finset.sum_pos_iff_of_nonneg fun location _ => tracker.exportTerm_nonneg nonneg output location]
  simp only [List.mem_toFinset, sum_map_pos_iff _ (exportWeight_nonneg nonneg _ output), exportWeight_pos_iff nonneg]

end Recorded

end Tracker

/-- A time is exported along the table entries of its location, except at the boundary. -/
theorem Builder.mem_exported {T S : Type} [UnsignedSummary S] [UnsignedTimestamp T S] {builder : Builder S}
    {tables : PathTables S} {location : Location} {time result : T} {output : Nat} :
    (output, result) ∈ (builder.topology tables).exported location time ↔
      location.node ≠ 0 ∧ output < builder.scopeOutputs ∧
        ∃ summary ∈ (tables location output).elements, resultsIn summary time = some result := by
  change _ ∈ (builder.exportTable tables location).flatMap _ ↔ _
  unfold exportTable
  by_cases boundary : location.node = 0
  · simp [boundary]
  · rw [if_neg boundary]
    simp only [List.mem_flatMap, List.mem_filterMap, List.mem_range, Option.map_eq_some_iff, Prod.mk.injEq]
    constructor
    · intro found
      obtain ⟨path, ⟨column, inside, chosen⟩, summary, member, value, moved, sameOutput, sameTime⟩ := found
      split at chosen
      · cases chosen
      · cases chosen
        subst sameOutput sameTime
        exact ⟨boundary, inside, summary, member, moved⟩
    · intro found
      obtain ⟨_, inside, summary, member, moved⟩ := found
      refine ⟨(output, tables location output), ⟨output, inside, ?_⟩, summary, member, result, moved, rfl, rfl⟩
      rw [if_neg]
      intro empty
      rw [List.isEmpty_iff.mp empty] at member
      exact List.not_mem_nil member

end Instancy
