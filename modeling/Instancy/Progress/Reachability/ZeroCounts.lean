import Instancy.Progress.Reachability.Propagation

namespace Instancy

open Library

/-- Two tests that differ at one member only differ by that member in their counts. -/
theorem countP_change {A : Type} {members : List A} (distinct : members.Nodup) {item : A} (member : item ∈ members)
    {before after : A → Bool} (same : ∀ other, other ≠ item → after other = before other) :
    members.countP after + (before item).toNat = members.countP before + (after item).toNat := by
  induction members with
  | nil => cases member
  | cons first rest ih =>
    obtain ⟨absent, distinctRest⟩ := List.nodup_cons.mp distinct
    rcases List.mem_cons.mp member with here | later
    · subst here
      have others : rest.countP after = rest.countP before :=
        List.countP_congr fun other isIn => by rw [same other fun equal => absent (equal ▸ isIn)]
      rw [List.countP_cons, List.countP_cons, others]
      cases before item <;> cases after item <;> simp
    · have apart : first ≠ item := fun equal => absent (equal ▸ later)
      have tail := ih distinctRest later
      rw [List.countP_cons, List.countP_cons, same first apart]
      omega

namespace Tracker

variable {T S : Type} [PathSummary S] [Timestamp T S] {topology : Topology S}

/-- The flag of every port says whether it has a nonzero count, and the counter counts the flags of counted ports. -/
structure Tallied (counted : Location → Bool) (tracker : Tracker T topology) : Prop where
  chosen : ∀ location ∈ topology.locations, (tracker.ports location).counted = counted location
  flagged : ∀ location ∈ topology.locations, (tracker.ports location).nonzero = true ↔
    ∃ time, (tracker.ports location).pointstamps.countFor time ≠ 0
  number : tracker.nonzeroCounted =
    topology.locations.countP fun location => counted location && (tracker.ports location).nonzero

variable {counted : Location → Bool} {tracker next : Tracker T topology}

section

variable (tallied : tracker.Tallied counted)
include tallied

/-- Only the direct counts, the flags and the counter matter. -/
theorem Tallied.congr (sameCounter : next.nonzeroCounted = tracker.nonzeroCounted)
    (same : ∀ location, (next.ports location).pointstamps = (tracker.ports location).pointstamps ∧
      (next.ports location).counted = (tracker.ports location).counted ∧
      (next.ports location).nonzero = (tracker.ports location).nonzero) : next.Tallied counted where
  chosen location member := by
    rw [(same location).2.1]
    exact tallied.chosen location member
  flagged location member := by
    rw [(same location).1, (same location).2.2]
    exact tallied.flagged location member
  number := by
    rw [sameCounter, tallied.number]
    apply List.countP_congr
    intro location _
    rw [(same location).2.2]

theorem Tallied.post {location : Location} {time : T} {diff : Int}
    (posted : tracker.post location time diff = some next) : next.Tallied counted := by
  unfold Tracker.post at posted
  split at posted
  · cases posted
    exact tallied.congr rfl fun _ => ⟨rfl, rfl, rfl⟩
  · cases posted

theorem Tallied.drainExportChanges (output : Nat) : (tracker.drainExportChanges output).2.Tallied counted :=
  tallied.congr rfl fun _ => ⟨rfl, rfl, rfl⟩

theorem Tallied.propagateAt (location : Location) (time : T) (diff : Int) :
    (tracker.propagateAt location time diff).Tallied counted := by
  refine tallied.congr rfl fun place => ?_
  by_cases same : place = location
  · subst same
    simp [Tracker.propagateAt]
  · simp [Tracker.propagateAt, Function.update_of_ne same]

theorem Tallied.propagateWorklist {fuel : Nat}
    (ended : tracker.propagateWorklist fuel = some next) : next.Tallied counted := by
  refine (loop_invariant (Tallied counted) (fun before after held step => ?_) tallied ended).1
  obtain ⟨entry, rest, _, outcome⟩ := propagateStep_eq step
  have popped : ({ before with worklist :=
      (accumulate entry.time entry.location entry.diff rest).2 } : Tracker T topology).Tallied counted :=
    held.congr rfl fun _ => ⟨rfl, rfl, rfl⟩
  rcases outcome with ⟨_, same⟩ | ⟨_, same⟩
  · rw [same]
    exact popped
  · rw [same]
    exact popped.propagateAt _ _ _

end

/-- The refreshed flag says whether the counts are nonzero. -/
theorem refreshNonzero_nonzero (info : PortInformation T) (counter : Nat) :
    (refreshNonzero info counter).1.nonzero = true ↔ ∃ time, info.pointstamps.countFor time ≠ 0 := by
  have zero := info.pointstamps.updates.isEmpty_iff
  change (!info.pointstamps.updates.isEmpty.1) = true ↔ _
  rw [Bool.not_eq_true', ← Bool.not_eq_true, zero, not_forall]
  rfl

/-- The refresh moves the counter by the change of a counted flag. -/
theorem refreshNonzero_counter (info : PortInformation T) {counter : Nat}
    (held : (info.counted && info.nonzero).toNat ≤ counter) :
    (refreshNonzero info counter).2 + (info.counted && info.nonzero).toNat =
      counter + (info.counted && (refreshNonzero info counter).1.nonzero).toNat := by
  unfold refreshNonzero
  dsimp only
  generalize (!info.pointstamps.isZero.1) = fresh
  revert held
  cases info.counted <;> cases info.nonzero <;> cases fresh <;> simp
  omega

section

variable (tallied : tracker.Tallied counted)

include tallied

theorem Tallied.drainPort (distinct : topology.locations.Nodup) {location : Location}
    (member : location ∈ topology.locations) : (tracker.drainPort location).Tallied counted := by
  unfold Tracker.drainPort
  split
  · exact tallied
  · -- Only the drained port changes, and the counter moves with its flag.
    obtain ⟨info, drained⟩ : ∃ info, info = ({ tracker.ports location with pointstamps :=
      ((tracker.ports location).pointstamps.updateIter (tracker.pending location).drain.1).1 } : PortInformation T) :=
      ⟨_, rfl⟩
    dsimp only
    rw [← drained]
    have kept : info.counted = counted location ∧ info.nonzero = (tracker.ports location).nonzero := by
      rw [drained]
      exact ⟨tallied.chosen location member, rfl⟩
    have enough : (info.counted && info.nonzero).toNat ≤ tracker.nonzeroCounted := by
      rw [kept.1, kept.2, tallied.number]
      cases flag : (counted location && (tracker.ports location).nonzero) with
      | false => exact Nat.zero_le _
      | true => exact List.countP_pos_iff.mpr ⟨location, member, flag⟩
    refine ⟨fun place isIn => ?_, fun place isIn => ?_, ?_⟩
    · by_cases same : place = location
      · subst same
        simp only [Function.update_self]
        exact kept.1
      · simp only [Function.update_of_ne same]
        exact tallied.chosen place isIn
    · by_cases same : place = location
      · subst same
        simp only [Function.update_self, refreshNonzero_countFor]
        exact refreshNonzero_nonzero info _
      · simp only [Function.update_of_ne same]
        exact tallied.flagged place isIn
    · have moved := refreshNonzero_counter info enough
      have changed := @countP_change _ _ distinct _ member
        (fun place => counted place && (tracker.ports place).nonzero)
        (fun place => counted place && (Function.update tracker.ports location
          (refreshNonzero info tracker.nonzeroCounted).1 place).nonzero)
        (fun place apart => by simp only [Function.update_of_ne apart])
      simp only [Function.update_self] at changed
      rw [kept.1, kept.2] at moved
      have number := tallied.number
      dsimp only
      omega

theorem Tallied.applyPending (distinct : topology.locations.Nodup) :
    tracker.applyPending.Tallied counted := by
  refine List.foldlRecOn topology.locations Tracker.drainPort tallied fun current held location member => ?_
  exact held.drainPort distinct member

/-- The counted ports can be chosen anew at any time. -/
theorem Tallied.setCounted (chosen : Location → Bool) :
    (tracker.setCounted chosen).Tallied chosen := by
  have ports : ∀ location ∈ topology.locations, (tracker.setCounted chosen).ports location =
      { tracker.ports location with counted := chosen location } := fun location member => if_pos member
  refine ⟨fun location member => ?_, fun location member => ?_, ?_⟩
  · rw [ports location member]
  · rw [ports location member]
    exact tallied.flagged location member
  · change (topology.locations.filter _).length = _
    rw [← List.countP_eq_length_filter]
    apply List.countP_congr
    intro location member
    rw [ports location member]

end

theorem new_tallied : (new : Tracker T topology).Tallied fun _ => true where
  chosen _ _ := rfl
  flagged location _ := by
    simp [new, PortInformation.new, MutableAntichain.countFor, MutableAntichain.new]
  number := by
    simp [new, PortInformation.new]

/-- A zero counter says that every counted port has only zero counts. -/
theorem Tallied.zero (tallied : tracker.Tallied counted) (zero : tracker.nonzeroCounted = 0) {location : Location}
    (member : location ∈ topology.locations) (isCounted : counted location = true) (time : T) :
    (tracker.ports location).pointstamps.countFor time = 0 := by
  have none := tallied.number.symm.trans zero
  rw [List.countP_eq_zero] at none
  have unflagged := none location member
  rw [isCounted, Bool.true_and, tallied.flagged location member, not_exists] at unflagged
  exact not_not.mp (unflagged time)

end Tracker

end Instancy
