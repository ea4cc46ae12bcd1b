import Instancy.Progress.Antichain
import Instancy.Progress.ChangeBatch

namespace Instancy

section Ledger

variable {T : Type} [TotalOrd T]

/-- The records that a port consumed or produced since the tracker last drained it. -/
structure PortLedger (T : Type) [TotalOrd T] where
  changes : ChangeBatch T

namespace PortLedger

def new : PortLedger T := ⟨ChangeBatch.new⟩

/-- The recorded number of records at a time. -/
def net (ledger : PortLedger T) (time : T) : Int := ledger.changes.net time

/-- The result is the ledger and the drained batch. -/
def absorb (ledger : PortLedger T) (changes : ChangeBatch T) : PortLedger T × ChangeBatch T :=
  if changes.isEmpty.1 then (ledger, changes.isEmpty.2)
  else
    let drained := changes.isEmpty.2.drainInto ledger.changes
    (⟨drained.1⟩, drained.2)

def update (ledger : PortLedger T) (time : T) (diff : Int) : PortLedger T := ⟨ledger.changes.update time diff⟩

def drain (ledger : PortLedger T) : List (T × Int) × PortLedger T :=
  (ledger.changes.drain.1, ⟨ledger.changes.drain.2⟩)

section

variable (ledger : PortLedger T)
include ledger

@[simp] theorem update_net (time : T) (diff : Int) (key : T) :
    (ledger.update time diff).net key = ledger.net key + if time = key then diff else 0 :=
  ChangeBatch.update_net ledger.changes time diff key

@[simp] theorem absorb_net (changes : ChangeBatch T) (key : T) :
    (ledger.absorb changes).1.net key = ledger.net key + changes.net key := by
  unfold absorb
  split
  · rename_i empty
    rw [(changes.isEmpty_iff).mp empty key, Int.add_zero]
  · change (changes.isEmpty.2.drainInto ledger.changes).1.net key = _
    rw [ChangeBatch.drainInto_net, ChangeBatch.isEmpty_net]
    rfl

@[simp] theorem absorb_rest (changes : ChangeBatch T) (key : T) :
    (ledger.absorb changes).2.net key = 0 := by
  unfold absorb
  split
  · rename_i empty
    rw [ChangeBatch.isEmpty_net]
    exact (changes.isEmpty_iff).mp empty key
  · exact ChangeBatch.drainInto_rest _ _ key

@[simp] theorem drain_net (key : T) : netOf ledger.drain.1 key = ledger.net key :=
  ChangeBatch.drain_net ledger.changes key

@[simp] theorem drain_rest (key : T) : ledger.drain.2.net key = 0 := rfl

end

end PortLedger

end Ledger

section Held

variable {T : Type} [TotalOrd T]

/-- This is the entry of a `BTreeMap` changed by some amount; an entry that becomes zero is removed. -/
def entryAdd (time : T) (diff : Int) : List (T × Int) → List (T × Int)
  | [] => if diff ≠ 0 then [(time, diff)] else []
  | (key, count) :: rest =>
    if key = time then (if count + diff = 0 then rest else (key, count + diff) :: rest)
    else if ordLe key time then (key, count) :: entryAdd time diff rest
    else if diff ≠ 0 then (time, diff) :: (key, count) :: rest
    else (key, count) :: rest

theorem entryAdd_net (time : T) (diff : Int) (held : List (T × Int)) (query : T) :
    netOf (entryAdd time diff held) query = netOf held query + if time = query then diff else 0 := by
  induction held with
  | nil =>
    unfold entryAdd
    by_cases zero : diff = 0
    · simp [zero]
    · simp [zero]
  | cons entry rest ih =>
    obtain ⟨key, count⟩ := entry
    unfold entryAdd
    by_cases same : key = time
    · subst same
      rw [if_pos rfl]
      split
      · rw [netOf_cons]
        split <;> omega
      · rw [netOf_cons, netOf_cons]
        split <;> omega
    · rw [if_neg same]
      split
      · rw [netOf_cons, netOf_cons, ih]
        omega
      · split
        · rw [netOf_cons, netOf_cons]
          dsimp only
          omega
        · have none : diff = 0 := by omega
          rw [none, ite_self, Int.add_zero]

theorem mem_entryAdd {time : T} {diff : Int} {held : List (T × Int)} {entry : T × Int}
    (member : entry ∈ entryAdd time diff held) : entry.1 = time ∨ entry ∈ held := by
  induction held with
  | nil =>
    unfold entryAdd at member
    split at member
    · exact Or.inl (congrArg Prod.fst (List.mem_singleton.mp member))
    · cases member
  | cons head rest ih =>
    obtain ⟨key, count⟩ := head
    unfold entryAdd at member
    split at member
    · rename_i same
      split at member
      · exact Or.inr (List.mem_cons_of_mem _ member)
      · rcases List.mem_cons.mp member with first | later
        · exact Or.inl (first ▸ same)
        · exact Or.inr (List.mem_cons_of_mem _ later)
    · split at member
      · rcases List.mem_cons.mp member with first | later
        · exact Or.inr (first ▸ List.mem_cons_self)
        · exact (ih later).imp_right (List.mem_cons_of_mem _)
      · split at member
        · rcases List.mem_cons.mp member with first | later
          · exact Or.inl (congrArg Prod.fst first)
          · exact Or.inr later
        · exact Or.inr member

/-- The changed map stays sorted and without zero entries. -/
theorem entryAdd_compacted (time : T) (diff : Int) {held : List (T × Int)} (compacted : Compacted held) :
    Compacted (entryAdd time diff held) := by
  obtain ⟨sorted, nonzero⟩ := compacted
  induction held with
  | nil =>
    unfold entryAdd
    split
    · rename_i apart
      exact ⟨List.pairwise_singleton _ _, fun entry member => (List.mem_singleton.mp member) ▸ apart⟩
    · exact Compacted.nil
  | cons head rest ih =>
    obtain ⟨key, count⟩ := head
    obtain ⟨above, tailSorted⟩ := List.pairwise_cons.mp sorted
    have tailNonzero : ∀ entry ∈ rest, entry.2 ≠ 0 := fun entry member =>
      nonzero entry (List.mem_cons_of_mem _ member)
    unfold entryAdd
    split
    · split
      · exact ⟨tailSorted, tailNonzero⟩
      · rename_i apart
        refine ⟨List.pairwise_cons.mpr ⟨above, tailSorted⟩, fun entry member => ?_⟩
        rcases List.mem_cons.mp member with first | later
        · exact first ▸ apart
        · exact tailNonzero entry later
    · rename_i apart
      split
      · rename_i below
        obtain ⟨laterSorted, laterNonzero⟩ := ih tailSorted tailNonzero
        refine ⟨List.pairwise_cons.mpr ⟨fun entry member => ?_, laterSorted⟩, fun entry member => ?_⟩
        · rcases mem_entryAdd member with same | old
          · exact same ▸ ⟨below, apart⟩
          · exact above entry old
        · rcases List.mem_cons.mp member with first | later
          · exact first ▸ nonzero (key, count) List.mem_cons_self
          · exact laterNonzero entry later
      · rename_i beyond
        split
        · rename_i changed
          have first := ordLt_of_not_le beyond
          refine ⟨List.pairwise_cons.mpr ⟨fun entry member => ?_, sorted⟩, fun entry member => ?_⟩
          · rcases List.mem_cons.mp member with same | later
            · exact same ▸ first
            · exact first.trans (above entry later)
          · rcases List.mem_cons.mp member with same | later
            · exact same ▸ changed
            · exact nonzero entry later
        · exact ⟨sorted, nonzero⟩

end Held

/-- The pending changes of an output's capabilities, the capabilities held, and those released in a logic call. -/
structure ProgressReporter (T : Type) [TimeOrder T] where
  pending : ChangeBatch T
  held : List (T × Int)
  heldMap : Compacted held
  releasedInCall : Option (Antichain T)

namespace ProgressReporter

variable {T : Type} [TimeOrder T]

def new : ProgressReporter T := ⟨ChangeBatch.new, [], Compacted.nil, none⟩

variable (reporter : ProgressReporter T)

/-- A release during a logic call is remembered for the justification of the call. -/
def hold (time : T) (diff : Int) : ProgressReporter T where
  pending := reporter.pending
  held := entryAdd time diff reporter.held
  heldMap := entryAdd_compacted time diff reporter.heldMap
  releasedInCall :=
    if diff < 0 then reporter.releasedInCall.map fun released => (released.insert time).2
    else reporter.releasedInCall

def seedHeld (time : T) (count : Int) : ProgressReporter T := reporter.hold time count

/-- The capabilities held at a time. -/
def heldAt (time : T) : Int := netOf reporter.held time

def heldFrontier : Antichain T :=
  Antichain.fromElemIter ((reporter.held.filter fun entry => entry.2 > 0).map Prod.fst)

def holdsAny : Bool := !reporter.held.isEmpty

def beginCall : ProgressReporter T :=
  { reporter with releasedInCall := some Antichain.new }

def endCall : ProgressReporter T := { reporter with releasedInCall := none }

/-- The scan visits the held times up to the time in `Ord`. -/
def justifies (time : T) : Bool :=
  (match reporter.releasedInCall with
    | some released => released.lessEqual time
    | none => false) ||
    (reporter.held.filter fun entry => ordLe entry.1 time).any fun entry => entry.2 > 0 ∧ entry.1 ≤ time

def update (time : T) (diff : Int) : ProgressReporter T :=
  { reporter.hold time diff with pending := reporter.pending.update time diff }

def release (time : T) : ProgressReporter T := reporter.update time (-1)

/-- Both changes are recorded under one lock. -/
def downgrade (oldTime newTime : T) : ProgressReporter T :=
  { (reporter.hold oldTime (-1)).hold newTime 1 with
    pending := (reporter.pending.update oldTime (-1)).update newTime 1 }

def drain : List (T × Int) × ProgressReporter T :=
  (reporter.pending.drain.1, { reporter with pending := reporter.pending.drain.2 })

@[simp] theorem hold_heldAt (time : T) (diff : Int) (query : T) :
    (reporter.hold time diff).heldAt query = reporter.heldAt query + if time = query then diff else 0 :=
  entryAdd_net time diff reporter.held query

@[simp] theorem update_heldAt (time : T) (diff : Int) (query : T) :
    (reporter.update time diff).heldAt query = reporter.heldAt query + if time = query then diff else 0 :=
  hold_heldAt reporter time diff query

@[simp] theorem downgrade_heldAt (oldTime newTime query : T) :
    (reporter.downgrade oldTime newTime).heldAt query =
      reporter.heldAt query + (if oldTime = query then -1 else 0) + if newTime = query then 1 else 0 := by
  change ((reporter.hold oldTime (-1)).hold newTime 1).heldAt query = _
  rw [hold_heldAt, hold_heldAt]

/-- The scan finds every held time at or before the time, because `Ord` extends the partial order. -/
theorem justifies_iff (time : T) : reporter.justifies time = true ↔
      (∃ released, reporter.releasedInCall = some released ∧ released.lessEqual time = true) ∨
        ∃ earlier, 0 < reporter.heldAt earlier ∧ earlier ≤ time := by
  unfold justifies
  rw [Bool.or_eq_true]
  apply or_congr
  · cases reporter.releasedInCall with
    | none => simp
    | some released => simp
  · simp only [List.any_eq_true, List.mem_filter, decide_eq_true_eq]
    constructor
    · intro found
      obtain ⟨entry, ⟨member, _⟩, positive, below⟩ := found
      obtain ⟨_, value⟩ := (reporter.heldMap.mem_iff entry).mp member
      exact ⟨entry.1, lt_of_lt_of_eq positive value.symm, below⟩
    · intro found
      obtain ⟨earlier, positive, below⟩ := found
      have member := (reporter.heldMap.mem_iff (earlier, reporter.heldAt earlier)).mpr ⟨ne_of_gt positive, rfl⟩
      exact ⟨_, ⟨member, ordLe_of_le below⟩, positive, below⟩

end ProgressReporter

end Instancy
