import Instancy.Progress.Antichain
import Instancy.Progress.ChangeBatch

namespace Instancy

open Library

section Rebuild

variable {T : Type} [TimeOrder T]

/-- Some frontier time is at or below this time. -/
def dominated (frontier : List T) (time : T) : Bool := frontier.any fun f => f ≤ time

/-- Some frontier time is strictly below this time. -/
def strictlyBeyond (frontier : List T) (time : T) : Bool := frontier.any fun f => f < time

variable {frontier : List T}

theorem dominated_iff {time : T} :
    dominated frontier time = true ↔ ∃ below ∈ frontier, below ≤ time := by
  unfold dominated
  simp only [List.any_eq_true, decide_eq_true_eq]

theorem strictlyBeyond_iff {time : T} :
    strictlyBeyond frontier time = true ↔ ∃ below ∈ frontier, below < time := by
  unfold strictlyBeyond
  simp only [List.any_eq_true, decide_eq_true_eq]

/-- One update asks for a rebuild if it can move the frontier. -/
def rebuildRequired (frontier : List T) (time : T) (delta : Int) : Bool :=
  if delta ≥ 0 then !dominated frontier time
  else !(strictlyBeyond frontier time || !dominated frontier time)

/-- The scan keeps each positive time that no kept time dominates. -/
def scanFrontier (frontier : List T) (entry : T × Int) : List T :=
  if entry.2 > 0 ∧ dominated frontier entry.1 = false then frontier ++ [entry.1] else frontier

def rebuildFrontier (updates : List (T × Int)) : List T := updates.foldl scanFrontier []

/-- This predicate says that some scanned entry is positive at the time. -/
def Scanned (entries : List (T × Int)) (time : T) : Prop := ∃ entry ∈ entries, entry.1 = time ∧ 0 < entry.2

/-- A scan step moves the frontier from the entries before it to the entries up to it. -/
theorem scanFrontier_isFrontier {before : List (T × Int)} {entry : T × Int}
    (isFrontier : IsFrontier frontier (Scanned before)) (later : ∀ other ∈ before, OrdLt other.1 entry.1) :
    IsFrontier (scanFrontier frontier entry) (Scanned (before ++ [entry])) := by
  have grows : ∀ time, Scanned before time → Scanned (before ++ [entry]) time := by
    intro time found
    obtain ⟨other, member, same, positive⟩ := found
    exact ⟨other, List.mem_append_left _ member, same, positive⟩
  have splits : ∀ time, Scanned (before ++ [entry]) time →
      Scanned before time ∨ (entry.1 = time ∧ 0 < entry.2) := by
    intro time found
    obtain ⟨other, member, same, positive⟩ := found
    rcases List.mem_append.mp member with early | last
    · exact Or.inl ⟨other, early, same, positive⟩
    · rw [List.mem_singleton.mp last] at same positive
      exact Or.inr ⟨same, positive⟩
  unfold scanFrontier
  split
  · rename_i accepted
    obtain ⟨positive, free⟩ := accepted
    have undominated : ∀ time ∈ frontier, ¬ time ≤ entry.1 := by
      intro time member under
      have covered := dominated_iff.mpr ⟨time, member, under⟩
      rw [free] at covered
      exact Bool.false_ne_true covered
    refine ⟨?_, ?_, ?_⟩
    · rw [List.pairwise_append]
      refine ⟨isFrontier.incomparable, List.pairwise_singleton _ _, fun time member last isLast => ?_⟩
      rw [List.mem_singleton.mp isLast]
      refine ⟨undominated time member, fun above => ?_⟩
      -- An earlier time never lies above the entry, because `Ord` extends the partial order.
      obtain ⟨other, found, same, _⟩ := isFrontier.sound time member
      exact (later other found).not_le (same ▸ ordLe_of_le above)
    · intro time member
      rcases List.mem_append.mp member with early | last
      · exact grows time (isFrontier.sound time early)
      · rw [List.mem_singleton.mp last]
        exact ⟨entry, List.mem_append_right _ List.mem_cons_self, rfl, positive⟩
    · intro time found
      rcases splits time found with early | last
      · obtain ⟨below, member, under⟩ := isFrontier.covers time early
        exact ⟨below, List.mem_append_left _ member, under⟩
      · exact ⟨entry.1, List.mem_append_right _ List.mem_cons_self, le_of_eq last.1⟩
  · rename_i rejected
    refine ⟨isFrontier.incomparable, fun time member => grows time (isFrontier.sound time member), ?_⟩
    intro time found
    rcases splits time found with early | last
    · exact isFrontier.covers time early
    · obtain ⟨same, positive⟩ := last
      have covered : dominated frontier entry.1 = true := by
        by_contra free
        exact rejected ⟨positive, Bool.eq_false_iff.mpr free⟩
      rw [← same]
      exact dominated_iff.mp covered

theorem foldl_scanFrontier_isFrontier {before rest : List (T × Int)}
    (isFrontier : IsFrontier frontier (Scanned before))
    (sorted : (before ++ rest).Pairwise fun first second => OrdLt first.1 second.1) :
    IsFrontier (rest.foldl scanFrontier frontier) (Scanned (before ++ rest)) := by
  induction rest generalizing frontier before with
  | nil =>
    rw [List.append_nil]
    exact isFrontier
  | cons entry rest ih =>
    have later : ∀ other ∈ before, OrdLt other.1 entry.1 := fun other member =>
      (List.pairwise_append.mp sorted).2.2 other member entry List.mem_cons_self
    rw [List.append_cons] at sorted ⊢
    exact ih (scanFrontier_isFrontier isFrontier later) sorted

/-- The scan of compacted updates finds the minimal times of positive net count. -/
theorem rebuildFrontier_isFrontier {updates : List (T × Int)} (compacted : Compacted updates) :
    IsFrontier (rebuildFrontier updates) fun time => 0 < netOf updates time := by
  have start : IsFrontier ([] : List T) (Scanned []) :=
    ⟨List.Pairwise.nil, nofun, fun _ found => by
      obtain ⟨_, member, _⟩ := found
      exact absurd member List.not_mem_nil⟩
  refine (foldl_scanFrontier_isFrontier start compacted.sorted).congr fun time => ?_
  constructor
  · intro found
    obtain ⟨entry, member, same, positive⟩ := found
    have value := ((compacted.mem_iff entry).mp member).2
    rw [← same, value]
    exact positive
  · intro positive
    exact ⟨(time, netOf updates time), (compacted.mem_iff _).mpr ⟨by dsimp only; omega, rfl⟩, rfl, positive⟩

/-- An update that asks for no rebuild leaves the frontier right. -/
theorem isFrontier_of_not_rebuildRequired {count : T → Int} {time : T} {delta : Int}
    (isFrontier : IsFrontier frontier fun t => 0 < count t) (kept : rebuildRequired frontier time delta = false) :
    IsFrontier frontier fun t => 0 < count t + if time = t then delta else 0 := by
  unfold rebuildRequired at kept
  by_cases sign : delta ≥ 0
  · rw [if_pos sign] at kept
    have covered : dominated frontier time = true := by simpa using kept
    refine ⟨isFrontier.incomparable, fun t member => ?_, fun t positive => ?_⟩
    · have old := isFrontier.sound t member
      split <;> omega
    · by_cases same : time = t
      · exact same ▸ dominated_iff.mp covered
      · rw [if_neg same, Int.add_zero] at positive
        exact isFrontier.covers t positive
  · rw [if_neg sign] at kept
    have away : time ∉ frontier := by
      intro member
      have covered : dominated frontier time = true := dominated_iff.mpr ⟨time, member, le_refl time⟩
      rw [covered] at kept
      have beyond : strictlyBeyond frontier time = true := by simpa using kept
      obtain ⟨below, found, under⟩ := strictlyBeyond_iff.mp beyond
      exact under.ne (isFrontier.eq_of_le found member under.le)
    refine ⟨isFrontier.incomparable, fun t member => ?_, fun t positive => ?_⟩
    · have apart : time ≠ t := fun same => away (same ▸ member)
      rw [if_neg apart, Int.add_zero]
      exact isFrontier.sound t member
    · apply isFrontier.covers t
      split at positive <;> omega

end Rebuild

/-- The frontier holds the minimal times of positive net count. -/
structure MutableAntichain (T : Type) [TimeOrder T] where
  updates : ChangeBatch T
  frontier : List T
  changes : ChangeBatch T
  isFrontier : IsFrontier frontier fun time => 0 < updates.net time
  drained : changes = ChangeBatch.new

namespace MutableAntichain

variable {T : Type} [TimeOrder T]

def new : MutableAntichain T where
  updates := ChangeBatch.new
  frontier := []
  changes := ChangeBatch.new
  isFrontier := ⟨List.Pairwise.nil, fun _ member => absurd member List.not_mem_nil,
    fun time positive => absurd positive (by simp)⟩
  drained := rfl

instance : Inhabited (MutableAntichain T) := ⟨new⟩

/-- The stored count of one time. -/
def countFor (antichain : MutableAntichain T) (time : T) : Int := antichain.updates.net time

/-- The loop of `update_iter` stores each update and looks for the first one that needs a rebuild. -/
def absorb (frontier : List T) : Bool → ChangeBatch T → List (T × Int) → Bool × ChangeBatch T
  | required, batch, [] => (required, batch)
  | required, batch, (time, delta) :: rest =>
    absorb frontier (required || rebuildRequired frontier time delta) (batch.update time delta) rest

/-- The rebuild records each old frontier time with minus one and each new one with plus one. -/
def recordChanges (changes : ChangeBatch T) (old fresh : List T) : ChangeBatch T :=
  fresh.foldl (fun batch time => batch.update time 1) (old.foldl (fun batch time => batch.update time (-1)) changes)

theorem absorb_net (frontier : List T) (required : Bool) (batch : ChangeBatch T) (updates : List (T × Int))
    (time : T) : (absorb frontier required batch updates).2.net time = batch.net time + netOf updates time := by
  induction updates generalizing required batch with
  | nil => simp [absorb]
  | cons entry rest ih =>
    rw [absorb, ih, ChangeBatch.update_net, netOf_cons, Int.add_assoc]

theorem absorb_required (frontier : List T) (batch : ChangeBatch T) (updates : List (T × Int)) :
    (absorb frontier true batch updates).1 = true := by
  induction updates generalizing batch with
  | nil => rfl
  | cons entry rest ih =>
    exact ih _

variable {updates : List (T × Int)}

/-- If the loop asks for no rebuild, the old frontier is the frontier of the new counts. -/
theorem absorb_isFrontier {frontier : List T} {batch : ChangeBatch T}
    (isFrontier : IsFrontier frontier fun time => 0 < batch.net time)
    (kept : (absorb frontier false batch updates).1 = false) :
    IsFrontier frontier fun time => 0 < (absorb frontier false batch updates).2.net time := by
  induction updates generalizing batch with
  | nil => exact isFrontier
  | cons entry rest ih =>
    obtain ⟨time, delta⟩ := entry
    rw [absorb, Bool.false_or] at kept ⊢
    cases needed : rebuildRequired frontier time delta with
    | true =>
      rw [needed, absorb_required] at kept
      exact absurd kept (by decide)
    | false =>
      rw [needed] at kept
      apply ih _ kept
      exact (isFrontier_of_not_rebuildRequired isFrontier needed).congr fun t => by
        rw [ChangeBatch.update_net]

/-- The updates change the counts, and the drained changes describe the frontier move. -/
def updateIter (antichain : MutableAntichain T) (updates : List (T × Int)) :
    MutableAntichain T × List (T × Int) :=
  match found : absorb antichain.frontier false antichain.updates updates with
  | (true, batch) =>
    let fresh := rebuildFrontier batch.iter.1
    let drained := (recordChanges antichain.changes antichain.frontier fresh).drain
    ({ updates := batch.iter.2
       frontier := fresh
       changes := drained.2
       isFrontier := rebuildFrontier_isFrontier batch.compact_compacted
       drained := rfl }, drained.1)
  | (false, batch) =>
    let drained := antichain.changes.drain
    ({ updates := batch
       frontier := antichain.frontier
       changes := drained.2
       isFrontier := by
         have kept : (absorb antichain.frontier false antichain.updates updates).1 = false := by rw [found]
         have stays := absorb_isFrontier antichain.isFrontier kept
         rwa [found] at stays
       drained := rfl }, drained.1)

/-- The zero test may compact the stored counts. -/
def isZero (antichain : MutableAntichain T) : Bool × MutableAntichain T :=
  (antichain.updates.isEmpty.1,
    { updates := antichain.updates.isEmpty.2
      frontier := antichain.frontier
      changes := antichain.changes
      isFrontier := antichain.isFrontier.congr fun time => by rw [ChangeBatch.isEmpty_net]
      drained := antichain.drained })

/-- The nonzero counts in the order of their times; the stored counts are not compacted. -/
def netCounts (antichain : MutableAntichain T) : List (T × Int) :=
  (mergeAdjacent (sortByKey antichain.updates.updates)).filter fun entry => entry.2 ≠ 0

variable (antichain : MutableAntichain T)

theorem mem_frontier (time : T) :
    time ∈ antichain.frontier ↔ Minimal (fun t => 0 < antichain.countFor t) time :=
  antichain.isFrontier.mem_iff_minimal time

@[simp] theorem isZero_countFor (time : T) :
    antichain.isZero.2.countFor time = antichain.countFor time :=
  ChangeBatch.isEmpty_net antichain.updates time

theorem updateIter_countFor (updates : List (T × Int)) (time : T) :
    (antichain.updateIter updates).1.countFor time = antichain.countFor time + netOf updates time := by
  have stored := absorb_net antichain.frontier false antichain.updates updates time
  unfold updateIter countFor
  split
  · rename_i batch found
    rw [found] at stored
    exact (ChangeBatch.compact_net batch time).trans stored
  · rename_i batch found
    rw [found] at stored
    exact stored

/-- The indicator of membership counts a frontier time once. -/
def present (frontier : List T) (time : T) : Int := if time ∈ frontier then 1 else 0

theorem foldl_update_net (frontier : List T) (distinct : frontier.Nodup) (value : Int) (changes : ChangeBatch T)
    (time : T) :
    (frontier.foldl (fun batch t => batch.update t value) changes).net time =
      changes.net time + present frontier time * value := by
  induction frontier generalizing changes with
  | nil => simp [present]
  | cons head rest ih =>
    obtain ⟨absent, tail⟩ := List.nodup_cons.mp distinct
    rw [List.foldl_cons, ih tail, ChangeBatch.update_net]
    unfold present
    by_cases same : head = time
    · subst head
      simp [absent]
    · have apart : time ≠ head := fun equal => same equal.symm
      simp [same, apart]

/-- The returned changes are the difference of the two frontiers. -/
theorem updateIter_changes (updates : List (T × Int)) (time : T) :
    netOf (antichain.updateIter updates).2 time =
      present (antichain.updateIter updates).1.frontier time - present antichain.frontier time := by
  have empty := antichain.drained
  unfold updateIter
  split
  · rename_i batch found
    have distinct : (rebuildFrontier batch.iter.1).Nodup :=
      (rebuildFrontier_isFrontier batch.compact_compacted).nodup
    dsimp only
    rw [ChangeBatch.drain_net, recordChanges, empty, foldl_update_net _ distinct,
      foldl_update_net _ antichain.isFrontier.nodup, ChangeBatch.new_net]
    omega
  · rw [ChangeBatch.drain_net, empty, ChangeBatch.new_net, Int.sub_self]

theorem updateIter_compacted (updates : List (T × Int)) :
    Compacted (antichain.updateIter updates).2 := by
  unfold updateIter
  split
  · exact ChangeBatch.compact_compacted _
  · exact ChangeBatch.compact_compacted _

/-- A returned change is at a time of the frontier before the updates or after them. -/
theorem mem_frontier_of_change {antichain : MutableAntichain T} {change : T × Int}
    (member : change ∈ (antichain.updateIter updates).2) :
    change.1 ∈ antichain.frontier ∨ change.1 ∈ (antichain.updateIter updates).1.frontier := by
  obtain ⟨nonzero, value⟩ := ((antichain.updateIter_compacted updates).mem_iff change).mp member
  rw [updateIter_changes] at value
  by_contra absent
  push Not at absent
  unfold present at value
  rw [if_neg absent.1, if_neg absent.2] at value
  exact nonzero value.symm

theorem netOf_map_const (frontier : List T) (distinct : frontier.Nodup) (value : Int) (time : T) :
    netOf (frontier.map fun t => (t, value)) time = present frontier time * value := by
  induction frontier with
  | nil => simp [present]
  | cons head rest ih =>
    obtain ⟨absent, tail⟩ := List.nodup_cons.mp distinct
    rw [List.map_cons, netOf_cons, ih tail]
    unfold present
    by_cases same : head = time
    · subst head
      simp [absent]
    · have apart : time ≠ head := fun equal => same equal.symm
      simp [same, apart]

omit [TimeOrder T] in
theorem weigh_map_const (frontier : List T) (value : Int) (weight : T → Int) :
    weigh (frontier.map fun t => (t, value)) weight = value * (frontier.map weight).sum := by
  induction frontier with
  | nil => simp [weigh]
  | cons head rest ih =>
    rw [List.map_cons, weigh_cons, ih, List.map_cons, List.sum_cons]
    ring

/-- Every weighted sum over the returned changes is the difference of the sums over the two frontiers. -/
theorem updateIter_weigh (updates : List (T × Int)) (weight : T → Int) :
    weigh (antichain.updateIter updates).2 weight =
      ((antichain.updateIter updates).1.frontier.map weight).sum - (antichain.frontier.map weight).sum := by
  have same : ∀ time, netOf (antichain.updateIter updates).2 time =
      netOf ((antichain.updateIter updates).1.frontier.map (fun t => (t, 1)) ++
        antichain.frontier.map fun t => (t, -1)) time := by
    intro time
    rw [updateIter_changes, netOf_append, netOf_map_const _ (antichain.updateIter updates).1.isFrontier.nodup,
      netOf_map_const _ antichain.isFrontier.nodup]
    omega
  rw [weigh_congr same, weigh_append, weigh_map_const, weigh_map_const]
  ring

variable {first second : MutableAntichain T}

/-- The counts at or below a time decide whether it is on the frontier. -/
theorem mem_frontier_of_same {time : T}
    (same : ∀ other ≤ time, first.countFor other = second.countFor other) (member : time ∈ first.frontier) :
    time ∈ second.frontier := by
  rw [mem_frontier] at member ⊢
  obtain ⟨positive, least⟩ := member
  refine ⟨?_, fun other held below => ?_⟩
  · change 0 < second.countFor time
    rw [← same time (le_refl time)]
    exact positive
  · apply least _ below
    rw [same other below]
    exact held

theorem present_congr {time : T} (same : ∀ other ≤ time, first.countFor other = second.countFor other) :
    present first.frontier time = present second.frontier time := by
  have iff : time ∈ first.frontier ↔ time ∈ second.frontier :=
    ⟨mem_frontier_of_same same, mem_frontier_of_same fun other below => (same other below).symm⟩
  unfold present
  rw [if_congr iff rfl rfl]

/-- One changed count moves the frontier only at or above its time. -/
theorem updateIter_single_le (time : T) (diff : Int) {change : T × Int}
    (member : change ∈ (antichain.updateIter [(time, diff)]).2) : time ≤ change.1 := by
  by_contra apart
  obtain ⟨nonzero, value⟩ := ((antichain.updateIter_compacted [(time, diff)]).mem_iff change).mp member
  have same : present (antichain.updateIter [(time, diff)]).1.frontier change.1 =
      present antichain.frontier change.1 := by
    apply present_congr
    intro other below
    have elsewhere : time ≠ other := fun equal => apart (equal ▸ below)
    rw [updateIter_countFor, netOf_cons, if_neg elsewhere, netOf_nil]
    omega
  rw [updateIter_changes, same, Int.sub_self] at value
  exact nonzero value.symm

/-- The listed counts are the nonzero ones, in the order of their times. -/
theorem netCounts_compacted : Compacted antichain.netCounts :=
  mergeAdjacent_compacted antichain.updates.updates

theorem netCounts_net (time : T) : netOf antichain.netCounts time = antichain.countFor time := by
  unfold netCounts
  rw [netOf_retain, mergeAdjacent_net, netOf_perm (sortByKey_perm antichain.updates.updates)]
  rfl

theorem isZero_iff : antichain.isZero.1 = true ↔ ∀ time, antichain.countFor time = 0 :=
  antichain.updates.isEmpty_iff

/-- A change is returned exactly for a time that enters the frontier or leaves it. -/
theorem mem_updateIter_changes (updates : List (T × Int)) (change : T × Int) :
    change ∈ (antichain.updateIter updates).2 ↔
      (change.2 = 1 ∧ change.1 ∉ antichain.frontier ∧ change.1 ∈ (antichain.updateIter updates).1.frontier) ∨
        (change.2 = -1 ∧ change.1 ∈ antichain.frontier ∧ change.1 ∉ (antichain.updateIter updates).1.frontier) := by
  rw [(antichain.updateIter_compacted updates).mem_iff, updateIter_changes]
  unfold present
  by_cases before : change.1 ∈ antichain.frontier <;>
    by_cases after : change.1 ∈ (antichain.updateIter updates).1.frontier <;>
    simp only [before, after, if_true, if_false, not_true_eq_false, not_false_eq_true, and_true, and_false, or_false,
      false_or, iff_false, not_and] <;> omega

end MutableAntichain

section Calls

variable {T : Type} [TimeOrder T]

/-- The calls that change a counted multiset: a batch of updates, or the zero test with its compaction. -/
inductive AntichainCall (T : Type) where
  | updateIter (updates : List (T × Int))
  | isZero

namespace AntichainCall

def run (antichain : MutableAntichain T) : AntichainCall T → MutableAntichain T
  | updateIter updates => (antichain.updateIter updates).1
  | isZero => antichain.isZero.2

def runAll (calls : List (AntichainCall T)) : MutableAntichain T := calls.foldl run MutableAntichain.new

/-- The updates that a call adds. -/
def added : AntichainCall T → List (T × Int)
  | updateIter updates => updates
  | isZero => []

theorem run_countFor (antichain : MutableAntichain T) (call : AntichainCall T) (time : T) :
    (call.run antichain).countFor time = antichain.countFor time + netOf call.added time := by
  cases call with
  | updateIter updates => exact antichain.updateIter_countFor updates time
  | isZero => exact (antichain.isZero_countFor time).trans (Int.add_zero _).symm

theorem runAll_countFor (calls : List (AntichainCall T)) (time : T) :
    (runAll calls).countFor time = netOf (calls.flatMap added) time := by
  induction calls using List.reverseRecOn with
  | nil => rfl
  | append_singleton calls call ih =>
    rw [runAll, List.foldl_concat, ← runAll, run_countFor, ih, List.flatMap_append, netOf_append,
      List.flatMap_singleton]

end AntichainCall

/-- After a batch everything agrees with the exact sums of the updates: the frontier, the returned changes and the
counts. -/
structure MutableAntichain.Follows (before after : MutableAntichain T) (changes : List (T × Int)) (sum : T → Int) :
    Prop where
  frontier : ∀ time, time ∈ after.frontier ↔ Minimal (fun other => 0 < sum other) time
  antichain : after.frontier.Pairwise Incomparable
  entered : ∀ time, (time, 1) ∈ changes ↔ time ∉ before.frontier ∧ time ∈ after.frontier
  left : ∀ time, (time, -1) ∈ changes ↔ time ∈ before.frontier ∧ time ∉ after.frontier
  units : ∀ change ∈ changes, change.2 = 1 ∨ change.2 = -1
  once : (changes.map Prod.fst).Nodup
  countFor : ∀ time, after.countFor time = sum time
  netCounts : ∀ time count, (time, count) ∈ after.netCounts ↔ count ≠ 0 ∧ sum time = count
  netCounts_sorted : (after.netCounts.map Prod.fst).Pairwise OrdLt
  isZero : after.isZero.1 = true ↔ ∀ time, sum time = 0

/-- For every sequence of batches, with zero tests anywhere between them, each further batch leaves the minimal times of
positive sum as the frontier, returns its difference to the frontier before, and leaves the exact sums as the counts. -/
theorem AntichainCall.runAll_follows (calls : List (AntichainCall T)) (updates : List (T × Int)) :
    (runAll calls).Follows ((runAll calls).updateIter updates).1 ((runAll calls).updateIter updates).2
      (netOf (calls.flatMap added ++ updates)) := by
  obtain ⟨before, isBefore⟩ : ∃ before, before = runAll calls := ⟨_, rfl⟩
  have counts : ∀ time, (before.updateIter updates).1.countFor time = netOf (calls.flatMap added ++ updates) time := by
    intro time
    rw [before.updateIter_countFor, isBefore, runAll_countFor, netOf_append]
  have compacted := before.updateIter_compacted updates
  rw [← isBefore]
  refine ⟨fun time => ?_, (before.updateIter updates).1.isFrontier.incomparable, fun time => ?_, fun time => ?_,
    fun change member => ?_, ?_, counts, fun time count => ?_, ?_, ?_⟩
  · rw [MutableAntichain.mem_frontier]
    simp only [counts]
  · rw [before.mem_updateIter_changes]
    simp
  · rw [before.mem_updateIter_changes]
    simp
  · rcases (before.mem_updateIter_changes updates change).mp member with entered | left
    · exact Or.inl entered.1
    · exact Or.inr left.1
  · exact List.pairwise_map.mpr (compacted.sorted.imp fun earlier => earlier.2)
  · rw [(before.updateIter updates).1.netCounts_compacted.mem_iff, MutableAntichain.netCounts_net, counts]
  · exact List.pairwise_map.mpr (before.updateIter updates).1.netCounts_compacted.sorted
  · rw [MutableAntichain.isZero_iff]
    simp only [counts]

end Calls

end Instancy
