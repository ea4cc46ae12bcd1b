import Instancy.Order
import Mathlib.Tactic.Ring
import Mathlib.Algebra.BigOperators.Ring.Finset

namespace Instancy

/-- This sum is the net value of one key in a list of updates. Counts are integers everywhere: those of the source are
`i64`, and their sums are assumed to stay in its range. -/
def netOf {A : Type} [DecidableEq A] : List (A × Int) → A → Int
  | [], _ => 0
  | (key, value) :: rest, query => (if key = query then value else 0) + netOf rest query

section NetOf

variable {A : Type} [DecidableEq A]

@[simp] theorem netOf_nil (query : A) : netOf [] query = 0 := rfl

@[simp] theorem netOf_cons (entry : A × Int) (rest : List (A × Int)) (query : A) :
    netOf (entry :: rest) query = (if entry.1 = query then entry.2 else 0) + netOf rest query := rfl

@[simp] theorem netOf_append (first second : List (A × Int)) (query : A) :
    netOf (first ++ second) query = netOf first query + netOf second query := by
  induction first with
  | nil => simp
  | cons entry rest ih =>
    rw [List.cons_append, netOf_cons, netOf_cons, ih]
    ring

variable {first second : List (A × Int)}

theorem netOf_perm (same : first.Perm second) (query : A) :
    netOf first query = netOf second query := by
  induction same with
  | nil => rfl
  | cons entry _ ih => rw [netOf_cons, netOf_cons, ih]
  | swap one two rest =>
    rw [netOf_cons, netOf_cons, netOf_cons, netOf_cons]
    ring
  | trans _ _ ih₁ ih₂ => rw [ih₁, ih₂]

/-- The dropped zero entries do not change a net value. -/
theorem netOf_retain (updates : List (A × Int)) (query : A) :
    netOf (updates.filter fun entry => entry.2 ≠ 0) query = netOf updates query := by
  induction updates with
  | nil => rfl
  | cons entry rest ih =>
    rw [netOf_cons, List.filter_cons]
    by_cases zero : entry.2 = 0
    · rw [if_neg (by simp [zero]), zero, ih]
      simp
    · rw [if_pos (by simp [zero]), netOf_cons, ih]

theorem netOf_eq_zero {updates : List (A × Int)} {query : A}
    (absent : ∀ entry ∈ updates, entry.1 ≠ query) : netOf updates query = 0 := by
  induction updates with
  | nil => rfl
  | cons entry rest ih =>
    rw [netOf_cons, if_neg (absent entry List.mem_cons_self), Int.zero_add]
    exact ih fun other member => absent other (List.mem_cons_of_mem entry member)

/-- The weighted sum of the values of a list of updates. -/
def weigh (updates : List (A × Int)) (weight : A → Int) : Int :=
  (updates.map fun entry => entry.2 * weight entry.1).sum

omit [DecidableEq A] in
theorem weigh_cons (entry : A × Int) (rest : List (A × Int)) (weight : A → Int) :
    weigh (entry :: rest) weight = entry.2 * weight entry.1 + weigh rest weight := by
  rw [weigh, List.map_cons, List.sum_cons, weigh]

omit [DecidableEq A] in
theorem weigh_append (first second : List (A × Int)) (weight : A → Int) :
    weigh (first ++ second) weight = weigh first weight + weigh second weight := by
  rw [weigh, List.map_append, List.sum_append, weigh, weigh]

theorem weigh_eq_sum (updates : List (A × Int)) (weight : A → Int) (keys : Finset A)
    (covered : ∀ entry ∈ updates, entry.1 ∈ keys) :
    weigh updates weight = ∑ key ∈ keys, netOf updates key * weight key := by
  induction updates with
  | nil => simp [weigh]
  | cons entry rest ih =>
    have tail := ih fun other member => covered other (List.mem_cons_of_mem entry member)
    rw [weigh_cons, tail]
    simp only [netOf_cons, Int.add_mul, Finset.sum_add_distrib, ite_mul, zero_mul, Finset.sum_ite_eq,
      covered entry List.mem_cons_self, if_true]

/-- The weighted sum depends only on the net values. -/
theorem weigh_congr (same : ∀ key, netOf first key = netOf second key)
    (weight : A → Int) : weigh first weight = weigh second weight := by
  have inKeys : ∀ entry ∈ first ++ second, entry.1 ∈ ((first ++ second).map Prod.fst).toFinset :=
    fun entry member => List.mem_toFinset.mpr (List.mem_map_of_mem member)
  rw [weigh_eq_sum first weight _ fun entry member => inKeys entry (List.mem_append_left _ member),
    weigh_eq_sum second weight _ fun entry member => inKeys entry (List.mem_append_right _ member)]
  exact Finset.sum_congr rfl fun key _ => by rw [same key]

end NetOf

section Compaction

variable {A : Type} [TotalOrd A]

/-- A compacted list is strictly sorted and has no zero values. -/
structure Compacted (updates : List (A × Int)) : Prop where
  sorted : updates.Pairwise fun first second => OrdLt first.1 second.1
  nonzero : ∀ entry ∈ updates, entry.2 ≠ 0

theorem Compacted.nil : Compacted ([] : List (A × Int)) :=
  ⟨List.Pairwise.nil, nofun⟩

/-- A compacted list holds exactly the nonzero net values. -/
theorem Compacted.mem_iff {updates : List (A × Int)} (compacted : Compacted updates) (entry : A × Int) :
    entry ∈ updates ↔ entry.2 ≠ 0 ∧ netOf updates entry.1 = entry.2 := by
  obtain ⟨sorted, nonzero⟩ := compacted
  induction updates with
  | nil =>
    simp only [List.not_mem_nil, netOf_nil, false_iff, not_and]
    exact fun apart same => apart same.symm
  | cons head rest ih =>
    obtain ⟨above, tailSorted⟩ := List.pairwise_cons.mp sorted
    have tail := ih tailSorted fun other member => nonzero other (List.mem_cons_of_mem head member)
    rw [netOf_cons, List.mem_cons]
    by_cases same : head.1 = entry.1
    · have none : netOf rest entry.1 = 0 := netOf_eq_zero fun other member equal =>
        (above other member).2 (same.trans equal.symm)
      rw [if_pos same, none, Int.add_zero]
      constructor
      · intro found
        rcases found with equal | member
        · subst equal
          exact ⟨nonzero entry List.mem_cons_self, rfl⟩
        · exact absurd same (above entry member).2
      · intro found
        exact Or.inl (Prod.ext same.symm found.2.symm)
    · rw [if_neg same, Int.zero_add, ← tail]
      constructor
      · intro found
        rcases found with equal | member
        · exact absurd (congrArg Prod.fst equal.symm) same
        · exact member
      · exact Or.inr

/-- The merge pass moves the value of each entry onto the next entry of the same key. -/
def mergeFrom (key : A) (value : Int) : List (A × Int) → List (A × Int)
  | [] => [(key, value)]
  | (next, amount) :: rest =>
    if key = next then (key, 0) :: mergeFrom next (amount + value) rest
    else (key, value) :: mergeFrom next amount rest

def mergeAdjacent : List (A × Int) → List (A × Int)
  | [] => []
  | (key, value) :: rest => mergeFrom key value rest

theorem mergeFrom_net (key : A) (value : Int) (rest : List (A × Int)) (query : A) :
    netOf (mergeFrom key value rest) query = netOf ((key, value) :: rest) query := by
  induction rest generalizing key value with
  | nil => rfl
  | cons entry rest ih =>
    obtain ⟨next, amount⟩ := entry
    unfold mergeFrom
    by_cases same : key = next
    · subst next
      rw [if_pos rfl, netOf_cons, ih]
      simp only [netOf_cons]
      split <;> ring
    · rw [if_neg same, netOf_cons, ih]
      simp only [netOf_cons]

variable (updates : List (A × Int))

theorem mergeAdjacent_net (query : A) :
    netOf (mergeAdjacent updates) query = netOf updates query := by
  cases updates with
  | nil => rfl
  | cons entry rest => exact mergeFrom_net entry.1 entry.2 rest query

/-- After the merge pass the nonzero entries have strictly increasing keys. -/
theorem mergeFrom_sorted (key : A) (value : Int) (rest : List (A × Int))
    (sorted : ((key, value) :: rest).Pairwise fun first second => ordLe first.1 second.1) :
    ((mergeFrom key value rest).filter fun entry => entry.2 ≠ 0).Pairwise
        (fun first second => OrdLt first.1 second.1) ∧
      ∀ entry ∈ (mergeFrom key value rest).filter (fun entry => entry.2 ≠ 0), ordLe key entry.1 := by
  induction rest generalizing key value with
  | nil =>
    unfold mergeFrom
    by_cases zero : value = 0
    · simp [zero]
    · simp [zero, ordLe_refl]
  | cons entry rest ih =>
    obtain ⟨next, amount⟩ := entry
    obtain ⟨above, tail⟩ := List.pairwise_cons.mp sorted
    have below : ordLe key next := above (next, amount) List.mem_cons_self
    unfold mergeFrom
    by_cases same : key = next
    · subst next
      have merged : ((key, amount + value) :: rest).Pairwise fun first second => ordLe first.1 second.1 := by
        obtain ⟨tailAbove, tailSorted⟩ := List.pairwise_cons.mp tail
        exact List.pairwise_cons.mpr ⟨tailAbove, tailSorted⟩
      simpa using ih key (amount + value) merged
    · obtain ⟨restSorted, restAbove⟩ := ih next amount tail
      rw [if_neg same]
      have strict : OrdLt key next := ⟨below, same⟩
      have keyAbove : ∀ other ∈ (mergeFrom next amount rest).filter (fun entry => entry.2 ≠ 0),
          OrdLt key other.1 := fun other member => strict.trans_le (restAbove other member)
      by_cases zero : value = 0
      · rw [List.filter_cons_of_neg (by simp [zero])]
        exact ⟨restSorted, fun other member => (keyAbove other member).1⟩
      · rw [List.filter_cons_of_pos (by simp [zero])]
        refine ⟨List.pairwise_cons.mpr ⟨keyAbove, restSorted⟩, fun other member => ?_⟩
        rcases List.mem_cons.mp member with equal | later
        · rw [equal]
          exact ordLe_refl key
        · exact (keyAbove other later).1

/-- The sort compares only the keys. -/
def sortByKey (updates : List (A × Int)) : List (A × Int) :=
  updates.insertionSort fun first second => ordLe first.1 second.1

theorem sortByKey_perm : (sortByKey updates).Perm updates :=
  List.perm_insertionSort _ updates

theorem sortByKey_sorted :
    (sortByKey updates).Pairwise fun first second => ordLe first.1 second.1 :=
  haveI : Std.Total fun first second : A × Int => ordLe first.1 second.1 :=
    ⟨fun first second => TotalOrd.ordLe_total first.1 second.1⟩
  haveI : IsTrans (A × Int) fun first second => ordLe first.1 second.1 :=
    ⟨fun first second third => TotalOrd.ordLe_trans first.1 second.1 third.1⟩
  List.pairwise_insertionSort _ updates

/-- This is the body of `compact`: sort, merge equal keys and drop the zeros. -/
def compactUpdates (updates : List (A × Int)) : List (A × Int) :=
  (if updates.length > 1 then mergeAdjacent (sortByKey updates) else updates).filter fun entry => entry.2 ≠ 0

theorem compactUpdates_net (query : A) :
    netOf (compactUpdates updates) query = netOf updates query := by
  unfold compactUpdates
  rw [netOf_retain]
  split
  · rw [mergeAdjacent_net, netOf_perm (sortByKey_perm updates)]
  · rfl

/-- The merge pass over sorted updates leaves a compacted list once the zeros are dropped. -/
theorem mergeAdjacent_compacted :
    Compacted ((mergeAdjacent (sortByKey updates)).filter fun entry => entry.2 ≠ 0) := by
  refine ⟨?_, fun entry member => by simpa using (List.mem_filter.mp member).2⟩
  have sorted := sortByKey_sorted updates
  cases same : sortByKey updates with
  | nil => exact List.Pairwise.nil
  | cons entry rest =>
    rw [same] at sorted
    exact (mergeFrom_sorted entry.1 entry.2 rest sorted).1

theorem compactUpdates_compacted : Compacted (compactUpdates updates) := by
  unfold compactUpdates
  split
  · exact mergeAdjacent_compacted updates
  · rename_i short
    refine ⟨?_, fun entry member => by simpa using (List.mem_filter.mp member).2⟩
    -- A list of at most one entry is already sorted.
    match updates, short with
    | [], _ => exact List.Pairwise.nil
    | [entry], _ => exact (List.pairwise_singleton _ entry).filter _
    | _ :: _ :: _, long => simp at long

end Compaction

/-- The first `clean` updates are compacted. -/
structure ChangeBatch (A : Type) [TotalOrd A] where
  updates : List (A × Int)
  clean : Nat
  clean_le : clean ≤ updates.length
  compacted : Compacted (updates.take clean)

namespace ChangeBatch

variable {A : Type} [TotalOrd A]

def new : ChangeBatch A where
  updates := []
  clean := 0
  clean_le := Nat.le_refl 0
  compacted := Compacted.nil

instance : Inhabited (ChangeBatch A) := ⟨new⟩

variable (batch : ChangeBatch A)

/-- The net value of a key over all stored updates. -/
def net (key : A) : Int := netOf batch.updates key

def compact : ChangeBatch A :=
  if batch.clean < batch.updates.length then
    { updates := compactUpdates batch.updates
      clean := (compactUpdates batch.updates).length
      clean_le := Nat.le_refl _
      compacted := by rw [List.take_length]; exact compactUpdates_compacted batch.updates }
  else batch

/-- Compaction starts once more than 32 updates are at least half dirty. -/
def maintainBounds : ChangeBatch A :=
  if batch.updates.length > 32 ∧ batch.updates.length / 2 ≥ batch.clean then batch.compact else batch

/-- The updates are appended without compaction. -/
def append (items : List (A × Int)) : ChangeBatch A where
  updates := batch.updates ++ items
  clean := batch.clean
  clean_le := by
    have := batch.clean_le
    rw [List.length_append]
    omega
  compacted := by
    rw [List.take_append_of_le_length batch.clean_le]
    exact batch.compacted

def update (item : A) (value : Int) : ChangeBatch A :=
  (batch.append [(item, value)]).maintainBounds

def extend (items : List (A × Int)) : ChangeBatch A :=
  (batch.append items).maintainBounds

/-- The answer may compact the batch. -/
def isEmpty : Bool × ChangeBatch A :=
  if batch.clean > batch.updates.length / 2 then (false, batch)
  else (batch.compact.updates.isEmpty, batch.compact)

def isEmptyClean : Bool := batch.updates.isEmpty

/-- The compacted entries, and the batch after the compaction. -/
def iter : List (A × Int) × ChangeBatch A :=
  (batch.compact.updates, batch.compact)

/-- The compacted entries leave the batch empty. -/
def drain : List (A × Int) × ChangeBatch A :=
  (batch.compact.updates, new)

/-- The result is the receiver of the updates and the drained batch. -/
def drainInto (other : ChangeBatch A) : ChangeBatch A × ChangeBatch A :=
  if other.updates.isEmpty then (batch, other) else (other.extend batch.updates, new)

@[simp] theorem new_net (key : A) : (new : ChangeBatch A).net key = 0 := rfl

section

include batch

theorem compact_compacted : Compacted batch.compact.updates := by
  unfold compact
  split
  · exact compactUpdates_compacted batch.updates
  · have whole : batch.clean = batch.updates.length := by
      have := batch.clean_le
      omega
    have taken := batch.compacted
    rwa [whole, List.take_length] at taken

@[simp] theorem compact_net (key : A) : batch.compact.net key = batch.net key := by
  unfold compact
  split
  · exact compactUpdates_net batch.updates key
  · rfl

@[simp] theorem maintainBounds_net (key : A) : batch.maintainBounds.net key = batch.net key := by
  unfold maintainBounds
  split
  · exact compact_net batch key
  · rfl

@[simp] theorem update_net (item : A) (value : Int) (key : A) :
    (batch.update item value).net key = batch.net key + if item = key then value else 0 := by
  rw [update, maintainBounds_net]
  change netOf (batch.updates ++ [(item, value)]) key = _
  rw [netOf_append, netOf_cons, netOf_nil, Int.add_zero]
  rfl

@[simp] theorem extend_net (items : List (A × Int)) (key : A) :
    (batch.extend items).net key = batch.net key + netOf items key := by
  rw [extend, maintainBounds_net]
  exact netOf_append batch.updates items key

/-- The drained entries are the nonzero net values of the batch. -/
theorem mem_drain (entry : A × Int) : entry ∈ batch.drain.1 ↔ entry.2 ≠ 0 ∧ batch.net entry.1 = entry.2 := by
  rw [← batch.compact_net]
  exact batch.compact_compacted.mem_iff entry

@[simp] theorem drain_net (key : A) : netOf batch.drain.1 key = batch.net key :=
  compact_net batch key

@[simp] theorem drain_rest : batch.drain.2 = new := rfl

end

/-- A batch with no stored update has no net value. -/
theorem net_of_isEmptyClean {batch : ChangeBatch A} (empty : batch.isEmptyClean = true) (key : A) :
    batch.net key = 0 := by
  have none : batch.updates = [] := List.isEmpty_iff.mp empty
  rw [net, none, netOf_nil]

theorem drainInto_net (other : ChangeBatch A) (key : A) :
    (batch.drainInto other).1.net key = other.net key + batch.net key := by
  unfold drainInto
  split
  · rename_i empty
    rw [show other.net key = 0 from net_of_isEmptyClean empty key, Int.zero_add]
  · exact extend_net other batch.updates key

theorem drainInto_rest (other : ChangeBatch A) (key : A) : (batch.drainInto other).2.net key = 0 := by
  unfold drainInto
  split
  · rename_i empty
    exact net_of_isEmptyClean empty key
  · rfl

/-- More clean entries than dirty ones leave one clean key untouched. -/
theorem exists_untouched {batch : ChangeBatch A} (mostly : batch.clean > batch.updates.length / 2) :
    ∃ entry ∈ batch.updates.take batch.clean, ∀ other ∈ batch.updates.drop batch.clean, other.1 ≠ entry.1 := by
  by_contra touched
  have distinct : ((batch.updates.take batch.clean).map Prod.fst).Nodup := by
    rw [List.Nodup, List.pairwise_map]
    exact batch.compacted.sorted.imp fun before => before.2
  have covered : (batch.updates.take batch.clean).map Prod.fst ⊆
      (batch.updates.drop batch.clean).map Prod.fst := by
    intro key member
    obtain ⟨entry, found, same⟩ := List.mem_map.mp member
    by_contra missing
    apply touched
    refine ⟨entry, found, fun other later equal => missing ?_⟩
    exact List.mem_map.mpr ⟨other, later, equal.trans same⟩
  have counted := (List.subperm_of_subset distinct covered).length_le
  have bound := batch.clean_le
  simp only [List.length_map, List.length_take, List.length_drop] at counted
  omega

/-- The empty test answers for the net values. -/
theorem isEmpty_iff : batch.isEmpty.1 = true ↔ ∀ key, batch.net key = 0 := by
  unfold isEmpty
  split
  · rename_i mostly
    obtain ⟨entry, found, untouched⟩ := exists_untouched mostly
    obtain ⟨nonzero, value⟩ := (batch.compacted.mem_iff entry).mp found
    have kept : batch.net entry.1 = entry.2 := by
      rw [net, ← List.take_append_drop batch.clean batch.updates, netOf_append, value,
        netOf_eq_zero untouched, Int.add_zero]
    simp only [Bool.false_eq_true, false_iff]
    exact fun zero => nonzero (kept.symm.trans (zero entry.1))
  · simp only [List.isEmpty_iff]
    constructor
    · intro none key
      rw [← compact_net, net, none, netOf_nil]
    · intro zero
      apply List.eq_nil_iff_forall_not_mem.mpr
      intro entry member
      obtain ⟨nonzero, value⟩ := (batch.mem_drain entry).mp member
      exact nonzero (value.symm.trans (zero entry.1))

@[simp] theorem isEmpty_net (key : A) : batch.isEmpty.2.net key = batch.net key := by
  unfold isEmpty
  split
  · rfl
  · exact compact_net batch key

end ChangeBatch

end Instancy
