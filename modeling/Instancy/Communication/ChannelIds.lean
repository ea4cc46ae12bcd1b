import Instancy.Communication.SharedTransport

namespace Instancy

open Library

def channelNamespaceSize : Nat := 2 ^ 62

def progressChannelBase : Nat := channelNamespaceSize

def dataChannelBase : Nat := 2 * channelNamespaceSize

def reservedChannelBase : Nat := 3 * channelNamespaceSize

/-- The result of `checked_add` and `checked_mul`, which must fit in a `u64`. -/
def checked (value : Nat) : Option Nat := if value < 2 ^ 64 then some value else none

theorem checked_eq_some {value result : Nat} : checked value = some result ↔ value < 2 ^ 64 ∧ value = result := by
  simp [checked]

/-- The error is the message of `InvalidConfig`. -/
def namespacedChannelId (base : Nat) (offset : Option Nat) (what : String) : Except String Nat :=
  match offset.filter (· < channelNamespaceSize) with
  | some offset => .ok (base + offset)
  | none => .error s!"{what} channel id space exhausted: the cluster has too many workers or exchange edges"

theorem namespacedChannelId_ok {base id : Nat} {offset : Option Nat} {what : String} :
    namespacedChannelId base offset what = .ok id ↔
      ∃ value, offset = some value ∧ value < channelNamespaceSize ∧ id = base + value := by
  unfold namespacedChannelId
  cases offset with
  | none => simp
  | some value => by_cases fits : value < channelNamespaceSize <;> simp [Option.filter, fits, eq_comm]

def checkWorkerIndices (source target numWorkers : Nat) : Except String Unit :=
  if source ≥ numWorkers ∨ target ≥ numWorkers then
    .error s!"worker pair ({source}, {target}) out of range for {numWorkers} workers"
  else .ok ()

theorem checkWorkerIndices_ok {source target numWorkers : Nat} {done : Unit} :
    checkWorkerIndices source target numWorkers = .ok done ↔ source < numWorkers ∧ target < numWorkers := by
  unfold checkWorkerIndices
  split <;> simp <;> omega

def progressChannelId (source target numWorkers : Nat) : Except String Nat :=
  checkWorkerIndices source target numWorkers >>= fun _ =>
    let offset := (checked (source * numWorkers)).bind fun v => checked (v + target)
    namespacedChannelId progressChannelBase offset "progress"

def dataChannelId (edgeIndex source target numWorkers : Nat) : Except String Nat :=
  checkWorkerIndices source target numWorkers >>= fun _ =>
    let offset := (((checked (edgeIndex * numWorkers)).bind fun v => checked (v + source)).bind fun v =>
      checked (v * numWorkers)).bind fun v => checked (v + target)
    namespacedChannelId dataChannelBase offset "data"

variable {numWorkers edge source target id : Nat}

theorem progressChannelId_ok : progressChannelId source target numWorkers = .ok id ↔
    (source < numWorkers ∧ target < numWorkers) ∧ source * numWorkers + target < channelNamespaceSize ∧
      id = progressChannelBase + (source * numWorkers + target) := by
  unfold progressChannelId
  simp only [bind_eq_ok, exists_const, checkWorkerIndices_ok, namespacedChannelId_ok, Option.bind_eq_some_iff,
    checked_eq_some, channelNamespaceSize]
  refine and_congr_right fun _ => ⟨?_, fun below => ⟨_, ⟨_, ⟨by omega, rfl⟩, by omega, rfl⟩, below⟩⟩
  rintro ⟨_, ⟨_, ⟨_, rfl⟩, _, rfl⟩, below⟩
  exact below

theorem dataChannelId_ok : dataChannelId edge source target numWorkers = .ok id ↔
    (source < numWorkers ∧ target < numWorkers) ∧
      (edge * numWorkers + source) * numWorkers + target < channelNamespaceSize ∧
      id = dataChannelBase + ((edge * numWorkers + source) * numWorkers + target) := by
  unfold dataChannelId
  simp only [bind_eq_ok, exists_const, checkWorkerIndices_ok, namespacedChannelId_ok, Option.bind_eq_some_iff,
    checked_eq_some, channelNamespaceSize]
  refine and_congr_right fun workers => ⟨?_, fun below => ?_⟩
  · rintro ⟨_, ⟨_, ⟨_, ⟨_, ⟨_, rfl⟩, _, rfl⟩, _, rfl⟩, _, rfl⟩, below⟩
    exact below
  · -- no intermediate value is larger than the id, since there is at least one worker
    have grows : edge * numWorkers + source ≤ (edge * numWorkers + source) * numWorkers :=
      Nat.le_mul_of_pos_right _ (by omega)
    exact ⟨_, ⟨_, ⟨_, ⟨_, ⟨by omega, rfl⟩, by omega, rfl⟩, by omega, rfl⟩, by omega, rfl⟩, below⟩

/-- A number below the base is the last digit. -/
theorem digits_unique {base high low high' low' : Nat} (small : low < base) (small' : low' < base)
    (same : high * base + low = high' * base + low') : high = high' ∧ low = low' := by
  have last : low = low' := by
    have remainder := congrArg (· % base) same
    simpa [Nat.mul_add_mod_self_right, Nat.mod_eq_of_lt small, Nat.mod_eq_of_lt small'] using remainder
  subst last
  exact ⟨Nat.eq_of_mul_eq_mul_right (by omega) (Nat.add_right_cancel same), rfl⟩

/-- The ids of a cluster of any size: each function succeeds exactly if the workers exist and the value of its formula is
in the namespace, the id then is in its own namespace and has the arguments of no other channel, and an edge has all ids
if it has the one of its last pair of workers, as have the edges before it. -/
theorem channelIds_distinct (numWorkers : Nat) :
    (∀ source target, (∃ id, progressChannelId source target numWorkers = .ok id) ↔
      (source < numWorkers ∧ target < numWorkers) ∧ source * numWorkers + target < 2 ^ 62) ∧
    (∀ edge source target, (∃ id, dataChannelId edge source target numWorkers = .ok id) ↔
      (source < numWorkers ∧ target < numWorkers) ∧ (edge * numWorkers + source) * numWorkers + target < 2 ^ 62) ∧
    (∀ source target source' target' id, progressChannelId source target numWorkers = .ok id →
      progressChannelId source' target' numWorkers = .ok id → source = source' ∧ target = target') ∧
    (∀ edge source target edge' source' target' id, dataChannelId edge source target numWorkers = .ok id →
      dataChannelId edge' source' target' numWorkers = .ok id → edge = edge' ∧ source = source' ∧ target = target') ∧
    controlChannelId.toNat < progressChannelBase ∧
    (∀ source target id, progressChannelId source target numWorkers = .ok id →
      progressChannelBase ≤ id ∧ id < dataChannelBase) ∧
    (∀ edge source target id, dataChannelId edge source target numWorkers = .ok id →
      dataChannelBase ≤ id ∧ id < reservedChannelBase) ∧
    reservedChannelBase ≤ probeChannelId.toNat ∧
    ∀ edge last, dataChannelId edge (numWorkers - 1) (numWorkers - 1) numWorkers = .ok last →
      ∀ edge' source target, edge' ≤ edge → source < numWorkers → target < numWorkers →
        ∃ id, dataChannelId edge' source target numWorkers = .ok id := by
  simp only [progressChannelId_ok, dataChannelId_ok, exists_and_left, exists_eq, and_true]
  refine ⟨fun _ _ => Iff.rfl, fun _ _ _ => Iff.rfl, ?_, ?_, by decide, ?_, ?_, by decide, ?_⟩
  · rintro source target source' target' _ ⟨workers, _, rfl⟩ ⟨workers', _, same⟩
    exact digits_unique workers.2 workers'.2 (Nat.add_left_cancel same)
  · rintro edge source target edge' source' target' _ ⟨workers, _, rfl⟩ ⟨workers', _, same⟩
    obtain ⟨high, low⟩ := digits_unique workers.2 workers'.2 (Nat.add_left_cancel same)
    obtain ⟨sameEdge, sameSource⟩ := digits_unique workers.1 workers'.1 high
    exact ⟨sameEdge, sameSource, low⟩
  · rintro source target _ ⟨_, fits, rfl⟩
    simp only [progressChannelBase, dataChannelBase, channelNamespaceSize] at fits ⊢
    omega
  · rintro edge source target _ ⟨_, fits, rfl⟩
    simp only [dataChannelBase, reservedChannelBase, channelNamespaceSize] at fits ⊢
    omega
  · rintro edge _ ⟨_, fits, _⟩ edge' source target earlier isSource isTarget
    refine ⟨⟨isSource, isTarget⟩, Nat.lt_of_le_of_lt ?_ fits⟩
    have below : edge' * numWorkers ≤ edge * numWorkers := Nat.mul_le_mul_right _ earlier
    have scaled : (edge' * numWorkers + source) * numWorkers ≤ (edge * numWorkers + (numWorkers - 1)) * numWorkers :=
      Nat.mul_le_mul_right _ (by omega)
    omega

end Instancy
