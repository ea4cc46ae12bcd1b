import Instancy.Communication.SharedLane

/-
The check of `register` before its await only reads, so it is not a step of its own.
-/

namespace Instancy

/-- The id that a critical section completes if it ends an owner. -/
def ManagerOp.completing : ManagerOp → Option DataflowId
  | .unregister id _ | .retireClaim id _ => some id
  | _ => none

namespace SharedState

open DataflowRegistration

/-- The tokens that have registered and claimed an id. -/
def holding (state : SharedState) (id : DataflowId) : Option UInt64 × Option UInt64 :=
  ((state.registered id).map DataflowRegistration.token, state.claims id)

def owner (state : SharedState) (id : DataflowId) : Option UInt64 := (state.holding id).1.or (state.holding id).2

def completes (state : SharedState) (op : ManagerOp) : List DataflowId :=
  op.completing.toList.filter fun id => (state.step op).owner id ≠ state.owner id

def completions (state : SharedState) : List ManagerOp → List DataflowId
  | [] => []
  | op :: ops => state.completes op ++ (state.step op).completions ops

/-- What a critical section can do to the owners and to the ids that ran. -/
inductive Shifts (state : SharedState) (op : ManagerOp) (next : SharedState) : Prop where
  | same (holds : next.holding = state.holding) (ran : next.completed = state.completed)
  | taken {id : DataflowId} {tokens : Option UInt64 × Option UInt64} (fresh : id ∉ state.completed.order)
      (free : state.registered id = none) (one : tokens.1 = none ∨ tokens.2 = none) (starts : op.completing = none)
      (holds : ∀ other, next.holding other = if other = id then tokens else state.holding other)
      (ran : next.completed = state.completed)
  | released {id : DataflowId} {token : UInt64}
      (held : state.holding id = (none, some token) ∧ (op.completing = none ∨ op.completing = some id) ∨
        state.holding id = (some token, none) ∧ (op = .unregister id none ∨ op = .unregister id (some token)))
      (holds : ∀ other, next.holding other = if other = id then (none, none) else state.holding other)
      (ran : next.completed = op.completing.toList.foldl RecentIds.insert state.completed)

/-- The invariant of the ids. -/
structure Tracks (state : SharedState) : Prop where
  lanes : state.Lanes
  exclusive : ∀ id, (state.holding id).1 = none ∨ (state.holding id).2 = none
  unowned : ∀ id ∈ state.completed.order, state.owner id = none
  nodup : state.completed.order.Nodup
  bounded : state.completed.order.length ≤ maxCompletedDataflows

variable {state next : SharedState} {op : ManagerOp} {id : DataflowId} {token : UInt64}

theorem changes_token {arrived : Option Frame} {reg after : DataflowRegistration} (changes : Changes id arrived reg after) :
    after.token = reg.token := by
  induction changes with
  | refl => rfl
  | tail _ effect ih =>
    rw [← ih]
    cases effect with
    | numbered frame fits => rw [number, if_pos fits]
    | _ => rfl

theorem setRegistration_shifts {reg after : DataflowRegistration} (found : state.registered id = some reg)
    (kept : after.token = reg.token) : Shifts state op (state.setRegistration id after) := by
  refine .same (funext fun other => ?_) rfl
  unfold holding setRegistration
  rcases eq_or_ne other id with rfl | different <;> simp [*]

theorem map_shifts {change : DataflowId → DataflowRegistration → DataflowRegistration}
    (kept : ∀ id reg, (change id reg).token = reg.token)
    (registered : next.registered = fun id => (state.registered id).map (change id))
    (claims : next.claims = state.claims) (ran : next.completed = state.completed) : Shifts state op next := by
  refine .same (funext fun id => ?_) ran
  unfold holding
  rw [registered, claims, Option.map_map]
  exact congrArg (fun token => (Option.map token (state.registered id), state.claims id)) (funext (kept id))

theorem holding_update {r : Option DataflowRegistration} {claim : Option UInt64}
    (registered : next.registered = Function.update state.registered id r)
    (claims : next.claims = Function.update state.claims id claim) (other : DataflowId) : next.holding other =
      if other = id then (r.map DataflowRegistration.token, claim) else state.holding other := by
  unfold holding
  rw [registered, claims, Function.update_apply, Function.update_apply]
  split <;> rfl

theorem idUnavailable_fresh (available : state.idUnavailable id token = none) : id ∉ state.completed.order ∧
    (state.claims id = none ∨ state.claims id = some token) := by
  unfold idUnavailable at available
  dsimp only at available
  split at available
  · cases available
  rename_i unowned
  split at available
  · cases available
  rename_i fresh
  refine ⟨fun known => fresh (List.elem_eq_true_of_mem known), ?_⟩
  cases claimed : state.claims id with
  | none => exact .inl rfl
  | some other =>
    by_cases same : other = token
    · exact .inr (congrArg some same)
    · exact absurd (.inr ⟨other, claimed, same⟩) unowned

theorem insert_fresh {recent : RecentIds} (fresh : id ∉ recent.order) :
    (recent.insert id).order = (recent.order ++ [id]).drop (recent.order.length + 1 - maxCompletedDataflows) := by
  have known : recent.contains id = false := by simpa [RecentIds.contains] using fresh
  unfold RecentIds.insert
  simp [known]

section

variable (tracks : state.Tracks)
include tracks

theorem Tracks.holding_claim (claimed : state.claims id = some token) : state.holding id = (none, some token) :=
  Prod.ext ((tracks.exclusive id).resolve_right fun none => Option.some_ne_none token (claimed.symm.trans none)) claimed

theorem Tracks.release_claim (claimed : state.claims id = some token) (registered : next.registered = state.registered)
    (claims : next.claims = Function.update state.claims id none)
    (cleanup : op.completing = none ∨ op.completing = some id)
    (ran : next.completed = op.completing.toList.foldl RecentIds.insert state.completed) : Shifts state op next := by
  have held := tracks.holding_claim claimed
  refine .released (.inl ⟨held, cleanup⟩) (holding_update (r := none) ?_ claims) ran
  rw [registered, Function.update_eq_self_iff.mpr (Option.map_eq_none_iff.mp (congrArg Prod.fst held)).symm]

theorem step_shifts (op : ManagerOp) : Shifts state op (state.step op) := by
  cases op with
  | addConnection | sendControl | clear => exact .same rfl rfl
  | sendPayload sender token frame =>
    rw [step, sendPayload]
    split
    · exact .same rfl rfl
    rename_i reg found
    split
    · exact .same rfl rfl
    split
    · exact setRegistration_shifts found rfl
    split
    · exact .same rfl rfl
    split
    · exact setRegistration_shifts found rfl
    · exact setRegistration_shifts found (changes_token (number_changes frame : Changes sender none reg _))
  | frame now connId frame =>
    rw [step, SharedState.onFrame]
    split
    · exact .same rfl rfl
    split
    · split <;> exact .same rfl rfl
    · rename_i reg found
      have changes := onFrame_changes connId frame (tracks.lanes.registered found) fun _ => rfl
      exact setRegistration_shifts found (changes_token changes)
  | failOutbound connId error =>
    refine map_shifts (fun id reg => ?_) rfl rfl rfl
    exact changes_token (failOutbound_changes connId error : Changes id none reg _)
  | failInbound connId ended =>
    have kept (id reg) := changes_token (failInbound_changes connId ended : Changes id none reg _)
    rw [step, SharedState.failInbound]
    split
    · split <;> exact map_shifts kept rfl rfl rfl
    · exact map_shifts kept rfl rfl rfl
  | register id token channels capacity =>
    rw [step]
    cases done : state.register id token channels capacity with
    | error error => exact .same rfl rfl
    | ok after =>
      obtain ⟨available, reg, _, _, registered, _, ran, claims⟩ := register_ok done
      obtain ⟨fresh, own⟩ := idUnavailable_fresh available
      have moved : after.claims = Function.update state.claims id none := by
        rcases own with none | some
        · rw [claims, Function.update_eq_self_iff.mpr none.symm, ite_self]
        · exact claims.trans (if_pos some)
      exact .taken fresh (idUnavailable_none available) (.inr rfl) rfl (holding_update registered moved) ran
  | unregister id given =>
    rw [step, SharedState.unregister]
    split
    · rename_i reg found
      split
      · rename_i right
        have registered : (state.holding id).1 = some reg.token := congrArg (Option.map _) found
        have unclaimed := (tracks.exclusive id).resolve_left (registered ▸ Option.some_ne_none _)
        rw [unpin_eq]
        refine .released (.inr ⟨Prod.ext registered unclaimed, ?_⟩) (holding_update (r := none) rfl ?_) rfl
        · exact right.imp (congrArg _) (congrArg _)
        · exact (Function.update_eq_self_iff.mpr unclaimed.symm).symm
      · exact .same rfl rfl
    · split <;> exact .same rfl rfl
  | claim id token =>
    rw [step, SharedState.claim]
    split
    · exact .same rfl rfl
    · rename_i available
      have free := idUnavailable_none available
      refine .taken (idUnavailable_fresh available).1 free (.inl ?_) rfl (holding_update (r := none) ?_ rfl) rfl
      · rfl
      · exact (Function.update_eq_self_iff.mpr free.symm).symm
  | dropClaim id token =>
    rw [step, SharedState.dropClaim]
    split
    · rename_i claimed
      exact tracks.release_claim claimed rfl rfl (.inl rfl) rfl
    · exact .same rfl rfl
  | retireClaim id token =>
    rw [step, SharedState.retireClaim]
    split
    · rename_i claimed
      exact tracks.release_claim claimed rfl rfl (.inr rfl) rfl
    · exact .same rfl rfl

/-- The ids that ran, in their order. -/
theorem step_completes (op : ManagerOp) :
    (state.completes op = [] ∧ (state.step op).completed.order = state.completed.order) ∨
    ∃ id, state.completes op = [id] ∧ id ∉ state.completed.order ∧ (state.step op).owner id = none ∧
      (state.step op).completed.order =
        (state.completed.order ++ [id]).drop (state.completed.order.length + 1 - maxCompletedDataflows) := by
  unfold completes
  cases step_shifts tracks op with
  | same holds ran => exact .inl ⟨by simp [owner, holds], by rw [ran]⟩
  | taken fresh free one starts holds ran => exact .inl ⟨by rw [starts]; rfl, by rw [ran]⟩
  | @released id token held holds ran =>
    have lost : (state.step op).owner id = none := by simp [owner, holds]
    have owned : state.owner id = some token := by grind [owner]
    have fresh : id ∉ state.completed.order := by grind [tracks.unowned id]
    rcases (by grind [ManagerOp.completing] : op.completing = none ∨ op.completing = some id) with none | some
    · rw [none] at ran ⊢
      exact .inl ⟨rfl, by rw [ran]; rfl⟩
    · rw [some] at ran ⊢
      exact .inr ⟨id, by simp [lost, owned], fresh, lost, by rw [ran]; exact insert_fresh fresh⟩

theorem Tracks.step (op : ManagerOp) : (state.step op).Tracks := by
  have lanes := tracks.lanes.step op
  have owners : (∀ id, ((state.step op).holding id).1 = none ∨ ((state.step op).holding id).2 = none) ∧
      ∀ id ∈ state.completed.order, (state.step op).owner id = none := by
    unfold owner
    cases step_shifts tracks op with
    | same holds ran =>
      rw [holds]
      exact ⟨tracks.exclusive, tracks.unowned⟩
    | taken fresh free one starts holds ran =>
      refine ⟨fun id => ?_, fun id known => ?_⟩
      · rw [holds]
        split
        · exact one
        · exact tracks.exclusive id
      · rw [holds, if_neg (ne_of_mem_of_not_mem known fresh)]
        exact tracks.unowned id known
    | released held holds ran =>
      refine ⟨fun id => ?_, fun id known => ?_⟩ <;> rw [holds] <;> split
      · exact .inl rfl
      · exact tracks.exclusive id
      · rfl
      · exact tracks.unowned id known
  rcases step_completes tracks op with ⟨_, order⟩ | ⟨id, _, fresh, lost, order⟩
  · exact ⟨lanes, owners.1, order ▸ owners.2, order ▸ tracks.nodup, order ▸ tracks.bounded⟩
  · refine ⟨lanes, owners.1, fun other known => ?_, ?_, ?_⟩
    · rw [order] at known
      rcases List.mem_append.mp (List.mem_of_mem_drop known) with old | new
      · exact owners.2 other old
      · rwa [List.mem_singleton.mp new]
    · rw [order]
      exact (List.nodup_append_comm.mp (tracks.nodup.cons fresh)).sublist (List.drop_sublist ..)
    · rw [order, List.length_drop, List.length_append, List.length_singleton]
      have bounded := tracks.bounded
      omega

theorem Tracks.run (ops : List ManagerOp) : (state.run ops).Tracks :=
  List.foldlRecOn ops _ tracks fun _ tracks op _ => tracks.step op

/-- A registration holds its id until it is unregistered. -/
theorem holding_run (held : state.holding id = (some token, none)) (ops : List ManagerOp)
    (open_ : .unregister id none ∉ ops) (kept : .unregister id (some token) ∉ ops) :
    (state.run ops).holding id = (some token, none) := by
  refine (List.foldlRecOn (motive := fun state => state.Tracks ∧ state.holding id = (some token, none)) ops
    SharedState.step ⟨tracks, held⟩ fun state invariant op member => ⟨invariant.1.step op, ?_⟩).2
  obtain ⟨tracks, held⟩ := invariant
  cases step_shifts tracks op with
  | same holds ran => exact holds ▸ held
  | taken fresh free one starts holds ran => grind [holding]
  | released held holds ran => grind

/-- The id is remembered with the ids that ran after it, or enough other ids ran. -/
def Recalls (id : DataflowId) (since : List DataflowId) (state : SharedState) : Prop :=
  (∃ front, state.completed.order = front ++ id :: since) ∨
    maxCompletedDataflows ≤ since.length ∧ (id :: since.take maxCompletedDataflows).Nodup

theorem Recalls.step {since : List DataflowId} (recalls : Recalls id since state) (op : ManagerOp) :
    Recalls id (since ++ state.completes op) (state.step op) := by
  rcases recalls with ⟨front, order⟩ | ⟨enough, distinct⟩
  · have nodup := tracks.nodup
    have bounded := tracks.bounded
    rcases step_completes tracks op with ⟨none, next⟩ | ⟨new, one, fresh, _, next⟩
    · rw [none, List.append_nil]
      exact .inl ⟨front, next.trans order⟩
    · rw [order] at nodup bounded fresh next
      rw [one]
      simp only [List.length_append, List.length_cons, List.append_assoc, List.cons_append] at next bounded
      by_cases short : front.length + (since.length + 1) + 1 - maxCompletedDataflows ≤ front.length
      · rw [List.drop_append_of_le_length short] at next
        exact .inl ⟨_, next⟩
      · have full : (since ++ [new]).length = maxCompletedDataflows := by
          rw [List.length_append, List.length_singleton]
          omega
        have longer : (front ++ id :: since ++ [new]).Nodup := List.nodup_append_comm.mp (nodup.cons fresh)
        have distinct : (id :: (since ++ [new])).Nodup := (List.append_assoc front _ _ ▸ longer).of_append_right
        exact .inr ⟨full.ge, by rwa [List.take_of_length_le full.le]⟩
  · refine .inr ⟨?_, ?_⟩
    · rw [List.length_append]
      omega
    · rwa [List.take_append_of_le_length enough]

theorem Recalls.run {since : List DataflowId} (recalls : Recalls id since state) (ops : List ManagerOp) :
    Recalls id (since ++ state.completions ops) (state.run ops) := by
  induction ops generalizing state since with
  | nil => rwa [completions, List.append_nil]
  | cons op ops ih =>
    rw [completions, ← List.append_assoc]
    exact ih (tracks.step op) (recalls.step tracks op)

end

/-- In every run, a claim and a registration never hold an id together. A token that registered an id holds it until it
is unregistered, the cleanup of another token changes nothing, and an id that ran has no owner before as many other ids
ran as `RecentIds` holds. -/
theorem one_run_per_id (peer : String) (ops : List ManagerOp) (id : DataflowId) :
    let state := run { peerNodeId := peer } ops
    ((state.holding id).1 = none ∨ (state.holding id).2 = none) ∧
    (∀ token channels capacity after, state.register id token channels capacity = .ok after →
      ∀ more, .unregister id none ∉ more → .unregister id (some token) ∉ more →
        (after.run more).holding id = (some token, none)) ∧
    (∀ token, state.owner id ≠ some token → state.step (.dropClaim id token) = state ∧
      state.step (.retireClaim id token) = state ∧ state.step (.unregister id (some token)) = state) ∧
    ∀ op more, id ∈ state.completes op → ((state.step op).run more).owner id ≠ none →
      let since := (state.step op).completions more
      maxCompletedDataflows ≤ since.length ∧ (id :: since.take maxCompletedDataflows).Nodup := by
  intro state
  have tracks : state.Tracks := by
    refine Tracks.run ⟨new_lanes peer, fun _ => .inl rfl, ?_, List.nodup_nil, Nat.zero_le _⟩ ops
    exact fun _ known => absurd known List.not_mem_nil
  refine ⟨tracks.exclusive id, ?_, ?_, ?_⟩
  · intro token channels capacity after done more
    have next : state.step (.register id token channels capacity) = after := by
      rw [SharedState.step, done]
      rfl
    obtain ⟨_, reg, _, rfl, registered, _⟩ := register_ok done
    have held : (after.holding id).1 = some reg.token := by
      rw [holding, registered, Function.update_self]
      rfl
    have tracks := next ▸ tracks.step (.register id reg.token channels capacity)
    have unclaimed := (tracks.exclusive id).resolve_left (held ▸ Option.some_ne_none _)
    exact holding_run tracks (Prod.ext held unclaimed) more
  · intro token foreign
    have unclaimed : state.claims id ≠ some token := fun claimed => by
      rw [owner, tracks.holding_claim claimed] at foreign
      exact foreign rfl
    refine ⟨if_neg unclaimed, if_neg unclaimed, ?_⟩
    rw [SharedState.step, SharedState.unregister]
    split
    · rename_i reg found
      refine if_neg fun right => foreign ?_
      rw [owner, holding, found]
      exact (right.resolve_left (Option.some_ne_none token)).symm
    · rfl
  · intro op more member owned
    have after := tracks.step op
    rcases step_completes tracks op with ⟨none, _⟩ | ⟨new, one, _, _, order⟩
    · rw [none] at member
      cases member
    · rw [one, List.mem_singleton] at member
      subst member
      have recalls : Recalls id [] (state.step op) := by
        refine .inl ⟨_, order.trans (List.drop_append_of_le_length ?_)⟩
        unfold maxCompletedDataflows
        omega
      rcases recalls.run after more with ⟨front, order⟩ | enough
      · refine absurd ((after.run more).unowned id ?_) owned
        rw [order]
        exact List.mem_append_right _ List.mem_cons_self
      · exact enough

end SharedState

end Instancy
