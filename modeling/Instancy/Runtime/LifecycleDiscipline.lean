import Instancy.Runtime.LifecycleEffects

namespace Instancy

open Relation

/-- What is counted of an output. A broadcast and an announcement are both a notice to the peers. -/
inductive OutputKind where
  | ack (peer : String)
  | notice
  | goodbye
  | abort
  | unfinished
  | teardown
  | plain
  deriving DecidableEq, Repr

def LifecycleOutput.kind : LifecycleOutput → OutputKind
  | .action (.sendAck peer) => .ack peer
  | .action .broadcastCancel => .notice
  | .action .sendGoodbye => .goodbye
  | .action (.linkFailed ..) => .plain
  | .action (.armSoftFailureTimer _) => .plain
  | .action (.cancelDataflow _) => .plain
  | .action (.abortDrain _) => .abort
  | .action .announceUnfinished => .unfinished
  | .action (.teardown _) => .teardown
  | .announced _ => .notice

/-- No action follows a teardown. -/
def EndsWithTeardown (log : List LifecycleOutput) : Prop :=
  log.Pairwise fun earlier later => earlier.kind = .teardown → ∃ loss, later = .announced loss

/-- The teardowns that were requested up to a phase. -/
def Phase.teardowns : Phase → Nat
  | .finished => 1
  | _ => 0

theorem Phase.teardowns_alive {phase : Phase} (alive : phase ≠ .finished) : phase.teardowns = 0 := by
  cases phase with
  | finished => exact absurd rfl alive
  | _ => rfl

namespace LifecycleMachine

def count (self : LifecycleMachine) (kind : OutputKind) : Nat :=
  self.log.countP fun output => output.kind = kind

/-- The flags of a machine agree with its log. -/
structure Disciplined (machine : LifecycleMachine) : Prop where
  notices : machine.count .notice = machine.cancelBroadcast.toNat
  goodbyes : machine.count .goodbye = machine.goodbyeSent.toNat
  aborts : machine.count .abort = machine.drainAborted.toNat
  teardowns : machine.count .teardown = machine.phase.teardowns
  unfinished : machine.count .unfinished ≤ machine.count .teardown
  acks : ∀ id, machine.count (.ack id) ≤ ((machine.peers id).any PeerState.goodbyeReceived).toNat
  ended : EndsWithTeardown machine.log
  polite : .action (.teardown true) ∈ machine.log → machine.goodbyeSent = true
  draining : machine.phase = .draining → machine.goodbyeSent = true
  unsaid : machine.phase = .running → machine.goodbyeSent = false
  succeeded : machine.goodbyeSent = true → machine.workersRemaining = 0 ∧ machine.allWorkersOk = true

section Effects

variable {final : Bool} {before after : LifecycleMachine}

/-- An output does not add to the count of another kind. -/
theorem count_other {output : LifecycleOutput} {kind : OutputKind} (logged : after.log = before.log ++ [output])
    (other : output.kind ≠ kind) : after.count kind = before.count kind := by
  simp [count, logged, other]

theorem plain_kind {action : LifecycleAction} (plain : action.Plain) :
    (LifecycleOutput.action action).kind = .plain := by
  cases action <;> first | rfl | exact plain.elim

variable {log : List LifecycleOutput}

theorem ended_append (ended : EndsWithTeardown log)
    (none : log.countP (fun output => output.kind = .teardown) = 0) (output : LifecycleOutput) :
    EndsWithTeardown (log ++ [output]) := by
  refine List.pairwise_append.mpr ⟨ended, List.pairwise_singleton .., fun earlier emitted _ _ torn => ?_⟩
  exact absurd (decide_eq_true torn) (List.countP_eq_zero.mp none earlier emitted)

theorem ended_announce (ended : EndsWithTeardown log) (loss : DataLoss) :
    EndsWithTeardown (log ++ [.announced loss]) := by
  refine List.pairwise_append.mpr ⟨ended, List.pairwise_singleton .., fun _ _ later last _ => ?_⟩
  exact ⟨loss, List.mem_singleton.mp last⟩

section

variable (effect : Effect final before after)
include effect

theorem Effect.notices :
    after.count .notice + before.cancelBroadcast.toNat = before.count .notice + after.cancelBroadcast.toNat := by
  cases effect with
  | say action plain alive => simp [count, emit, plain_kind plain]
  | broadcast fresh alive => simp [count, emit, LifecycleOutput.kind, fresh]
  | announce loss found fresh => simp [count, LifecycleOutput.kind, fresh]
  | _ => simp [count, emit, LifecycleOutput.kind]

theorem Effect.aborts :
    after.count .abort + before.drainAborted.toNat = before.count .abort + after.drainAborted.toNat := by
  cases effect with
  | say action plain alive => simp [count, emit, plain_kind plain]
  | abort reason running requested fresh => simp [count, emit, LifecycleOutput.kind, fresh]
  | _ => simp [count, emit, LifecycleOutput.kind]

theorem Effect.goodbyes : after.count .goodbye = before.count .goodbye ∧ after.goodbyeSent = before.goodbyeSent := by
  cases effect with
  | say action plain alive => simp [count, emit, plain_kind plain]
  | _ => simp [count, emit, LifecycleOutput.kind]

theorem Effect.acks (id : String) : after.count (.ack id) = before.count (.ack id) := by
  cases effect with
  | say action plain alive => simp [count, emit, plain_kind plain]
  | _ => simp [count, emit, LifecycleOutput.kind]

theorem Effect.teardowns :
    after.count .teardown + before.phase.teardowns = before.count .teardown + after.phase.teardowns := by
  cases effect with
  | say action plain alive => simp [count, emit, plain_kind plain]
  | conclude | concludeUnfinished => simp [count, emit, LifecycleOutput.kind, Phase.teardowns]
  | _ => simp [count, emit, LifecycleOutput.kind]

/-- An unfinished dataflow is announced with the teardown only. -/
theorem Effect.unfinished :
    after.count .unfinished + before.count .teardown ≤ before.count .unfinished + after.count .teardown := by
  cases effect with
  | say action plain alive => simp [count, emit, plain_kind plain]
  | _ => simp [count, emit, LifecycleOutput.kind] <;> omega

theorem Effect.ended (ended : EndsWithTeardown before.log) (torn : before.count .teardown = before.phase.teardowns) :
    EndsWithTeardown after.log := by
  have fresh (alive : before.phase ≠ .finished) : before.count .teardown = 0 :=
    torn.trans (Phase.teardowns_alive alive)
  cases effect with
  | keep | lose => exact ended
  | broadcast _ alive | say _ _ alive | conclude _ alive _ => exact ended_append ended (fresh alive) _
  | abort _ running => exact ended_append ended (fresh (alive_of_running running)) _
  | announce loss => exact ended_announce ended loss
  | concludeUnfinished graceful alive =>
    refine ended_append (ended_append ended (fresh alive) (.action .announceUnfinished)) ?_ _
    rw [List.countP_append]
    exact fresh alive

/-- A graceful teardown is requested while draining only. -/
theorem Effect.polite (graceful : .action (.teardown true) ∈ after.log) :
    .action (.teardown true) ∈ before.log ∨ before.phase = .draining := by
  cases effect with
  | keep | lose => exact .inl graceful
  | say action plain alive =>
    refine .inl ((List.mem_append.mp graceful).resolve_right fun last => ?_)
    cases List.mem_singleton.mp last
    exact plain
  | conclude polite alive draining =>
    refine (List.mem_append.mp graceful).imp id fun last => ?_
    cases List.mem_singleton.mp last
    exact draining rfl
  | concludeUnfinished polite alive draining =>
    obtain early | last := List.mem_append.mp graceful
    · refine .inl ((List.mem_append.mp early).resolve_right fun last => ?_)
      cases List.mem_singleton.mp last
    · cases List.mem_singleton.mp last
      exact .inr (draining rfl)
  | broadcast | abort | announce =>
    refine .inl ((List.mem_append.mp graceful).resolve_right fun last => ?_)
    cases List.mem_singleton.mp last

theorem Effect.phase {phase : Phase} (now : after.phase = phase) (alive : phase ≠ .finished) : before.phase = phase := by
  cases effect with
  | conclude | concludeUnfinished => exact absurd now.symm alive
  | _ => exact now

theorem Effect.peers (id : String) : Option.Rel PeerState.Kept (before.peers id) (after.peers id) := by
  cases effect with
  | keep _ _ _ _ kept => exact kept id
  | _ => exact kept_refl before.peers id

end

theorem kept_goodbye {first second : Option PeerState} (kept : Option.Rel PeerState.Kept first second) :
    second.any PeerState.goodbyeReceived = first.any PeerState.goodbyeReceived := by
  cases kept with
  | none => rfl
  | some kept => exact kept.goodbye

/-- An effect keeps the flags and the log together. -/
theorem Disciplined.effect (disciplined : before.Disciplined) (effect : Effect final before after) :
    after.Disciplined where
  notices := by
    have moved := effect.notices
    have held := disciplined.notices
    omega
  goodbyes := by
    rw [effect.goodbyes.1, effect.goodbyes.2]
    exact disciplined.goodbyes
  aborts := by
    have moved := effect.aborts
    have held := disciplined.aborts
    omega
  teardowns := by
    have moved := effect.teardowns
    have held := disciplined.teardowns
    omega
  unfinished := by
    have moved := effect.unfinished
    have held := disciplined.unfinished
    omega
  acks id := by
    rw [effect.acks, kept_goodbye (effect.peers id)]
    exact disciplined.acks id
  ended := effect.ended disciplined.ended disciplined.teardowns
  polite graceful := by
    rw [effect.goodbyes.2]
    exact (effect.polite graceful).elim disciplined.polite disciplined.draining
  draining draining := by
    rw [effect.goodbyes.2]
    exact disciplined.draining (effect.phase draining Phase.noConfusion)
  unsaid running := by
    rw [effect.goodbyes.2]
    exact disciplined.unsaid (effect.phase running Phase.noConfusion)
  succeeded said := by
    rw [effect.goodbyes.2] at said
    have chain : Effects final before after := .single effect
    rw [chain.workersRemaining_eq, chain.allWorkersOk_eq]
    exact disciplined.succeeded said

theorem Disciplined.effects (disciplined : before.Disciplined) (chain : Effects final before after) :
    after.Disciplined := by
  induction chain with
  | refl => exact disciplined
  | tail _ effect held => exact held.effect effect

end Effects

section Calls

variable {self after : LifecycleMachine} {peerId : String} {peer : PeerState}

section

variable (disciplined : self.Disciplined)
include disciplined

/-- A result is counted before the goodbye. -/
theorem Disciplined.countResult (success : Bool) (left : self.workersRemaining ≠ 0) :
    (self.countResult success).Disciplined :=
  { disciplined with succeeded := fun said => absurd (disciplined.succeeded said).1 left }

theorem Disciplined.sayGoodbye (running : self.phase = .running)
    (idle : self.workersRemaining = 0) (succeeded : self.allWorkersOk = true) : self.sayGoodbye.Disciplined where
  notices := (count_other rfl OutputKind.noConfusion).trans disciplined.notices
  goodbyes := by
    have held := disciplined.goodbyes
    rw [disciplined.unsaid running] at held
    simpa [count, LifecycleMachine.sayGoodbye, emit, LifecycleOutput.kind] using held
  aborts := (count_other rfl OutputKind.noConfusion).trans disciplined.aborts
  teardowns := by
    have held := disciplined.teardowns
    rw [running] at held
    simpa [count, LifecycleMachine.sayGoodbye, emit, LifecycleOutput.kind, Phase.teardowns] using held
  unfinished := by
    simpa [count, LifecycleMachine.sayGoodbye, emit, LifecycleOutput.kind] using disciplined.unfinished
  acks id := (count_other rfl OutputKind.noConfusion).trans_le (disciplined.acks id)
  ended := ended_append disciplined.ended (disciplined.teardowns.trans (by rw [running]; rfl)) _
  polite _ := rfl
  draining _ := rfl
  unsaid running := Phase.noConfusion running
  succeeded _ := ⟨idle, succeeded⟩

theorem Disciplined.requestStop (failure : Bool) (running : self.phase = .running)
    (fresh : self.cancelBroadcast = false) : (self.requestStop failure).Disciplined := { disciplined with
  notices := by
    have held := disciplined.notices
    rw [fresh] at held
    simpa [count, LifecycleMachine.requestStop, emit, LifecycleOutput.kind] using held
  goodbyes := (count_other rfl OutputKind.noConfusion).trans disciplined.goodbyes
  aborts := (count_other rfl OutputKind.noConfusion).trans disciplined.aborts
  teardowns := (count_other rfl OutputKind.noConfusion).trans disciplined.teardowns
  unfinished := by
    simpa [count, LifecycleMachine.requestStop, emit, LifecycleOutput.kind] using disciplined.unfinished
  acks id := (count_other rfl OutputKind.noConfusion).trans_le (disciplined.acks id)
  ended := ended_append disciplined.ended (disciplined.teardowns.trans (by rw [running]; rfl)) _
  polite graceful := by
    refine disciplined.polite ((List.mem_append.mp graceful).resolve_right fun last => ?_)
    cases List.mem_singleton.mp last }

/-- The link of one peer changes, and nothing is acknowledged that was not before. -/
theorem Disciplined.setPeer (next : PeerState)
    (acked : self.count (.ack peerId) ≤ next.goodbyeReceived.toNat) : (self.setPeer peerId next).Disciplined := by
  refine { disciplined with acks := fun id => ?_ }
  by_cases same : id = peerId
  · subst same
    show self.count (.ack id) ≤ ((Function.update self.peers id (some next) id).any PeerState.goodbyeReceived).toNat
    rw [Function.update_self]
    exact acked
  · show self.count (.ack id) ≤ ((Function.update self.peers peerId (some next) id).any PeerState.goodbyeReceived).toNat
    rw [Function.update_of_ne same]
    exact disciplined.acks id

theorem Disciplined.sendAck (alive : self.phase ≠ .finished)
    (found : self.peers peerId = some peer) (received : peer.goodbyeReceived = true)
    (fresh : self.count (.ack peerId) = 0) : (self.emit (.sendAck peerId)).Disciplined := { disciplined with
  notices := by simpa [count, emit, LifecycleOutput.kind] using disciplined.notices
  goodbyes := by simpa [count, emit, LifecycleOutput.kind] using disciplined.goodbyes
  aborts := by simpa [count, emit, LifecycleOutput.kind] using disciplined.aborts
  teardowns := by simpa [count, emit, LifecycleOutput.kind] using disciplined.teardowns
  unfinished := by simpa [count, emit, LifecycleOutput.kind] using disciplined.unfinished
  acks id := by
    by_cases same : id = peerId
    · subst same
      have one : (self.emit (.sendAck id)).count (.ack id) = self.count (.ack id) + 1 := by
        simp [count, emit, LifecycleOutput.kind]
      rw [one, fresh, show (self.emit (.sendAck id)).peers id = some peer from found]
      exact Nat.le_of_eq (congrArg Bool.toNat received.symm)
    · have none : (self.emit (.sendAck peerId)).count (.ack id) = self.count (.ack id) := by
        simp [count, emit, LifecycleOutput.kind, Ne.symm same]
      rw [none]
      exact disciplined.acks id
  ended := ended_append disciplined.ended (disciplined.teardowns.trans (Phase.teardowns_alive alive)) _
  polite graceful := by
    refine disciplined.polite ((List.mem_append.mp graceful).resolve_right fun last => ?_)
    cases List.mem_singleton.mp last }

theorem Disciplined.countEndOfStream (found : self.peers peerId = some peer) :
    (self.countEndOfStream peerId peer).Disciplined := by
  have acked : self.count (.ack peerId) ≤ peer.goodbyeReceived.toNat := by
    have held := disciplined.acks peerId
    rwa [found] at held
  unfold LifecycleMachine.countEndOfStream
  split
  · rename_i completes
    have unreceived : peer.goodbyeReceived = false := by
      exact (Bool.not_eq_true' _).mp (Bool.and_eq_true_iff.mp completes).2
    have fresh : self.count (.ack peerId) = 0 := by
      rw [unreceived] at acked
      exact Nat.eq_zero_of_le_zero acked
    have received := disciplined.setPeer { peer.counted with goodbyeReceived := true, linkRetired := true }
      (acked.trans (Bool.toNat_le _))
    dsimp only
    split
    · rename_i alive
      exact received.sendAck alive (Function.update_self ..) rfl fresh
    · exact received
  · exact disciplined.setPeer peer.counted acked

end

/-- Every call keeps the flags and the log together. -/
theorem Disciplined.stepped {input : LifecycleInput} (disciplined : self.Disciplined)
    (stepped : Stepped self input after) : after.Disciplined := by
  cases stepped with
  | result success left staffed last ends chain => exact (disciplined.countResult success left).effects chain
  | goodbye last opened running succeeded chain halted complete =>
    have left : self.workersRemaining ≠ 0 := by omega
    have counted := (disciplined.countResult true left).effects opened
    refine (counted.sayGoodbye running ?_ ?_).effects chain
    · rw [opened.workersRemaining_eq]
      exact Nat.sub_eq_zero_of_le last.le
    · rw [opened.allWorkersOk_eq]
      exact Bool.and_eq_true_iff.mpr ⟨succeeded, rfl⟩
  | marker found chain => exact (disciplined.countEndOfStream found).effects chain
  | stop failure running fresh chain => exact (disciplined.requestStop failure running fresh).effects chain
  | other _ idle unknown ending ends chain => exact disciplined.effects chain

end Calls

end LifecycleMachine

/-- The calls of a run, each with what it reads of the links. -/
abbrev LifecycleCalls := List ((String → Bool) × LifecycleInput)

def LifecycleInput.result : LifecycleInput → Option Bool
  | .workerFinished success => some success
  | _ => none

def LifecycleInput.isMarkerOf (id : String) : LifecycleInput → Bool
  | .link peerId .progressEndOfStream => peerId = id
  | _ => false

theorem isMarkerOf_eq {id : String} {input : LifecycleInput} (counts : input.isMarkerOf id = true) :
    input = .link id .progressEndOfStream := by
  unfold LifecycleInput.isMarkerOf at counts
  split at counts
  · rw [of_decide_eq_true counts]
  · cases counts

namespace LifecycleCalls

def workerResults (inputs : LifecycleCalls) : List Bool := inputs.filterMap fun input => input.2.result

def markersOf (inputs : LifecycleCalls) (id : String) : Nat := inputs.countP fun input => input.2.isMarkerOf id

/-- Every local worker reported its result, and each of them succeeded. -/
def AllSucceeded (workers : Nat) (inputs : LifecycleCalls) : Prop :=
  inputs.workerResults.take workers = List.replicate workers true

theorem workerResults_snoc (inputs : LifecycleCalls) (input : (String → Bool) × LifecycleInput) :
    workerResults (inputs ++ [input]) = inputs.workerResults ++ input.2.result.toList := by
  unfold workerResults
  cases found : input.2.result <;> simp [found]

theorem markersOf_snoc (inputs : LifecycleCalls) (input : (String → Bool) × LifecycleInput) (id : String) :
    markersOf (inputs ++ [input]) id = inputs.markersOf id + (input.2.isMarkerOf id).toNat := by
  unfold markersOf
  rw [List.countP_append, List.countP_singleton]
  cases input.2.isMarkerOf id <;> rfl

end LifecycleCalls

/-- The link of a peer counts its markers, and the goodbye is complete with the last one. -/
structure PeerState.Tallied (expected markers : Nat) (peer : PeerState) : Prop where
  expects : peer.expectedEndOfStream = expected
  counted : peer.endOfStream = markers
  complete : peer.goodbyeReceived = true ↔ 0 < expected ∧ expected ≤ markers

namespace LifecycleMachine

/-- What is known of a machine after some calls. -/
structure Reached (workers : Nat) (peers : List (String × Nat)) (inputs : LifecycleCalls)
    (machine : LifecycleMachine) : Prop where
  disciplined : machine.Disciplined
  remaining : machine.workersRemaining = workers - inputs.workerResults.length
  succeeded : machine.allWorkersOk = (inputs.workerResults.take workers).all id
  staffed : machine.phase = .running → workers = 0 ∨ 0 < machine.workersRemaining
  stopped : machine.requestedStop = true → ∃ input ∈ inputs, input.2 = .dataflowCancelled false
  tallied : ∀ id, Option.Rel (fun expected peer => PeerState.Tallied expected (inputs.markersOf id) peer)
    (peers.reverse.lookup id) (machine.peers id)

theorem reached_new (workers : Nat) (peers : List (String × Nat)) :
    Reached workers peers [] (new workers peers) where
  disciplined :=
    { notices := rfl
      goodbyes := rfl
      aborts := rfl
      teardowns := rfl
      unfinished := le_rfl
      acks := fun id => Nat.zero_le _
      ended := List.Pairwise.nil
      polite := nofun
      draining := nofun
      unsaid := fun _ => rfl
      succeeded := nofun }
  remaining := rfl
  succeeded := by
    show true = (List.take workers []).all id
    rw [List.take_nil, List.all_nil]
  staffed _ := Nat.eq_zero_or_pos workers
  stopped requested := Bool.noConfusion requested
  tallied id := by
    show Option.Rel _ (peers.reverse.lookup id) ((peers.reverse.lookup id).map _)
    cases peers.reverse.lookup id with
    | none => exact .none
    | some expected =>
      refine .some ⟨rfl, rfl, nofun, fun complete => ?_⟩
      exact absurd complete.1 (Nat.not_lt.mpr complete.2)

section Runs

variable {final : Bool} {self after : LifecycleMachine} {input : LifecycleInput} {workers : Nat} {peers : List (String × Nat)}
  {inputs : LifecycleCalls}

theorem Effects.requestedStop_eq (chain : Effects final self after) : after.requestedStop = self.requestedStop := by
  induction chain with
  | refl => rfl
  | tail _ effect same => cases effect <;> exact same

theorem Effects.running_before (chain : Effects final self after) (running : after.phase = .running) :
    self.phase = .running := by
  induction chain with
  | refl => exact running
  | tail _ effect earlier => exact earlier (effect.phase running Phase.noConfusion)

theorem kept_trans {first second third : Option PeerState} (earlier : Option.Rel PeerState.Kept first second)
    (later : Option.Rel PeerState.Kept second third) : Option.Rel PeerState.Kept first third := by
  cases earlier with
  | none => exact later
  | some earlier =>
    cases later with
    | some later =>
      exact .some ⟨later.expected.trans earlier.expected, later.counted.trans earlier.counted,
        later.goodbye.trans earlier.goodbye, later.unclean ∘ earlier.unclean⟩

theorem Effects.kept (chain : Effects final self after) (id : String) :
    Option.Rel PeerState.Kept (self.peers id) (after.peers id) := by
  induction chain with
  | refl => exact kept_refl self.peers id
  | tail _ effect earlier => exact kept_trans earlier (effect.peers id)

/-- The link of a peer after its next marker. -/
def nextLink (peer : PeerState) : PeerState :=
  if peer.completes then { peer.counted with goodbyeReceived := true, linkRetired := true } else peer.counted

theorem countEndOfStream_eq (self : LifecycleMachine) (peerId : String) (peer : PeerState) :
    ∃ log, self.countEndOfStream peerId peer =
      { self with peers := Function.update self.peers peerId (some (nextLink peer)), log } := by
  unfold countEndOfStream nextLink
  dsimp only
  split_ifs
  · exact ⟨_, rfl⟩
  · exact ⟨_, rfl⟩
  · exact ⟨_, rfl⟩

theorem Effects.marked {peerId : String} {peer : PeerState}
    (chain : Effects final (self.countEndOfStream peerId peer) after) : ∃ log, Effects final
      { self with peers := Function.update self.peers peerId (some (nextLink peer)), log } after := by
  obtain ⟨log, same⟩ := countEndOfStream_eq self peerId peer
  exact ⟨log, same ▸ chain⟩

theorem tallied_kept {expected : Option Nat} {markers : Nat} {first second : Option PeerState}
    (tallied : Option.Rel (fun expected peer => PeerState.Tallied expected markers peer) expected first)
    (kept : Option.Rel PeerState.Kept first second) :
    Option.Rel (fun expected peer => PeerState.Tallied expected markers peer) expected second := by
  cases kept with
  | none => exact tallied
  | some kept =>
    cases tallied with
    | some tallied =>
      exact .some ⟨kept.expected.trans tallied.expects, kept.counted.trans tallied.counted,
        kept.goodbye ▸ tallied.complete⟩

/-- The goodbye is complete with the marker that makes the count equal. -/
theorem tallied_next {expected markers : Nat} {peer : PeerState} (tallied : peer.Tallied expected markers) :
    (nextLink peer).Tallied expected (markers + 1) := by
  obtain ⟨expects, counted, complete⟩ := tallied
  have same : peer.completes = true ↔ markers + 1 = expected ∧ ¬peer.goodbyeReceived = true := by
    unfold PeerState.completes PeerState.counted
    rw [expects, counted, Bool.and_eq_true_iff, decide_eq_true_iff, Bool.not_eq_true', Bool.not_eq_true]
  unfold nextLink
  split
  · rename_i completes
    have last := (same.mp completes).1
    refine ⟨expects, congrArg (· + 1) counted, fun _ => ?_, fun _ => rfl⟩
    omega
  · rename_i unchanged
    refine ⟨expects, congrArg (· + 1) counted, fun received => ?_, fun reached => ?_⟩
    · have earlier := complete.mp received
      omega
    · by_contra unreceived
      have later : markers + 1 ≠ expected := fun last => unchanged (same.mpr ⟨last, unreceived⟩)
      exact unreceived (complete.mpr (by omega))

section

variable (stepped : Stepped self input after)

include stepped

/-- A result is counted while some are missing. -/
theorem Stepped.remaining :
    after.workersRemaining = self.workersRemaining - input.result.toList.length := by
  cases stepped with
  | result success left staffed last ends chain => exact chain.workersRemaining_eq
  | goodbye last opened running succeeded chain halted complete =>
    exact chain.workersRemaining_eq.trans opened.workersRemaining_eq
  | marker found chain =>
    obtain ⟨log, chain⟩ := chain.marked
    exact chain.workersRemaining_eq
  | stop failure running fresh chain => exact chain.workersRemaining_eq
  | other _ idle unknown ending ends chain =>
    rw [chain.workersRemaining_eq]
    cases input with
    | workerFinished success =>
      have none := idle success rfl
      rw [none, Nat.zero_sub]
    | _ => rfl

theorem Stepped.allWorkersOk_idle (none : self.workersRemaining = 0) :
    after.allWorkersOk = self.allWorkersOk := by
  cases stepped with
  | result success left staffed last ends chain => exact absurd none left
  | goodbye last opened running succeeded chain halted complete => omega
  | marker found chain =>
    obtain ⟨log, chain⟩ := chain.marked
    exact chain.allWorkersOk_eq
  | stop failure running fresh chain => exact chain.allWorkersOk_eq
  | other _ idle unknown ending ends chain => exact chain.allWorkersOk_eq

theorem Stepped.allWorkersOk_left (left : self.workersRemaining ≠ 0) :
    after.allWorkersOk = (self.allWorkersOk && input.result.toList.all id) := by
  cases stepped with
  | result success _ staffed last ends chain =>
    refine chain.allWorkersOk_eq.trans ?_
    exact congrArg (self.allWorkersOk && ·) (Bool.and_true success).symm
  | goodbye last opened running succeeded chain halted complete =>
    exact chain.allWorkersOk_eq.trans opened.allWorkersOk_eq
  | marker found chain =>
    obtain ⟨log, chain⟩ := chain.marked
    exact chain.allWorkersOk_eq.trans (Bool.and_true _).symm
  | stop failure running fresh chain => exact chain.allWorkersOk_eq.trans (Bool.and_true _).symm
  | other _ idle unknown ending ends chain =>
    refine chain.allWorkersOk_eq.trans ?_
    cases input with
    | workerFinished success => exact absurd (idle success rfl) left
    | _ => exact (Bool.and_true _).symm

theorem Stepped.staffed (running : after.phase = .running) :
    self.phase = .running ∧ (after.workersRemaining = self.workersRemaining ∨ 0 < after.workersRemaining) := by
  cases stepped with
  | result success left staffed last ends chain =>
    have more := staffed running
    refine ⟨chain.running_before running, .inr ?_⟩
    rw [chain.workersRemaining_eq]
    exact Nat.sub_pos_of_lt more
  | goodbye last opened open_ succeeded chain halted complete => exact absurd running halted
  | marker found chain =>
    obtain ⟨log, chain⟩ := chain.marked
    exact ⟨chain.running_before running, .inl chain.workersRemaining_eq⟩
  | stop failure _ fresh chain => exact ⟨chain.running_before running, .inl chain.workersRemaining_eq⟩
  | other _ idle unknown ending ends chain => exact ⟨chain.running_before running, .inl chain.workersRemaining_eq⟩

theorem Stepped.stopped (requested : after.requestedStop = true) :
    self.requestedStop = true ∨ input = .dataflowCancelled false := by
  cases stepped with
  | result success left staffed last ends chain => exact .inl (chain.requestedStop_eq ▸ requested)
  | goodbye last opened running succeeded chain halted complete =>
    exact .inl (opened.requestedStop_eq ▸ chain.requestedStop_eq ▸ requested)
  | marker found chain =>
    obtain ⟨log, chain⟩ := chain.marked
    exact .inl (chain.requestedStop_eq ▸ requested)
  | stop failure running fresh chain =>
    have asked : (!failure) = true := chain.requestedStop_eq.symm.trans requested
    cases failure with
    | false => exact .inr rfl
    | true => cases asked
  | other _ idle unknown ending ends chain => exact .inl (chain.requestedStop_eq ▸ requested)

theorem Stepped.tallied
    (tallied : ∀ id, Option.Rel (fun expected peer => PeerState.Tallied expected (inputs.markersOf id) peer)
      (peers.reverse.lookup id) (self.peers id)) (pushBlocked : String → Bool) (id : String) :
    Option.Rel
      (fun expected peer => PeerState.Tallied expected
        (LifecycleCalls.markersOf (inputs ++ [(pushBlocked, input)]) id) peer)
      (peers.reverse.lookup id) (after.peers id) := by
  have held := tallied id
  rw [LifecycleCalls.markersOf_snoc]
  cases stepped with
  | result success left staffed last ends chain => exact tallied_kept held (chain.kept id)
  | goodbye last opened running succeeded chain halted complete =>
    exact tallied_kept held (kept_trans (opened.kept id) (chain.kept id))
  | stop failure running fresh chain => exact tallied_kept held (chain.kept id)
  | @marker peerId peer _ found chain =>
    obtain ⟨log, chain⟩ := chain.marked
    refine tallied_kept ?_ (chain.kept id)
    dsimp only [LifecycleInput.isMarkerOf]
    by_cases here : id = peerId
    · subst here
      rw [Function.update_self, decide_eq_true rfl]
      rw [found] at held
      generalize peers.reverse.lookup id = expected at held
      cases held with
      | some tallied => exact .some (tallied_next tallied)
    · rw [Function.update_of_ne here, decide_eq_false (Ne.symm here)]
      exact held
  | other _ idle unknown ending ends chain =>
    refine tallied_kept ?_ (chain.kept id)
    cases counts : input.isMarkerOf id with
    | false => exact held
    | true =>
      -- The marker of an unknown peer is not counted, and there is no link to count it on.
      rw [unknown id (isMarkerOf_eq counts)] at held ⊢
      generalize peers.reverse.lookup id = expected at held
      cases held with
      | none => exact .none

end

/-- What is known of a machine is kept by a call. -/
theorem Reached.stepped (reached : Reached workers peers inputs self) (stepped : Stepped self input after)
    (pushBlocked : String → Bool) : Reached workers peers (inputs ++ [(pushBlocked, input)]) after where
  disciplined := reached.disciplined.stepped stepped
  remaining := by
    rw [stepped.remaining, reached.remaining, LifecycleCalls.workerResults_snoc, List.length_append, Nat.sub_sub]
  succeeded := by
    rw [LifecycleCalls.workerResults_snoc]
    dsimp only
    have remaining := reached.remaining
    by_cases idle : self.workersRemaining = 0
    · rw [stepped.allWorkersOk_idle idle, reached.succeeded, List.take_append_of_le_length (by omega)]
    · have short : input.result.toList.length ≤ 1 := by cases input.result <;> simp
      rw [stepped.allWorkersOk_left idle, reached.succeeded, List.take_of_length_le (by omega),
        List.take_of_length_le (by rw [List.length_append]; omega), List.all_append]
  staffed running := by
    obtain ⟨before, kept | more⟩ := stepped.staffed running
    · rw [kept]
      exact reached.staffed before
    · exact .inr more
  stopped requested := by
    obtain earlier | now := stepped.stopped requested
    · obtain ⟨call, made, stops⟩ := reached.stopped earlier
      exact ⟨call, List.mem_append_left _ made, stops⟩
    · exact ⟨_, List.mem_append_right _ (List.mem_singleton.mpr rfl), now⟩
  tallied id := stepped.tallied reached.tallied pushBlocked id

theorem run_snoc (self : LifecycleMachine) (inputs : LifecycleCalls) (pushBlocked : String → Bool)
    (input : LifecycleInput) :
    self.run (inputs ++ [(pushBlocked, input)]) = (self.run inputs).step pushBlocked input := by
  unfold run
  rw [List.foldl_append]
  rfl

theorem reached_run (workers : Nat) (peers : List (String × Nat)) (inputs : LifecycleCalls) :
    Reached workers peers inputs ((new workers peers).run inputs) := by
  induction inputs using List.reverseRecOn with
  | nil => exact reached_new workers peers
  | append_singleton inputs call reached =>
    obtain ⟨pushBlocked, input⟩ := call
    rw [run_snoc]
    exact reached.stepped (step_stepped pushBlocked input) pushBlocked

section

variable (chain : Effects final self after)
include chain

theorem Effects.acks (id : String) : after.count (.ack id) = self.count (.ack id) := by
  induction chain with
  | refl => rfl
  | tail _ effect same => exact (effect.acks id).trans same

theorem Effects.goodbyeSent_eq : after.goodbyeSent = self.goodbyeSent := by
  induction chain with
  | refl => rfl
  | tail _ effect same => exact effect.goodbyes.2.trans same

/-- A drain is aborted while the workers run and a stop is requested. -/
theorem Effects.aborts (more : self.count .abort < after.count .abort) :
    self.phase = .running ∧ self.requestedStop = true := by
  induction chain with
  | refl => exact absurd more (Nat.lt_irrefl _)
  | @tail middle last earlier effect known =>
    by_cases before : self.count .abort < middle.count .abort
    · exact known before
    · have now : middle.count .abort < last.count .abort := by omega
      cases effect with
      | abort reason running requested fresh =>
        exact ⟨Effects.running_before earlier running, (Effects.requestedStop_eq earlier).symm.trans requested⟩
      | say action plain alive => simp [count, emit, plain_kind plain] at now
      | _ => simp [count, emit, LifecycleOutput.kind] at now

theorem Effects.log_append : self.log <+: after.log := by
  induction chain with
  | refl => exact List.prefix_rfl
  | tail _ effect earlier =>
    refine earlier.trans ?_
    cases effect with
    | keep | lose => exact List.prefix_rfl
    | concludeUnfinished => exact (List.prefix_append _ _).trans (List.prefix_append _ _)
    | _ => exact List.prefix_append _ _

end

variable {loss : DataLoss}

theorem Effects.dataLoss_some (chain : Effects final self after) (lost : self.dataLoss = some loss) :
    after.dataLoss = some loss := by
  induction chain with
  | refl => exact lost
  | tail _ effect same =>
    cases effect with
    | lose loss fresh => cases fresh.symm.trans same
    | _ => exact same

theorem countEndOfStream_log (self : LifecycleMachine) (peerId : String) (peer : PeerState) :
    self.log <+: (self.countEndOfStream peerId peer).log := by
  unfold countEndOfStream
  dsimp only
  split_ifs
  · exact List.prefix_append _ _
  · exact List.prefix_rfl
  · exact List.prefix_rfl

theorem countEndOfStream_aborts (self : LifecycleMachine) (peerId : String) (peer : PeerState) :
    (self.countEndOfStream peerId peer).count .abort = self.count .abort := by
  unfold countEndOfStream
  dsimp only
  split_ifs <;> simp [count, emit, setPeer, LifecycleOutput.kind]

section

variable (stepped : Stepped self input after)

include stepped

theorem Stepped.dataLoss_some (lost : self.dataLoss = some loss) : after.dataLoss = some loss := by
  cases stepped with
  | result success left staffed last ends chain => exact chain.dataLoss_some lost
  | goodbye last opened running succeeded chain halted complete =>
    exact chain.dataLoss_some (opened.dataLoss_some lost)
  | marker found chain =>
    obtain ⟨log, chain⟩ := chain.marked
    exact chain.dataLoss_some lost
  | stop failure running fresh chain => exact chain.dataLoss_some lost
  | other _ idle unknown ending ends chain => exact chain.dataLoss_some lost

theorem Stepped.log_append : self.log <+: after.log := by
  cases stepped with
  | result success left staffed last ends chain => exact chain.log_append
  | goodbye last opened running succeeded chain halted complete =>
    exact opened.log_append.trans ((List.prefix_append _ _).trans chain.log_append)
  | marker found chain => exact (countEndOfStream_log ..).trans chain.log_append
  | stop failure running fresh chain => exact (List.prefix_append _ _).trans chain.log_append
  | other _ idle unknown ending ends chain => exact chain.log_append

/-- The goodbye is said with the last result, while nothing is lost. -/
theorem Stepped.goodbyes (unsaid : self.goodbyeSent = false) (said : after.goodbyeSent = true) : after.dataLoss = none := by
  have same (chain : after.goodbyeSent = self.goodbyeSent) : after.dataLoss = none :=
    Bool.noConfusion (said.symm.trans (chain.trans unsaid))
  cases stepped with
  | result success left staffed last ends chain => exact same chain.goodbyeSent_eq
  | goodbye last opened running succeeded chain halted complete => exact complete
  | marker found chain =>
    obtain ⟨log, chain⟩ := chain.marked
    exact same chain.goodbyeSent_eq
  | stop failure running fresh chain => exact same chain.goodbyeSent_eq
  | other _ idle unknown ending ends chain => exact same chain.goodbyeSent_eq

theorem Stepped.aborts (more : self.count .abort < after.count .abort) :
    self.phase = .running ∧ after.requestedStop = true := by
  cases stepped with
  | result success left staffed last ends chain =>
    obtain ⟨running, requested⟩ := chain.aborts more
    exact ⟨running, chain.requestedStop_eq.trans requested⟩
  | @goodbye middle _ last opened running succeeded chain halted complete =>
    have unmoved : middle.sayGoodbye.count .abort = middle.count .abort :=
      count_other rfl OutputKind.noConfusion
    by_cases later : middle.sayGoodbye.count .abort < after.count .abort
    · exact Phase.noConfusion (chain.aborts later).1
    · have earlier : self.count .abort < middle.count .abort := by omega
      obtain ⟨running, requested⟩ := opened.aborts earlier
      exact ⟨running, (chain.requestedStop_eq.trans opened.requestedStop_eq).trans requested⟩
  | @marker peerId peer _ found chain =>
    rw [← countEndOfStream_aborts self peerId peer] at more
    obtain ⟨running, requested⟩ := chain.aborts more
    obtain ⟨log, equal⟩ := countEndOfStream_eq self peerId peer
    rw [equal] at running
    exact ⟨running, chain.requestedStop_eq.trans requested⟩
  | stop failure running fresh chain =>
    have unmoved : (self.requestStop failure).count .abort = self.count .abort :=
      count_other rfl OutputKind.noConfusion
    rw [← unmoved] at more
    exact ⟨running, chain.requestedStop_eq.trans (chain.aborts more).2⟩
  | other _ idle unknown ending ends chain =>
    obtain ⟨running, requested⟩ := chain.aborts more
    exact ⟨running, chain.requestedStop_eq.trans requested⟩

/-- A peer is acknowledged with the marker that completes its goodbye. -/
theorem Stepped.acks {id : String} (more : self.count (.ack id) < after.count (.ack id)) :
    input = .link id .progressEndOfStream ∧ ∃ peer, self.peers id = some peer ∧ peer.completes = true := by
  cases stepped with
  | result success left staffed last ends chain => exact absurd (chain.acks id) more.ne'
  | @goodbye middle _ last opened running succeeded chain halted complete =>
    have unmoved : middle.sayGoodbye.count (.ack id) = middle.count (.ack id) :=
      count_other rfl OutputKind.noConfusion
    exact absurd ((chain.acks id).trans (unmoved.trans (opened.acks id))) more.ne'
  | stop failure running fresh chain =>
    have unmoved : (self.requestStop failure).count (.ack id) = self.count (.ack id) :=
      count_other rfl OutputKind.noConfusion
    exact absurd ((chain.acks id).trans unmoved) more.ne'
  | other _ idle unknown ending ends chain => exact absurd (chain.acks id) more.ne'
  | @marker peerId peer _ found chain =>
    rw [chain.acks id] at more
    unfold LifecycleMachine.countEndOfStream at more
    split at more
    · rename_i completes
      by_cases here : peerId = id
      · subst here
        exact ⟨rfl, peer, found, completes⟩
      · dsimp only at more
        split_ifs at more <;> simp [count, emit, LifecycleMachine.setPeer, LifecycleOutput.kind, here] at more
    · exact absurd more (Nat.lt_irrefl _)

end

theorem run_dataLoss_some (inputs : LifecycleCalls) (lost : self.dataLoss = some loss) :
    (self.run inputs).dataLoss = some loss := by
  refine List.foldlRecOn (motive := fun machine : LifecycleMachine => machine.dataLoss = some loss) inputs _ lost ?_
  exact fun _ held call _ => (step_stepped call.1 call.2).dataLoss_some held

/-- The outputs of one call. -/
def outputs (self : LifecycleMachine) (pushBlocked : String → Bool) (input : LifecycleInput) :
    List LifecycleOutput :=
  (self.step pushBlocked input).log.drop self.log.length

theorem step_log (self : LifecycleMachine) (pushBlocked : String → Bool) (input : LifecycleInput) :
    (self.step pushBlocked input).log = self.log ++ self.outputs pushBlocked input := by
  have stepped : Stepped self input (self.step pushBlocked input) := step_stepped pushBlocked input
  obtain ⟨added, same⟩ := stepped.log_append
  unfold outputs
  rw [← same, List.drop_left]

theorem count_lt {pushBlocked : String → Bool} {output : LifecycleOutput}
    (emitted : output ∈ self.outputs pushBlocked input) :
    self.count output.kind < (self.step pushBlocked input).count output.kind := by
  have positive : 0 < (self.outputs pushBlocked input).countP fun other => other.kind = output.kind :=
    List.countP_pos_iff.mpr ⟨output, emitted, decide_eq_true rfl⟩
  unfold count
  rw [step_log, List.countP_append]
  omega

theorem Reached.allSucceeded (reached : Reached workers peers inputs self) (said : self.goodbyeSent = true) :
    inputs.AllSucceeded workers := by
  obtain ⟨idle, succeeded⟩ := reached.disciplined.succeeded said
  have remaining := reached.remaining
  refine List.eq_replicate_iff.mpr ⟨by rw [List.length_take]; omega, fun result reported => ?_⟩
  exact List.all_eq_true.mp (reached.succeeded.symm.trans succeeded) result reported

theorem Reached.counts (reached : Reached workers peers inputs self) :
    self.count .teardown ≤ 1 ∧ self.count .goodbye ≤ 1 ∧ self.count .notice ≤ 1 ∧ self.count .unfinished ≤ 1 ∧
      self.count .abort ≤ 1 ∧ ∀ id, self.count (.ack id) ≤ 1 := by
  have disciplined := reached.disciplined
  have torn : self.count .teardown ≤ 1 := by
    rw [disciplined.teardowns]
    cases self.phase <;> decide
  exact ⟨torn, disciplined.goodbyes.trans_le (Bool.toNat_le _), disciplined.notices.trans_le (Bool.toNat_le _),
    disciplined.unfinished.trans torn, disciplined.aborts.trans_le (Bool.toNat_le _),
    fun id => (disciplined.acks id).trans (Bool.toNat_le _)⟩

variable {pushBlocked : String → Bool}

section

variable (reached : Reached workers peers inputs self)
include reached

theorem Reached.goodbye_emitted (emitted : .action .sendGoodbye ∈ self.outputs pushBlocked input) :
    LifecycleCalls.AllSucceeded workers (inputs ++ [(pushBlocked, input)]) ∧
      (self.step pushBlocked input).dataLoss = none := by
  have stepped : Stepped self input (self.step pushBlocked input) := step_stepped pushBlocked input
  have next := reached.stepped stepped pushBlocked
  have more := count_lt emitted
  change self.count .goodbye < (self.step pushBlocked input).count .goodbye at more
  rw [reached.disciplined.goodbyes, next.disciplined.goodbyes] at more
  have said : (self.step pushBlocked input).goodbyeSent = true := by
    by_contra unsaid
    rw [Bool.eq_false_iff.mpr unsaid] at more
    exact absurd more (Nat.not_lt_zero _)
  have unsaid : self.goodbyeSent = false := by
    by_contra already
    rw [Bool.eq_true_of_not_eq_false already, said] at more
    exact absurd more (Nat.lt_irrefl _)
  exact ⟨next.allSucceeded said, stepped.goodbyes unsaid said⟩

theorem Reached.abort_emitted {reason : CancellationReason}
    (emitted : .action (.abortDrain reason) ∈ self.outputs pushBlocked input) :
    self.phase = .running ∧ (workers = 0 ∨ inputs.workerResults.length < workers) ∧
      ∃ call ∈ inputs ++ [(pushBlocked, input)], call.2 = .dataflowCancelled false := by
  have stepped : Stepped self input (self.step pushBlocked input) := step_stepped pushBlocked input
  obtain ⟨running, requested⟩ := stepped.aborts (count_lt emitted)
  refine ⟨running, (reached.staffed running).imp id fun left => ?_, ?_⟩
  · rw [reached.remaining] at left
    omega
  · exact (reached.stepped stepped pushBlocked).stopped requested

theorem Reached.ack_emitted {id : String} (emitted : .action (.sendAck id) ∈ self.outputs pushBlocked input) :
    input = .link id .progressEndOfStream ∧
      peers.reverse.lookup id = some (LifecycleCalls.markersOf (inputs ++ [(pushBlocked, input)]) id) := by
  have stepped : Stepped self input (self.step pushBlocked input) := step_stepped pushBlocked input
  obtain ⟨marker, peer, found, completes⟩ := stepped.acks (count_lt emitted)
  refine ⟨marker, ?_⟩
  have held := reached.tallied id
  rw [found] at held
  have last : peer.endOfStream + 1 = peer.expectedEndOfStream := by
    exact of_decide_eq_true (Bool.and_eq_true_iff.mp completes).1
  generalize peers.reverse.lookup id = expected at held
  cases held with
  | some tallied =>
    rw [LifecycleCalls.markersOf_snoc, marker, ← tallied.counted, ← tallied.expects, ← last]
    simp [LifecycleInput.isMarkerOf]

end

end Runs

/-- For all workers, peers and calls: one teardown is requested at most and no action after it, a graceful one only if
all workers succeeded; the goodbye is said once, the peers are told once of a cancellation, an unfinished dataflow is
announced once, a drain is aborted once, and every peer is acknowledged once. The goodbye comes when all workers have
succeeded and nothing is lost, an aborted drain while the workers run and after a requested stop, and an acknowledgement
with the marker that completes the count of the peer. A recorded loss never changes. -/
theorem run_disciplined (workers : Nat) (peers : List (String × Nat)) (inputs : LifecycleCalls) :
    let machine := (new workers peers).run inputs
    (EndsWithTeardown machine.log ∧ machine.count .teardown ≤ 1 ∧
      (.action (.teardown true) ∈ machine.log → inputs.AllSucceeded workers)) ∧
    (machine.count .goodbye ≤ 1 ∧ machine.count .notice ≤ 1 ∧ machine.count .unfinished ≤ 1 ∧
      machine.count .abort ≤ 1 ∧ ∀ id, machine.count (.ack id) ≤ 1) ∧
    (∀ (pushBlocked : String → Bool) (input : LifecycleInput),
      let after := machine.step pushBlocked input
      let outputs := machine.outputs pushBlocked input
      let calls : LifecycleCalls := inputs ++ [(pushBlocked, input)]
      after.log = machine.log ++ outputs ∧
      (.action .sendGoodbye ∈ outputs → calls.AllSucceeded workers ∧ after.dataLoss = none) ∧
      (∀ reason, .action (.abortDrain reason) ∈ outputs →
        machine.phase = .running ∧ (workers = 0 ∨ inputs.workerResults.length < workers) ∧
          ∃ call ∈ calls, call.2 = .dataflowCancelled false) ∧
      ∀ id, .action (.sendAck id) ∈ outputs →
        input = .link id .progressEndOfStream ∧ peers.reverse.lookup id = some (calls.markersOf id)) ∧
    ∀ (loss : DataLoss) (more : LifecycleCalls),
      machine.dataLoss = some loss → (machine.run more).dataLoss = some loss := by
  have reached := reached_run workers peers inputs
  generalize (new workers peers).run inputs = machine at reached ⊢
  obtain ⟨torn, counts⟩ := reached.counts
  refine ⟨⟨reached.disciplined.ended, torn, fun graceful => ?_⟩, counts, fun pushBlocked input => ?_, ?_⟩
  · exact reached.allSucceeded (reached.disciplined.polite graceful)
  · exact ⟨step_log machine pushBlocked input, reached.goodbye_emitted, fun _ => reached.abort_emitted,
      fun _ => reached.ack_emitted⟩
  · exact fun loss more lost => run_dataLoss_some more lost

end LifecycleMachine

end Instancy
