import Instancy.Runtime.Lifecycle

namespace Instancy

open Relation

/-- The actions that nothing counts. -/
def LifecycleAction.Plain : LifecycleAction → Prop
  | .linkFailed .. | .armSoftFailureTimer _ | .cancelDataflow _ => True
  | _ => False

/-- The count of end-of-stream markers stays, and a data channel without its close marker is not forgotten. -/
structure PeerState.Kept (before after : PeerState) : Prop where
  expected : after.expectedEndOfStream = before.expectedEndOfStream
  counted : after.endOfStream = before.endOfStream
  goodbye : after.goodbyeReceived = before.goodbyeReceived
  unclean : before.uncleanDataChannel = true → after.uncleanDataChannel = true

theorem PeerState.Kept.refl (peer : PeerState) : peer.Kept peer := ⟨rfl, rfl, rfl, id⟩

namespace LifecycleMachine

/-- A loss is recorded, or waits for the results of the workers. -/
def Noted (self : LifecycleMachine) : Prop :=
  self.dataLoss.isSome ∨ self.pendingLoss.isSome ∨ self.deferredLoss.isSome

/-- The small changes of the machine. While all workers succeed, no loss is forgotten, and only a final call tears a
running dataflow down. -/
inductive Effect (final : Bool) (before : LifecycleMachine) : LifecycleMachine → Prop where
  | keep (pendingLoss deferredLoss : Option DataLoss)
      (peers : String → Option PeerState)
      (noted : before.phase = .running → before.allWorkersOk = true → before.Noted →
        { before with pendingLoss, deferredLoss, peers }.Noted)
      (kept : ∀ id, Option.Rel PeerState.Kept (before.peers id) (peers id)) :
      Effect final before { before with pendingLoss, deferredLoss, peers }
  | lose (loss : DataLoss) (fresh : before.dataLoss = none) :
      Effect final before { before with dataLoss := some loss }
  | broadcast (fresh : before.cancelBroadcast = false)
      (alive : before.phase ≠ .finished) :
      Effect final before ({ before with cancelBroadcast := true }.emit .broadcastCancel)
  | say (action : LifecycleAction) (plain : action.Plain)
      (alive : before.phase ≠ .finished) : Effect final before (before.emit action)
  | abort (reason : CancellationReason) (running : before.phase = .running)
      (requested : before.requestedStop = true) (fresh : before.drainAborted = false) :
      Effect final before ({ before with drainAborted := true }.emit (.abortDrain reason))
  | conclude (graceful : Bool) (alive : before.phase ≠ .finished)
      (polite : graceful = true → before.phase = .draining) (due : final = true ∨ before.phase = .draining) :
      Effect final before ({ before with phase := .finished }.emit (.teardown graceful))
  | concludeUnfinished (graceful : Bool) (alive : before.phase ≠ .finished)
      (polite : graceful = true → before.phase = .draining) (due : final = true ∨ before.phase = .draining) :
      Effect final before (({ before with phase := .finished }.emit .announceUnfinished).emit (.teardown graceful))
  | announce (loss : DataLoss) (found : before.dataLoss = some loss)
      (fresh : before.cancelBroadcast = false) :
      Effect final before { before with cancelBroadcast := true, log := before.log ++ [.announced loss] }

abbrev Effects (final : Bool) := ReflTransGen (Effect final)

variable {final : Bool} {self : LifecycleMachine} {peerId : String} {peer : PeerState} {pushBlocked : String → Bool}

theorem kept_refl (peers : String → Option PeerState) (id : String) :
    Option.Rel PeerState.Kept (peers id) (peers id) := by
  cases peers id with
  | none => exact .none
  | some peer => exact .some (.refl peer)

theorem setPeer_effects {next : PeerState} (found : self.peers peerId = some peer) (kept : peer.Kept next) :
    Effects final self (self.setPeer peerId next) := by
  refine .single (.keep self.pendingLoss self.deferredLoss _ (fun _ _ noted => noted) fun id => ?_)
  by_cases same : id = peerId
  · subst same
    rw [found, Function.update_self]
    exact .some kept
  · rw [Function.update_of_ne same]
    exact kept_refl self.peers id

theorem mapPeers_effects {change : PeerState → PeerState} (kept : ∀ peer : PeerState, peer.Kept (change peer)) :
    Effects final self (self.mapPeers change) := by
  refine .single (.keep self.pendingLoss self.deferredLoss _ (fun _ _ noted => noted) fun id => ?_)
  cases self.peers id with
  | none => exact .none
  | some peer => exact .some (kept peer)

theorem isSome_or_some (first : Option DataLoss) (loss : DataLoss) : (first.or (some loss)).isSome := by
  cases first <;> rfl

variable (loss : DataLoss)

theorem pending_effects :
    Effects final self { self with pendingLoss := self.pendingLoss.or (some loss) } := by
  refine .single (.keep _ self.deferredLoss self.peers (fun _ _ _ => ?_) (kept_refl self.peers))
  exact .inr (.inl (isSome_or_some self.pendingLoss loss))

theorem deferred_effects :
    Effects final self { self with deferredLoss := self.deferredLoss.or (some loss) } := by
  refine .single (.keep self.pendingLoss _ self.peers (fun _ _ _ => ?_) (kept_refl self.peers))
  exact .inr (.inr (isSome_or_some self.deferredLoss loss))

/-- A loss is recorded unless there is one. -/
theorem recordLoss_effects : Effects final self (self.recordLoss loss) := by
  unfold recordLoss
  cases found : self.dataLoss with
  | none => exact .single (.lose loss found)
  | some first =>
    show Effects final self { self with dataLoss := some first }
    rw [← found]

theorem finishIfResolved_effects : Effects final self self.finishIfResolved := by
  unfold finishIfResolved
  split
  · rename_i resolved
    exact .single (.conclude true (by rw [resolved.1]; decide) (fun _ => resolved.1) (.inr resolved.1))
  · exact .refl

theorem finishIfResolved_phase (halted : self.phase ≠ .running) : self.finishIfResolved.phase ≠ .running := by
  unfold finishIfResolved
  split
  · exact nofun
  · exact halted

theorem finishIfResolved_dataLoss : self.finishIfResolved.dataLoss = self.dataLoss := by
  unfold finishIfResolved
  split <;> rfl

theorem abortDrain_effects (reason : CancellationReason) : Effects final self (self.abortDrain reason) := by
  unfold abortDrain
  split
  · exact .refl
  · rename_i allowed
    have allowed := not_or.mp allowed
    have rest := not_or.mp allowed.2
    exact .single (.abort reason (not_not.mp allowed.1) (not_not.mp rest.1) (Bool.eq_false_iff.mpr rest.2))

theorem abortDrainWithout_effects (peerId : String) :
    Effects final self (self.abortDrainWithout pushBlocked peerId) := by
  unfold abortDrainWithout
  split
  · exact abortDrain_effects _
  · exact .refl

theorem giveUp_kept (peer : PeerState) : peer.Kept { peer.giveUp with softFailure := none } := ⟨rfl, rfl, rfl, id⟩

/-- After a loss the machine tells its peers and ends at once. -/
theorem abandon_effects (graceful : Bool) (alive : self.phase ≠ .finished)
    (polite : graceful = true → self.phase = .draining) (due : final = true ∨ self.phase = .draining) :
    Effects final self ({ self.abandonAfterDataLoss with phase := .finished }.emit (.teardown graceful)) := by
  have said : Effects final self (self.emit (.cancelDataflow self.dataLossReason)) := .single (.say _ trivial alive)
  unfold abandonAfterDataLoss
  dsimp only
  generalize quiet : self.emit (.cancelDataflow self.dataLossReason) = middle at said ⊢
  have phase : middle.phase = self.phase := by rw [← quiet]; rfl
  refine said.trans ?_
  by_cases fresh : middle.cancelBroadcast = true
  · rw [if_neg (not_not.mpr fresh)]
    by_cases requested : middle.requestedStop = true
    · rw [if_pos requested]
      exact (mapPeers_effects giveUp_kept).tail (.concludeUnfinished graceful (phase ▸ alive) (phase ▸ polite) (phase ▸ due))
    · rw [if_neg requested]
      exact (mapPeers_effects giveUp_kept).tail (.conclude graceful (phase ▸ alive) (phase ▸ polite) (phase ▸ due))
  · rw [if_pos fresh]
    have fresh : middle.cancelBroadcast = false := Bool.eq_false_iff.mpr fresh
    refine .head (.broadcast fresh (phase ▸ alive)) ?_
    exact (mapPeers_effects giveUp_kept).tail (.conclude graceful (phase ▸ alive) (phase ▸ polite) (phase ▸ due))

theorem abandon_phase : self.abandonAfterDataLoss.phase = self.phase := by
  unfold abandonAfterDataLoss
  dsimp only
  split
  · rfl
  · split <;> rfl

theorem abandon_peers (id : String) : self.abandonAfterDataLoss.peers id =
    (self.peers id).map fun peer => { peer.giveUp with softFailure := none } := by
  unfold abandonAfterDataLoss
  dsimp only
  split
  · rfl
  · split <;> rfl

/-- All peers are given up after a loss, so that nothing is left to wait for. -/
theorem abandon_finishIfResolved (draining : self.phase = .draining) :
    self.abandonAfterDataLoss.finishIfResolved =
      { self.abandonAfterDataLoss with phase := .finished }.emit (.teardown true) := by
  refine if_pos ⟨abandon_phase.trans draining, List.all_eq_true.mpr fun id _ => ?_⟩
  rw [abandon_peers]
  cases self.peers id with
  | none => rfl
  | some peer =>
    show (PeerState.resolved { peer.giveUp with softFailure := none }) = true
    unfold PeerState.resolved PeerState.unsent PeerState.giveUp PeerState.retired
    cases peer.goodbyeReceived <;> cases peer.ackReceived <;> simp

theorem alive_of_running (running : self.phase = .running) : self.phase ≠ .finished :=
  fun finished => Phase.noConfusion (running.symm.trans finished)

theorem alive_of_draining (draining : self.phase = .draining) : self.phase ≠ .finished :=
  fun finished => Phase.noConfusion (draining.symm.trans finished)

/-- The dataflow is cancelled on this node and on the others. -/
theorem cancelEverywhere_effects (fresh : self.cancelBroadcast = false) (alive : self.phase ≠ .finished) :
    Effects final self
      (({ self with cancelBroadcast := true }.emit (.cancelDataflow self.dataLossReason)).emit .broadcastCancel) :=
  .head (.say (.cancelDataflow self.dataLossReason) trivial alive)
    (.single (.broadcast fresh alive))

theorem reportLoss_effects (fresh : self.phase = .running → self.cancelBroadcast = false) :
    Effects final self self.reportLoss := by
  unfold reportLoss
  split
  · rename_i running
    exact cancelEverywhere_effects (fresh running) (alive_of_running running)
  · rename_i draining
    rw [abandon_finishIfResolved draining]
    exact abandon_effects true (alive_of_draining draining) (fun _ => draining) (.inr draining)
  · exact .refl

theorem onInboundDataLost_effects (peer detail : String) (cancelled : Bool) :
    Effects final self (self.onInboundDataLost peer detail cancelled) := by
  unfold onInboundDataLost
  split
  · exact .refl
  rename_i clean
  have fresh : self.dataLoss = none := Option.not_isSome_iff_eq_none.mp (not_or.mp clean).2
  split
  · exact pending_effects _
  rename_i quiet
  split
  · exact deferred_effects _
  refine .head (.lose ⟨peer, detail⟩ fresh) (reportLoss_effects fun running => ?_)
  exact Bool.eq_false_iff.mpr fun cancelled => quiet ⟨running, Or.inr cancelled⟩

theorem cancelPeers_effects (alive : self.phase ≠ .finished) : Effects final self self.cancelPeers := by
  unfold cancelPeers
  split
  · rename_i fresh
    exact .single (.broadcast (Bool.eq_false_iff.mpr fresh) alive)
  · exact .refl

theorem failRunningWithDataLoss_effects (alive : self.phase ≠ .finished) :
    Effects final (self.recordLoss loss) (self.failRunningWithDataLoss loss) :=
  .head (.say (.cancelDataflow _) trivial alive) (cancelPeers_effects alive)

theorem missingCloseMarker_effects (peerId : String) : Effects final self (self.missingCloseMarker peerId) := by
  unfold missingCloseMarker
  split
  · exact .refl
  rename_i running
  split
  · exact (pending_effects _).trans (abortDrain_effects _)
  · exact (recordLoss_effects _).trans
      (failRunningWithDataLoss_effects _ (alive_of_running (not_not.mp running)))

theorem giveUpPeer_effects (peerId : String) : Effects final self (self.giveUpPeer peerId) := by
  unfold giveUpPeer
  split
  · rename_i peer found
    exact setPeer_effects found (giveUp_kept peer)
  · exact .refl

theorem reportCorruption_effects (peerId : String) (failure : LinkFailure) :
    Effects final self (self.reportCorruption peerId failure).finishIfResolved := by
  unfold reportCorruption
  split
  · rename_i running
    refine ReflTransGen.trans ?_ finishIfResolved_effects
    split
    · exact abortDrain_effects _
    · rename_i fresh
      have alive := alive_of_running running
      refine .head (.say (.linkFailed peerId failure) trivial alive) (.single ?_)
      exact .broadcast (Bool.eq_false_iff.mpr fresh) alive
  · rename_i draining
    rw [abandon_finishIfResolved draining]
    exact abandon_effects true (alive_of_draining draining) (fun _ => draining) (.inr draining)
  · exact finishIfResolved_effects

/-- Corrupt traffic is recorded, and what it starts is ended with the event. -/
theorem onCorruption_effects (peerId : String) (failure : LinkFailure) :
    Effects final self (self.onCorruption peerId failure).finishIfResolved := by
  unfold onCorruption
  split
  · exact (recordLoss_effects _).trans finishIfResolved_effects
  · exact (giveUpPeer_effects peerId).trans ((recordLoss_effects _).trans (reportCorruption_effects peerId failure))

theorem deferSoftFailure_effects (found : self.peers peerId = some peer) (failure : LinkFailure)
    (alive : self.phase ≠ .finished) : Effects final self (self.deferSoftFailure peer peerId failure) := by
  unfold deferSoftFailure
  split
  · exact .refl
  · refine ReflTransGen.tail (setPeer_effects found ?_) (.say (.armSoftFailureTimer peerId) trivial alive)
    exact ⟨rfl, rfl, rfl, id⟩

theorem failLink_effects (found : self.peers peerId = some peer) (failure : LinkFailure) (hard : Bool) :
    Effects final self (self.failLink pushBlocked peer peerId failure hard) := by
  unfold failLink
  split
  · rename_i running
    have alive := alive_of_running running
    split
    · exact setPeer_effects found ⟨rfl, rfl, rfl, id⟩
    split
    · exact deferSoftFailure_effects found failure alive
    split
    · refine ReflTransGen.trans (setPeer_effects found ?_) (abortDrainWithout_effects peerId)
      exact ⟨rfl, rfl, rfl, id⟩
    · rename_i fresh
      have lost : Effects final self (self.setPeer peerId { peer with lost := true }) :=
        setPeer_effects found ⟨rfl, rfl, rfl, id⟩
      refine (lost.tail (.say (.linkFailed peerId failure) trivial alive)).tail ?_
      exact .broadcast (Bool.eq_false_iff.mpr fresh) alive
  · rename_i draining
    split
    · exact deferSoftFailure_effects found failure (alive_of_draining draining)
    · exact setPeer_effects found ⟨rfl, rfl, rfl, id⟩
  · exact .refl

theorem onLinkFailureWith_effects {settle : LifecycleMachine → LifecycleMachine}
    (settles : Effects final self (settle self)) (peerId : String) (failure : LinkFailure) (hard : Bool) :
    Effects final self (onLinkFailureWith settle self pushBlocked peerId failure hard) := by
  unfold onLinkFailureWith
  split
  · exact .refl
  rename_i peer found
  split
  · split
    · refine ReflTransGen.trans (setPeer_effects found ?_) (abortDrainWithout_effects peerId)
      exact ⟨rfl, rfl, rfl, id⟩
    · exact .refl
  split
  · exact settles
  · exact failLink_effects found failure hard

theorem settleUnsent_effects (peerId : String) (closedBy : Option LinkFailure) :
    Effects final self (self.settleUnsent pushBlocked peerId closedBy) := by
  unfold settleUnsent
  split
  · exact .refl
  rename_i peer found
  split
  · exact .refl
  have taken : Effects final self (self.setPeer peerId { peer with softFailure := none }) :=
    setPeer_effects found ⟨rfl, rfl, rfl, id⟩
  have refound : (self.setPeer peerId { peer with softFailure := none }).peers peerId =
      some { peer with softFailure := none } := Function.update_self ..
  dsimp only
  refine taken.trans ?_
  split
  · split
    · exact .refl
    · exact onInboundDataLost_effects ..
  split
  · exact onLinkFailureWith_effects .refl ..
  · refine ReflTransGen.trans (setPeer_effects refound ?_) (onInboundDataLost_effects ..)
    exact ⟨rfl, rfl, rfl, id⟩

theorem onLinkFailure_effects (peerId : String) (failure : LinkFailure) (hard : Bool) :
    Effects final self (self.onLinkFailure pushBlocked peerId failure hard) :=
  onLinkFailureWith_effects (settleUnsent_effects peerId (some failure)) peerId failure hard

theorem onSoftFailureExpired_effects (peerId : String) :
    Effects final self (self.onSoftFailureExpired pushBlocked peerId) := by
  unfold onSoftFailureExpired
  split
  · exact .refl
  rename_i peer found
  split
  · exact (settleUnsent_effects peerId none).trans finishIfResolved_effects
  split
  · exact .refl
  · have taken : Effects final self (self.setPeer peerId { peer with softFailure := none }) :=
      setPeer_effects found ⟨rfl, rfl, rfl, id⟩
    exact taken.trans ((onLinkFailure_effects ..).trans finishIfResolved_effects)

/-- The peers that have stopped already are looked at once the stop is requested. -/
theorem onDataflowCancelled_effects (failure : Bool) (running : self.phase = .running)
    (fresh : self.cancelBroadcast = false) :
    Effects final (self.requestStop failure) (self.onDataflowCancelled pushBlocked failure) := by
  unfold onDataflowCancelled
  rw [if_pos ⟨running, Bool.eq_false_iff.mp fresh⟩]
  exact List.foldlRecOn _ _ .refl fun _ reached peer _ => reached.trans (abortDrainWithout_effects peer)

theorem kept_giveUp (peer : PeerState) : peer.Kept peer.giveUp := ⟨rfl, rfl, rfl, id⟩

theorem onExternalAbort_effects : Effects true self self.onExternalAbort := by
  unfold onExternalAbort
  split
  · exact .refl
  · rename_i draining
    exact (mapPeers_effects kept_giveUp).tail (.conclude true (alive_of_draining draining) (fun _ => draining) (.inr draining))
  · rename_i running
    have alive := alive_of_running running
    unfold cancelPeers
    split
    · rename_i fresh
      refine .head (.broadcast (Bool.eq_false_iff.mpr fresh) alive) (.single ?_)
      exact .conclude false alive nofun (.inl rfl)
    · exact .single (.conclude false alive nofun (.inl rfl))

theorem onEventsClosed_effects : Effects true self self.onEventsClosed := by
  unfold onEventsClosed
  split
  · exact .refl
  · rename_i alive
    exact (mapPeers_effects kept_giveUp).tail (.conclude _ alive of_decide_eq_true (.inl rfl))

theorem takeUnannouncedLoss_effects : Effects final self self.takeUnannouncedLoss := by
  unfold takeUnannouncedLoss
  split
  · exact .refl
  rename_i fresh
  split
  · exact .refl
  · rename_i loss found
    exact .single (.announce loss found (Bool.eq_false_iff.mpr fresh))

theorem settleDeferred_effects : Effects final self self.settleDeferred.1 := by
  unfold settleDeferred
  cases waiting : self.deferredLoss with
  | none => exact .refl
  | some loss =>
    dsimp only
    split
    · rename_i counts
      have alive := alive_of_running counts.2.2
      split
      · refine .single (.keep _ none self.peers (fun _ _ _ => ?_) (kept_refl self.peers))
        exact .inr (.inl (isSome_or_some self.pendingLoss loss))
      · rename_i fresh
        have lost : Effects final self { self with dataLoss := some loss, deferredLoss := none } := by
          refine .head (.lose loss counts.2.1) (.single ?_)
          exact .keep self.pendingLoss none self.peers (fun _ _ _ => .inl rfl) (kept_refl self.peers)
        split
        · exact lost.trans (cancelEverywhere_effects (Bool.eq_false_iff.mpr fresh) alive)
        · exact lost
    · rename_i useless
      refine .single (.keep self.pendingLoss none self.peers (fun running succeeded _ => ?_)
        (kept_refl self.peers))
      refine .inl (Option.isSome_iff_ne_none.mpr fun clean => useless ⟨succeeded, clean, running⟩)

theorem settleDeferred_phase : self.settleDeferred.1.phase = self.phase := by
  unfold settleDeferred
  split
  · rfl
  · dsimp only
    split_ifs <;> rfl

theorem settleDeferred_left (handled : self.settleDeferred.2 = true) : 0 < self.workersRemaining := by
  unfold settleDeferred at handled
  split at handled
  · cases handled
  · dsimp only at handled
    split_ifs at handled with _ _ left
    exact left

/-- The pending loss is recorded, or it is dropped because there is a loss or a worker failed. -/
theorem adoptPending_effects : Effects final self self.adoptPending := by
  unfold adoptPending
  dsimp only
  split
  · rename_i counts
    cases waiting : self.pendingLoss with
    | none =>
      -- Nothing waits and nothing is lost, so the machine stays as it is.
      obtain ⟨_, _⟩ := self
      cases waiting
      cases counts.2
      exact .refl
    | some loss =>
      refine .head (.lose loss counts.2) (.single ?_)
      exact .keep none self.deferredLoss self.peers (fun _ _ _ => .inl rfl) (kept_refl self.peers)
  · rename_i useless
    refine .single (.keep none self.deferredLoss self.peers (fun _ succeeded _ => ?_) (kept_refl self.peers))
    exact .inl (Option.isSome_iff_ne_none.mpr fun clean => useless ⟨succeeded, clean⟩)

theorem adoptPending_phase : self.adoptPending.phase = self.phase := by
  unfold adoptPending
  dsimp only
  split <;> rfl

/-- What the last result does, by whether the machine says goodbye. -/
theorem onLastWorker_effects (running : self.phase = .running) :
    Effects true self self.onLastWorker ∧ self.onLastWorker.phase ≠ .running ∨
      ∃ middle, Effects true self middle ∧ middle.phase = .running ∧ middle.allWorkersOk = true ∧
        Effects true middle.sayGoodbye self.onLastWorker ∧ self.onLastWorker.phase ≠ .running ∧
        self.onLastWorker.dataLoss = none := by
  have adopted : Effects true self self.adoptPending := adoptPending_effects
  have phase : self.adoptPending.phase = .running := adoptPending_phase.trans running
  unfold onLastWorker
  generalize self.adoptPending = middle at adopted phase
  have alive := alive_of_running phase
  by_cases complete : middle.allWorkersOk = true ∧ middle.dataLoss = none
  · rw [if_pos complete]
    have rested : Effects true middle.sayGoodbye
        (if middle.sayGoodbye.cancelBroadcast then middle.sayGoodbye.mapPeers PeerState.giveUp
          else middle.sayGoodbye) := by
      split
      · exact mapPeers_effects kept_giveUp
      · exact .refl
    refine .inr ⟨middle, adopted, phase, complete.1, rested.trans finishIfResolved_effects, ?_, ?_⟩
    · refine finishIfResolved_phase ?_
      split <;> exact nofun
    · rw [finishIfResolved_dataLoss]
      split <;> exact complete.2
  · rw [if_neg complete]
    refine .inl ⟨adopted.trans ?_, nofun⟩
    have impolite : false = true → middle.phase = .draining := nofun
    split
    · exact abandon_effects false alive impolite (.inl rfl)
    split
    · rename_i fresh
      exact .head (.broadcast (Bool.eq_false_iff.mpr fresh) alive)
        (.single (.concludeUnfinished false alive impolite (.inl rfl)))
    split
    · exact .single (.concludeUnfinished false alive impolite (.inl rfl))
    · exact .single (.conclude false alive impolite (.inl rfl))

theorem countEndOfStream_effects :
    Effects final (self.countEndOfStream peerId peer)
      (self.handleLinkEvent pushBlocked peerId peer .progressEndOfStream).finishIfResolved := by
  refine ReflTransGen.trans ?_ finishIfResolved_effects
  rw [handleLinkEvent]
  split
  · exact missingCloseMarker_effects peerId
  · exact .refl

section

variable (found : self.peers peerId = some peer)
include found

theorem progressChannelEnded_effects (failure : LinkFailure) : Effects final self
      (self.handleLinkEvent pushBlocked peerId peer (.progressChannelEnded failure)).finishIfResolved := by
  rw [handleLinkEvent]
  have counted : Effects final self (self.countChannelEnd peerId peer failure) := by
    unfold countChannelEnd
    split
    · exact .refl
    · exact setPeer_effects found ⟨rfl, rfl, rfl, id⟩
  refine counted.trans ?_
  split
  · exact onCorruption_effects peerId failure
  · exact (onLinkFailure_effects ..).trans finishIfResolved_effects

theorem dataChannelEnded_effects (failure : LinkFailure) :
    Effects final self (self.handleLinkEvent pushBlocked peerId peer (.dataChannelEnded failure)).finishIfResolved := by
  rw [handleLinkEvent]
  split
  · exact onCorruption_effects peerId failure
  · have marked : Effects final self (self.setPeer peerId { peer with uncleanDataChannel := true }) :=
      setPeer_effects found ⟨rfl, rfl, rfl, fun _ => rfl⟩
    refine marked.trans (ReflTransGen.trans ?_ finishIfResolved_effects)
    split
    · exact missingCloseMarker_effects peerId
    · exact onLinkFailure_effects ..

theorem cancelReceived_effects :
    Effects final self (self.handleLinkEvent pushBlocked peerId peer .cancelReceived).finishIfResolved := by
  refine ReflTransGen.trans ?_ finishIfResolved_effects
  rw [handleLinkEvent]
  split
  · refine ReflTransGen.trans (setPeer_effects found ?_) (abortDrainWithout_effects peerId)
    exact ⟨rfl, rfl, rfl, id⟩
  · exact setPeer_effects found ⟨rfl, rfl, rfl, id⟩

theorem controlClosed_effects :
    Effects final self (self.handleLinkEvent pushBlocked peerId peer .controlClosed).finishIfResolved := by
  have closed : Effects final self (self.setPeer peerId { peer with controlClosed := true }) :=
    setPeer_effects found ⟨rfl, rfl, rfl, id⟩
  refine closed.trans (ReflTransGen.trans ?_ finishIfResolved_effects)
  rw [handleLinkEvent]
  split
  · exact onLinkFailure_effects ..
  · exact .refl

/-- An event of a known peer is a sequence of effects, except for the markers that are counted. -/
theorem handleLinkEvent_effects (event : LinkEvent) (uncounted : event ≠ .progressEndOfStream) :
    Effects final self (self.handleLinkEvent pushBlocked peerId peer event).finishIfResolved := by
  cases event with
  | progressEndOfStream => exact absurd rfl uncounted
  | progressChannelEnded failure => exact progressChannelEnded_effects found failure
  | dataChannelEnded failure => exact dataChannelEnded_effects found failure
  | cancelReceived => exact cancelReceived_effects found
  | controlClosed => exact controlClosed_effects found
  | controlUndecodable detail => exact onCorruption_effects peerId _
  | outboundFailed failure => exact (onLinkFailure_effects ..).trans finishIfResolved_effects
  | inboundDataLost detail => exact finishIfResolved_effects
  | ackReceived =>
    rw [handleLinkEvent]
    split
    · refine ReflTransGen.trans (setPeer_effects found ?_) finishIfResolved_effects
      exact ⟨rfl, rfl, rfl, id⟩
    · exact onCorruption_effects peerId _
  | connectionFailed error =>
    rw [handleLinkEvent]
    split
    · exact onCorruption_effects peerId _
    · exact (onLinkFailure_effects ..).trans finishIfResolved_effects

end

/-- A call of the machine: what it counts first, and the effects that follow. A running dataflow is torn down by the
last result or from outside. -/
inductive Stepped (self : LifecycleMachine) : LifecycleInput → LifecycleMachine → Prop where
  | result (success : Bool) {after : LifecycleMachine} (left : self.workersRemaining ≠ 0)
      (staffed : after.phase = .running → 1 < self.workersRemaining) (last : Bool)
      (ends : last = true → self.workersRemaining = 1) (chain : Effects last (self.countResult success) after) :
      Stepped self (.workerFinished success) after
  | goodbye {middle after : LifecycleMachine} (last : self.workersRemaining = 1)
      (opened : Effects true (self.countResult true) middle) (running : middle.phase = .running)
      (succeeded : self.allWorkersOk = true) (chain : Effects true middle.sayGoodbye after)
      (halted : after.phase ≠ .running) (complete : after.dataLoss = none) :
      Stepped self (.workerFinished true) after
  | marker {peerId : String} {peer : PeerState} {after : LifecycleMachine} (found : self.peers peerId = some peer)
      (chain : Effects false (self.countEndOfStream peerId peer) after) :
      Stepped self (.link peerId .progressEndOfStream) after
  | stop (failure : Bool) {after : LifecycleMachine} (running : self.phase = .running)
      (fresh : self.cancelBroadcast = false) (chain : Effects false (self.requestStop failure) after) :
      Stepped self (.dataflowCancelled failure) after
  | other (input : LifecycleInput) {after : LifecycleMachine}
      (idle : ∀ success, input = .workerFinished success → self.workersRemaining = 0)
      (unknown : ∀ id, input = .link id .progressEndOfStream → self.peers id = none) (ending : Bool)
      (ends : ending = true → input = .externalAbort ∨ input = .eventsClosed) (chain : Effects ending self after) :
      Stepped self input after

theorem Effects.allWorkersOk_eq {before after : LifecycleMachine} (chain : Effects final before after) :
    after.allWorkersOk = before.allWorkersOk := by
  induction chain with
  | refl => rfl
  | tail _ effect same => cases effect <;> exact same

theorem Effects.workersRemaining_eq {before after : LifecycleMachine} (chain : Effects final before after) :
    after.workersRemaining = before.workersRemaining := by
  induction chain with
  | refl => rfl
  | tail _ effect same => cases effect <;> exact same

theorem onWorkerFinished_stepped (success : Bool) (left : self.workersRemaining ≠ 0) :
    Stepped self (.workerFinished success) (self.onWorkerFinished success) := by
  have settled (last : Bool) : Effects last (self.countResult success) (self.countResult success).settleDeferred.1 :=
    settleDeferred_effects
  have remaining : (self.countResult success).settleDeferred.1.workersRemaining = self.workersRemaining - 1 :=
    (settled true).workersRemaining_eq
  have allOk : (self.countResult success).settleDeferred.1.allWorkersOk = (self.allWorkersOk && success) :=
    (settled true).allWorkersOk_eq
  have handledLeft (handled : (self.countResult success).settleDeferred.2 = true) : 0 < self.workersRemaining - 1 :=
    settleDeferred_left handled
  have goesOn (going : false = true) : self.workersRemaining = 1 := Bool.noConfusion going
  unfold onWorkerFinished
  rw [if_neg left]
  generalize (self.countResult success).settleDeferred = middle at settled remaining allOk handledLeft
  dsimp only
  split
  · rename_i handled
    have more := handledLeft handled
    exact .result success left (fun _ => by omega) false goesOn (settled false)
  split
  · rename_i waits
    refine .result success left (fun running => ?_) false goesOn (settled false)
    have more := waits.resolve_right (not_not.mpr running)
    omega
  · rename_i last
    have running : middle.1.phase = .running := not_not.mp (not_or.mp last).2
    obtain ⟨chain, halted⟩ | ⟨adopted, opened, open_, succeeded, chain, halted, complete⟩ := onLastWorker_effects running
    · exact .result success left (fun running => absurd running halted) true (fun _ => by omega)
        ((settled true).trans chain)
    · have both := (opened.allWorkersOk_eq.symm.trans succeeded).symm.trans allOk
      obtain ⟨earlier, now⟩ := Bool.and_eq_true_iff.mp both.symm
      subst now
      exact .goodbye (by omega) ((settled true).trans opened) open_ earlier chain halted complete

/-- The calls that count nothing and leave a running dataflow running. -/
theorem Stepped.quiet {input : LifecycleInput} {after : LifecycleMachine}
    (idle : ∀ success, input = .workerFinished success → self.workersRemaining = 0)
    (unknown : ∀ id, input = .link id .progressEndOfStream → self.peers id = none) (chain : Effects false self after) :
    Stepped self input after :=
  .other input idle unknown false nofun chain

theorem applyLinkEvent_stepped (peerId : String) (event : LinkEvent) :
    Stepped self (.link peerId event) (self.applyLinkEvent pushBlocked peerId event) := by
  have idle (success : Bool) (same : LifecycleInput.link peerId event = .workerFinished success) :
      self.workersRemaining = 0 := LifecycleInput.noConfusion same
  unfold applyLinkEvent
  split
  · refine .quiet idle (fun id same => ?_) (onInboundDataLost_effects ..)
    cases same
  · split
    · rename_i missing
      refine .quiet idle (fun id same => ?_) .refl
      cases same
      exact missing
    · rename_i peer found
      by_cases counted : event = .progressEndOfStream
      · subst counted
        exact .marker found countEndOfStream_effects
      · refine .quiet idle (fun id same => ?_) (handleLinkEvent_effects found event counted)
        cases same
        exact absurd rfl counted

/-- Every call of the machine is a step. -/
theorem step_stepped (pushBlocked : String → Bool) (input : LifecycleInput) :
    Stepped self input (self.step pushBlocked input) := by
  cases input with
  | link peerId event => exact applyLinkEvent_stepped peerId event
  | workerFinished success =>
    by_cases left : self.workersRemaining = 0
    · have same : self.onWorkerFinished success = self := if_pos left
      rw [step, same]
      exact .quiet (fun _ _ => left) nofun .refl
    · exact onWorkerFinished_stepped success left
  | dataflowCancelled failure =>
    by_cases allowed : self.phase = .running ∧ self.cancelBroadcast = false
    · exact .stop failure allowed.1 allowed.2 (onDataflowCancelled_effects failure allowed.1 allowed.2)
    · have same : self.onDataflowCancelled pushBlocked failure = self :=
        if_neg fun open_ => allowed ⟨open_.1, Bool.eq_false_iff.mpr open_.2⟩
      rw [step, same]
      exact .quiet nofun nofun
        .refl
  | externalAbort =>
    exact .other _ nofun nofun
      true (fun _ => .inl rfl) onExternalAbort_effects
  | eventsClosed =>
    exact .other _ nofun nofun
      true (fun _ => .inr rfl) onEventsClosed_effects
  | softFailureExpired peerId =>
    exact .quiet nofun nofun
      (onSoftFailureExpired_effects peerId)
  | inboundDataLost peer detail cancelled =>
    exact .quiet nofun nofun
      (onInboundDataLost_effects ..)
  | takeUnannouncedLoss =>
    exact .quiet nofun nofun
      takeUnannouncedLoss_effects

end LifecycleMachine

end Instancy
