import Instancy.Runtime.LifecycleDiscipline

namespace Instancy

open Relation

/-- A transport received a corrupt frame. -/
inductive CorruptTransport : TransportError → Prop where
  | checksum (expected actual : Nat) : CorruptTransport (.checksumMismatch expected actual)
  | sequence (expected received : UInt64) : CorruptTransport (.outOfSequence expected received)
  | lane (detail : String) : CorruptTransport (.laneViolation detail)
  | tooLarge (size max : Nat) : CorruptTransport (.payloadTooLarge size max)

/-- A channel ended with corrupt traffic. -/
inductive CorruptFailure : LinkFailure → Prop where
  | undecodable (detail : String) : CorruptFailure (.decode detail)
  | violation (detail : String) : CorruptFailure (.protocolViolation detail)
  | transport {error : TransportError} (corrupt : CorruptTransport error) : CorruptFailure (.transport error)

inductive CorruptEvent : LinkEvent → Prop where
  | data {failure : LinkFailure} (corrupt : CorruptFailure failure) : CorruptEvent (.dataChannelEnded failure)
  | progress {failure : LinkFailure} (corrupt : CorruptFailure failure) : CorruptEvent (.progressChannelEnded failure)
  | control (detail : String) : CorruptEvent (.controlUndecodable detail)
  | connection {error : TransportError} (corrupt : CorruptTransport error) : CorruptEvent (.connectionFailed error)

theorem CorruptFailure.inbound {failure : LinkFailure} (corrupt : CorruptFailure failure) :
    isInboundCorruption failure true = true := by
  cases corrupt with
  | transport corrupt => cases corrupt <;> rfl
  | _ => rfl

namespace LifecycleMachine

section Effects

variable {final : Bool} {before after : LifecycleMachine}

theorem Effect.noted (effect : Effect final before after) (running : before.phase = .running)
    (succeeded : before.allWorkersOk = true) (noted : before.Noted) : after.Noted := by
  cases effect with
  | keep _ _ _ kept => exact kept running succeeded noted
  | lose => exact .inl rfl
  | _ => exact noted

/-- Only a final call ends a running dataflow. -/
theorem Effects.goes_on (chain : Effects false before after) (running : before.phase = .running) :
    after.phase = .running := by
  induction chain with
  | refl => exact running
  | tail _ effect earlier =>
    cases effect with
    | conclude _ _ _ due | concludeUnfinished _ _ _ due =>
      obtain final | draining := due
      · cases final
      · cases earlier.symm.trans draining
    | _ => exact earlier

theorem Effects.noted (chain : Effects false before after) (running : before.phase = .running)
    (succeeded : before.allWorkersOk = true) (noted : before.Noted) : after.Noted := by
  induction chain with
  | refl => exact noted
  | tail earlier effect held =>
    exact effect.noted (Effects.goes_on earlier running) ((Effects.allWorkersOk_eq earlier).trans succeeded) held

theorem Effects.recorded (chain : Effects true before after) (lost : before.dataLoss.isSome) :
    after.dataLoss.isSome := by
  obtain ⟨loss, found⟩ := Option.isSome_iff_exists.mp lost
  exact Option.isSome_iff_exists.mpr ⟨loss, chain.dataLoss_some found⟩

end Effects

section Losses

variable {self : LifecycleMachine} {peerId : String} {peer : PeerState} {pushBlocked : String → Bool}

theorem recordLoss_recorded (loss : DataLoss) : (self.recordLoss loss).dataLoss.isSome :=
  isSome_or_some self.dataLoss loss

/-- Lost data is noted while the workers run, and recorded at once afterwards. -/
theorem onInboundDataLost_noted (peer detail : String) (cancelled : Bool) (succeeded : self.allWorkersOk = true) :
    (self.onInboundDataLost peer detail cancelled).Noted ∧
      (self.phase ≠ .running → (self.onInboundDataLost peer detail cancelled).dataLoss.isSome) := by
  unfold onInboundDataLost
  split
  · rename_i earlier
    have recorded := earlier.resolve_left (not_not.mpr succeeded)
    exact ⟨.inl recorded, fun _ => recorded⟩
  split
  · rename_i cancelling
    exact ⟨.inr (.inl (isSome_or_some ..)), fun halted => absurd cancelling.1 halted⟩
  rename_i quiet
  split
  · rename_i early
    exact ⟨.inr (.inr (isSome_or_some ..)), fun halted => absurd early.1 halted⟩
  · have reported : Effects true { self with dataLoss := some ⟨peer, detail⟩ }
        { self with dataLoss := some ⟨peer, detail⟩ }.reportLoss :=
      reportLoss_effects fun running => Bool.eq_false_iff.mpr fun told => quiet ⟨running, .inr told⟩
    have recorded := reported.recorded rfl
    exact ⟨.inl recorded, fun _ => recorded⟩

theorem onCorruption_recorded (peerId : String) (failure : LinkFailure) :
    (self.onCorruption peerId failure).finishIfResolved.dataLoss.isSome := by
  unfold onCorruption
  split
  · rw [finishIfResolved_dataLoss]
    exact recordLoss_recorded _
  · exact Effects.recorded (reportCorruption_effects peerId failure) (recordLoss_recorded _)

/-- A missing close marker is noted while the workers run. -/
theorem missingCloseMarker_noted (peerId : String) (running : self.phase = .running)
    (succeeded : self.allWorkersOk = true) : (self.missingCloseMarker peerId).finishIfResolved.Noted := by
  unfold missingCloseMarker
  rw [if_neg (not_not.mpr running)]
  split
  · refine Effects.noted ((abortDrain_effects _).trans finishIfResolved_effects) running succeeded ?_
    exact .inr (.inl (isSome_or_some ..))
  · refine .inl ?_
    rw [finishIfResolved_dataLoss]
    exact Effects.recorded (failRunningWithDataLoss_effects _ (alive_of_running running)) (recordLoss_recorded _)

theorem applyLinkEvent_known (found : self.peers peerId = some peer) (event : LinkEvent)
    (handled : ∀ detail, event ≠ .inboundDataLost detail) :
    self.applyLinkEvent pushBlocked peerId event =
      (self.handleLinkEvent pushBlocked peerId peer event).finishIfResolved := by
  unfold applyLinkEvent
  split
  · exact absurd rfl (handled _)
  · rw [found]

/-- Corrupt traffic from a known peer is recorded in every phase. -/
theorem applyLinkEvent_corrupt (pushBlocked : String → Bool) {event : LinkEvent} (found : self.peers peerId = some peer)
    (corrupt : CorruptEvent event) : (self.applyLinkEvent pushBlocked peerId event).dataLoss.isSome := by
  cases corrupt with
  | data corrupt | progress corrupt =>
    rw [applyLinkEvent_known found _ (by simp), handleLinkEvent, if_pos corrupt.inbound]
    exact onCorruption_recorded ..
  | control detail =>
    rw [applyLinkEvent_known found _ (by simp)]
    exact onCorruption_recorded ..
  | connection corrupt =>
    rw [applyLinkEvent_known found _ (by simp), handleLinkEvent, if_pos (CorruptFailure.transport corrupt).inbound]
    exact onCorruption_recorded ..

/-- An acknowledgement before the goodbye is recorded in every phase. -/
theorem applyLinkEvent_earlyAck (pushBlocked : String → Bool) (found : self.peers peerId = some peer)
    (unsaid : self.goodbyeSent = false) :
    (self.applyLinkEvent pushBlocked peerId .ackReceived).dataLoss.isSome := by
  rw [applyLinkEvent_known found _ (by simp), handleLinkEvent, if_neg (Bool.eq_false_iff.mp unsaid)]
  exact onCorruption_recorded ..

/-- The last marker of a peer notes that a data channel ended without its close marker. -/
theorem applyLinkEvent_completes (found : self.peers peerId = some peer) (running : self.phase = .running)
    (succeeded : self.allWorkersOk = true) (completes : peer.completes = true)
    (unclean : peer.uncleanDataChannel = true) :
    (self.applyLinkEvent pushBlocked peerId .progressEndOfStream).Noted := by
  rw [applyLinkEvent_known found _ fun _ same => LinkEvent.noConfusion same, handleLinkEvent,
    if_pos ⟨completes, unclean⟩]
  obtain ⟨log, same⟩ := countEndOfStream_eq self peerId peer
  rw [same]
  exact missingCloseMarker_noted peerId running succeeded

/-- A data channel of the peer ended without its close marker. -/
def Unclean (self : LifecycleMachine) (peerId : String) : Prop :=
  (self.peers peerId).any PeerState.uncleanDataChannel = true

theorem Unclean.kept {first second : Option PeerState} (kept : Option.Rel PeerState.Kept first second)
    (unclean : first.any PeerState.uncleanDataChannel = true) :
    second.any PeerState.uncleanDataChannel = true := by
  cases kept with
  | none => exact unclean
  | some kept => exact kept.unclean unclean

/-- The end of a data channel is remembered, and noted if the peer has said goodbye. -/
theorem applyLinkEvent_unclean (pushBlocked : String → Bool) (failure : LinkFailure)
    (found : self.peers peerId = some peer)
    (running : self.phase = .running) (succeeded : self.allWorkersOk = true) :
    let after := self.applyLinkEvent pushBlocked peerId (.dataChannelEnded failure)
    after.Noted ∨ ¬peer.goodbyeReceived = true ∧ after.Unclean peerId := by
  rw [applyLinkEvent_known found _ (by simp), handleLinkEvent]
  split
  · exact .inl (.inl (onCorruption_recorded ..))
  split
  · exact .inl (missingCloseMarker_noted peerId running succeeded)
  · rename_i unsaid
    have chain : Effects false (self.setPeer peerId { peer with uncleanDataChannel := true })
        ((self.setPeer peerId { peer with uncleanDataChannel := true }).onLinkFailure pushBlocked peerId failure
          false).finishIfResolved :=
      (onLinkFailure_effects ..).trans finishIfResolved_effects
    refine .inr ⟨unsaid, Unclean.kept (chain.kept peerId) ?_⟩
    show (Function.update self.peers peerId _ peerId).any _ = true
    rw [Function.update_self]
    rfl

theorem settleDeferred_noted (running : self.phase = .running) (succeeded : self.allWorkersOk = true)
    (noted : self.Noted) :
    self.settleDeferred.1.dataLoss.isSome ∨ self.settleDeferred.1.pendingLoss.isSome := by
  unfold settleDeferred
  cases waiting : self.deferredLoss with
  | none =>
    unfold Noted at noted
    rw [waiting] at noted
    exact noted.imp id fun later => later.resolve_right Bool.false_ne_true
  | some loss =>
    dsimp only
    split
    · split
      · exact .inr (isSome_or_some ..)
      · split
        · exact .inl rfl
        · exact .inl rfl
    · rename_i useless
      exact .inl (Option.isSome_iff_ne_none.mpr fun clean => useless ⟨succeeded, clean, running⟩)

theorem adoptPending_recorded (succeeded : self.allWorkersOk = true)
    (noted : self.dataLoss.isSome ∨ self.pendingLoss.isSome) : self.adoptPending.dataLoss.isSome := by
  unfold adoptPending
  dsimp only
  split
  · rename_i clean
    rw [clean.2] at noted
    exact noted.resolve_left Bool.false_ne_true
  · rename_i useless
    exact Option.isSome_iff_ne_none.mpr fun clean => useless ⟨succeeded, clean⟩

theorem abandon_dataLoss : self.abandonAfterDataLoss.dataLoss = self.dataLoss := by
  unfold abandonAfterDataLoss
  dsimp only
  split
  · rfl
  · split <;> rfl

theorem onLastWorker_dataLoss : self.onLastWorker.dataLoss = self.adoptPending.dataLoss := by
  unfold onLastWorker
  generalize self.adoptPending = middle
  dsimp only
  split
  · rw [finishIfResolved_dataLoss]
    split <;> rfl
  · split
    · exact abandon_dataLoss
    · split_ifs <;> rfl

/-- The last result records what was noted. -/
theorem onWorkerFinished_recorded (running : self.phase = .running) (succeeded : self.allWorkersOk = true)
    (last : self.workersRemaining = 1) (noted : self.Noted) : (self.onWorkerFinished true).dataLoss.isSome := by
  have settled : Effects true (self.countResult true) (self.countResult true).settleDeferred.1 :=
    settleDeferred_effects
  have idle : (self.countResult true).workersRemaining = 0 := Nat.sub_eq_zero_of_le last.le
  have succeeded : (self.countResult true).allWorkersOk = true := Bool.and_eq_true_iff.mpr ⟨succeeded, rfl⟩
  have waiting : (self.countResult true).settleDeferred.1.dataLoss.isSome ∨
      (self.countResult true).settleDeferred.1.pendingLoss.isSome := settleDeferred_noted running succeeded noted
  unfold onWorkerFinished
  rw [if_neg (by omega)]
  dsimp only
  rw [if_neg fun handled => absurd (settleDeferred_left handled) (by omega), if_neg, onLastWorker_dataLoss]
  · exact adoptPending_recorded (settled.allWorkersOk_eq.trans succeeded) waiting
  · rw [settled.workersRemaining_eq, settleDeferred_phase, idle]
    exact fun waits => waits.elim (Nat.lt_irrefl 0) fun halted => halted running

end Losses

section Calls

variable {self after : LifecycleMachine} {input : LifecycleInput}

section

variable (stepped : Stepped self input after)
  (more : ∀ success, input = .workerFinished success → 1 < self.workersRemaining)
  (open_ : input ≠ .externalAbort ∧ input ≠ .eventsClosed)
include stepped more open_

/-- A call before the last result that does not abort the dataflow has no final effect. -/
theorem Stepped.chain : ∃ start : LifecycleMachine, Effects false start after ∧ start.phase = self.phase ∧
    (self.Noted → start.Noted) := by
  cases stepped with
  | result success left staffed last ends chain =>
    cases last with
    | false => exact ⟨_, chain, rfl, id⟩
    | true => exact absurd (ends rfl) (more success rfl).ne'
  | goodbye last => exact absurd last (more true rfl).ne'
  | marker found chain =>
    obtain ⟨log, chain⟩ := chain.marked
    exact ⟨_, chain, rfl, id⟩
  | stop failure _ fresh chain => exact ⟨_, chain, rfl, id⟩
  | other _ idle unknown ending ends chain =>
    cases ending with
    | false => exact ⟨_, chain, rfl, id⟩
    | true => exact (ends rfl).elim (fun abort => absurd abort open_.1) fun closed => absurd closed open_.2

theorem Stepped.goes_on (running : self.phase = .running) : after.phase = .running := by
  obtain ⟨start, chain, same, _⟩ := stepped.chain more open_
  exact chain.goes_on (same.trans running)

theorem Stepped.noted (running : self.phase = .running) (succeeded : after.allWorkersOk = true)
    (noted : self.Noted) : after.Noted := by
  obtain ⟨start, chain, same, kept⟩ := stepped.chain more open_
  exact chain.noted (same.trans running) (chain.allWorkersOk_eq.symm.trans succeeded) (kept noted)

end

theorem nextLink_unclean (peer : PeerState) : (nextLink peer).uncleanDataChannel = peer.uncleanDataChannel := by
  unfold nextLink
  split <;> rfl

theorem Stepped.unclean {peerId : String} (stepped : Stepped self input after) (unclean : self.Unclean peerId) :
    after.Unclean peerId := by
  cases stepped with
  | result success left staffed last ends chain => exact Unclean.kept (chain.kept peerId) unclean
  | goodbye last opened running succeeded chain =>
    exact Unclean.kept (kept_trans (opened.kept peerId) (chain.kept peerId)) unclean
  | @marker here peer _ found chain =>
    obtain ⟨log, chain⟩ := chain.marked
    refine Unclean.kept (chain.kept peerId) ?_
    unfold Unclean at unclean
    dsimp only
    by_cases equal : peerId = here
    · subst equal
      rw [found] at unclean
      rw [Function.update_self]
      exact (nextLink_unclean peer).trans unclean
    · rw [Function.update_of_ne equal]
      exact unclean
  | stop failure running fresh chain => exact Unclean.kept (chain.kept peerId) unclean
  | other _ idle unknown ending ends chain => exact Unclean.kept (chain.kept peerId) unclean

end Calls

end LifecycleMachine

/-- The calls before the last result of all workers, which succeeded so far, while nothing aborts the dataflow. -/
structure LifecycleCalls.Undisturbed (workers : Nat) (calls : LifecycleCalls) : Prop where
  unfinished : calls.workerResults.length < workers
  succeeded : ∀ result ∈ calls.workerResults, result = true
  unaborted : ∀ call ∈ calls, call.2 ≠ .externalAbort ∧ call.2 ≠ .eventsClosed

namespace LifecycleCalls

theorem workerResults_append (calls more : LifecycleCalls) :
    workerResults (calls ++ more) = calls.workerResults ++ more.workerResults :=
  List.filterMap_append

theorem Undisturbed.front {workers : Nat} {calls more : LifecycleCalls}
    (undisturbed : Undisturbed workers (calls ++ more)) : calls.Undisturbed workers where
  unfinished := by
    have short := undisturbed.unfinished
    rw [workerResults_append, List.length_append] at short
    omega
  succeeded result reported :=
    undisturbed.succeeded result (workerResults_append calls more ▸ List.mem_append_left _ reported)
  unaborted call made := undisturbed.unaborted call (List.mem_append_left _ made)

end LifecycleCalls

variable {front : LifecycleCalls}

namespace LifecycleMachine

variable {pushBlocked : String → Bool} {peerId : String}

section Runs

variable {workers : Nat} {peers : List (String × Nat)}

open LifecycleCalls

variable {calls more : LifecycleCalls}

/-- The number of workers that are still missing before a call of an undisturbed run. -/
theorem Undisturbed.missing {input : LifecycleInput}
    (undisturbed : LifecycleCalls.Undisturbed workers (calls ++ [(pushBlocked, input)])) (success : Bool)
    (reports : input = .workerFinished success) : 1 < ((new workers peers).run calls).workersRemaining := by
  subst reports
  have short := undisturbed.unfinished
  rw [workerResults_snoc, List.length_append] at short
  change _ + 1 < _ at short
  rw [(reached_run workers peers calls).remaining]
  omega

theorem undisturbed_running (undisturbed : calls.Undisturbed workers) :
    ((new workers peers).run calls).phase = .running := by
  induction calls using List.reverseRecOn with
  | nil => rfl
  | append_singleton calls call running =>
    obtain ⟨pushBlocked, input⟩ := call
    have open_ := undisturbed.unaborted (pushBlocked, input) (List.mem_append_right _ (List.mem_singleton.mpr rfl))
    rw [run_snoc]
    exact (step_stepped pushBlocked input).goes_on (Undisturbed.missing undisturbed) open_ (running undisturbed.front)

theorem undisturbed_succeeded (undisturbed : calls.Undisturbed workers) :
    ((new workers peers).run calls).allWorkersOk = true := by
  rw [(reached_run workers peers calls).succeeded]
  exact List.all_eq_true.mpr fun result reported => undisturbed.succeeded result (List.mem_of_mem_take reported)

/-- A loss that is noted stays noted while the run is undisturbed. -/
theorem undisturbed_noted (undisturbed : LifecycleCalls.Undisturbed workers (calls ++ more))
    (noted : ((new workers peers).run calls).Noted) : ((new workers peers).run (calls ++ more)).Noted := by
  induction more using List.reverseRecOn with
  | nil =>
    rw [List.append_nil]
    exact noted
  | append_singleton more call held =>
    obtain ⟨pushBlocked, input⟩ := call
    rw [← List.append_assoc] at undisturbed ⊢
    have open_ := undisturbed.unaborted (pushBlocked, input) (List.mem_append_right _ (List.mem_singleton.mpr rfl))
    have succeeded : ((new workers peers).run _).allWorkersOk = true := undisturbed_succeeded undisturbed
    rw [run_snoc] at succeeded ⊢
    exact (step_stepped pushBlocked input).noted (Undisturbed.missing undisturbed) open_
      (undisturbed_running undisturbed.front) succeeded (held undisturbed.front)

variable {expected : Nat}

theorem reached_known (workers : Nat) (calls : LifecycleCalls) (known : peers.reverse.lookup peerId = some expected) :
    ∃ peer, ((new workers peers).run calls).peers peerId = some peer ∧
      peer.Tallied expected (calls.markersOf peerId) := by
  have tallied := (reached_run workers peers calls).tallied peerId
  rw [known] at tallied
  generalize ((new workers peers).run calls).peers peerId = found at tallied
  cases tallied with
  | some tallied => exact ⟨_, rfl, tallied⟩

/-- A peer whose data channel has ended says goodbye only with a note of the loss. -/
theorem undisturbed_unclean (undisturbed : LifecycleCalls.Undisturbed workers (calls ++ more))
    (known : peers.reverse.lookup peerId = some expected)
    (unclean : ((new workers peers).run calls).Unclean peerId) (incomplete : calls.markersOf peerId < expected) :
    ((new workers peers).run (calls ++ more)).Noted ∨
      ((new workers peers).run (calls ++ more)).Unclean peerId ∧
        LifecycleCalls.markersOf (calls ++ more) peerId < expected := by
  induction more using List.reverseRecOn with
  | nil =>
    rw [List.append_nil]
    exact .inr ⟨unclean, incomplete⟩
  | append_singleton more call held =>
    rw [← List.append_assoc] at undisturbed ⊢
    obtain noted | ⟨unclean, incomplete⟩ := held undisturbed.front
    · exact .inl (undisturbed_noted undisturbed noted)
    obtain ⟨pushBlocked, input⟩ := call
    rw [run_snoc, markersOf_snoc]
    have still : (((new workers peers).run (calls ++ more)).step pushBlocked input).Unclean peerId :=
      (step_stepped pushBlocked input).unclean unclean
    cases counts : input.isMarkerOf peerId with
    | false => exact .inr ⟨still, incomplete⟩
    | true =>
      by_cases last : markersOf (calls ++ more) peerId + 1 = expected
      · -- This is the marker that completes the goodbye.
        have marker : input = .link peerId .progressEndOfStream := isMarkerOf_eq counts
        obtain ⟨peer, found, tallied⟩ := reached_known workers (calls ++ more) known
        have unreceived : ¬peer.goodbyeReceived = true := fun received => by
          have complete := tallied.complete.mp received
          omega
        have completes : peer.completes = true := by
          unfold PeerState.completes PeerState.counted
          rw [tallied.counted, tallied.expects, decide_eq_true last, Bool.eq_false_iff.mpr unreceived]
          rfl
        unfold Unclean at unclean
        rw [found] at unclean
        subst marker
        exact .inl (applyLinkEvent_completes found (undisturbed_running undisturbed.front)
          (undisturbed_succeeded undisturbed.front) completes unclean)
      · refine .inr ⟨still, ?_⟩
        change _ + 1 < _
        omega

theorem undisturbed_unclosed {failure : LinkFailure} (undisturbed : front.Undisturbed workers)
    (ended : (pushBlocked, .link peerId (.dataChannelEnded failure)) ∈ front)
    (known : peers.reverse.lookup peerId = some expected) (positive : 0 < expected)
    (complete : expected ≤ front.markersOf peerId) : ((new workers peers).run front).Noted := by
  obtain ⟨calls, more, rfl⟩ := List.append_of_mem ended
  rw [List.append_cons] at undisturbed complete ⊢
  obtain ⟨peer, found, tallied⟩ := reached_known workers calls known
  have running : ((new workers peers).run calls).phase = .running := undisturbed_running undisturbed.front.front
  have succeeded : ((new workers peers).run calls).allWorkersOk = true :=
    undisturbed_succeeded undisturbed.front.front
  obtain noted | ⟨unreceived, unclean⟩ :=
    applyLinkEvent_unclean pushBlocked failure found running succeeded
  · refine undisturbed_noted undisturbed ?_
    rw [run_snoc]
    exact noted
  · have incomplete : markersOf (calls ++ [(pushBlocked, .link peerId (.dataChannelEnded failure))]) peerId <
        expected := by
      rw [markersOf_snoc]
      by_contra reached
      exact unreceived (tallied.complete.mpr ⟨positive, Nat.not_lt.mp reached⟩)
    have unclean : ((new workers peers).run
        (calls ++ [(pushBlocked, .link peerId (.dataChannelEnded failure))])).Unclean peerId := by
      rw [run_snoc]
      exact unclean
    obtain noted | ⟨_, short⟩ := undisturbed_unclean undisturbed known unclean incomplete
    · exact noted
    · exact absurd complete (Nat.not_le.mpr short)

/-- The inputs that lose data, after some calls: data that a channel lost, corrupt traffic from a known peer, and an
acknowledgement from a known peer before the goodbye. -/
inductive LossEvent (workers : Nat) (peers : List (String × Nat)) (earlier : LifecycleCalls) :
    LifecycleInput → Prop where
  | reported (peerId detail : String) : LossEvent workers peers earlier (.link peerId (.inboundDataLost detail))
  | called (peer detail : String) (cancelled : Bool) :
      LossEvent workers peers earlier (.inboundDataLost peer detail cancelled)
  | corrupt {peerId : String} {event : LinkEvent} (known : (peers.reverse.lookup peerId).isSome)
      (corrupt : CorruptEvent event) : LossEvent workers peers earlier (.link peerId event)
  | earlyAck {peerId : String} (known : (peers.reverse.lookup peerId).isSome)
      (unsaid : .action .sendGoodbye ∉ ((new workers peers).run earlier).log) :
      LossEvent workers peers earlier (.link peerId .ackReceived)

/-- Only a goodbye in the log sets the flag. -/
theorem run_unsaid (unsaid : .action .sendGoodbye ∉ ((new workers peers).run calls).log) :
    ((new workers peers).run calls).goodbyeSent = false := by
  have counted := (reached_run workers peers calls).disciplined.goodbyes
  have none : ((new workers peers).run calls).count .goodbye = 0 := by
    refine List.countP_eq_zero.mpr fun output logged => ?_
    cases output with
    | action action => cases action <;> simp_all [LifecycleOutput.kind]
    | announced loss => simp [LifecycleOutput.kind]
  rw [none] at counted
  exact Bool.toNat_eq_zero.mp counted.symm

theorem step_lossEvent {input : LifecycleInput} (pushBlocked : String → Bool)
    (event : LossEvent workers peers calls input) (succeeded : ((new workers peers).run calls).allWorkersOk = true) :
    (((new workers peers).run calls).step pushBlocked input).Noted ∧
      (((new workers peers).run calls).phase ≠ .running →
        (((new workers peers).run calls).step pushBlocked input).dataLoss.isSome) := by
  cases event with
  | reported peerId detail => exact onInboundDataLost_noted peerId detail false succeeded
  | called peer detail cancelled => exact onInboundDataLost_noted peer detail cancelled succeeded
  | corrupt known corrupt =>
    obtain ⟨expected, known⟩ := Option.isSome_iff_exists.mp known
    obtain ⟨peer, found, _⟩ := reached_known workers calls known
    have recorded := applyLinkEvent_corrupt pushBlocked found corrupt
    exact ⟨.inl recorded, fun _ => recorded⟩
  | earlyAck known unsaid =>
    obtain ⟨expected, known⟩ := Option.isSome_iff_exists.mp known
    obtain ⟨peer, found, _⟩ := reached_known workers calls known
    have recorded := applyLinkEvent_earlyAck pushBlocked found (run_unsaid unsaid)
    exact ⟨.inl recorded, fun _ => recorded⟩

theorem run_append (self : LifecycleMachine) (calls more : LifecycleCalls) :
    self.run (calls ++ more) = (self.run calls).run more :=
  List.foldl_append

theorem run_recorded (more : LifecycleCalls) (recorded : ((new workers peers).run calls).dataLoss.isSome) :
    ((new workers peers).run (calls ++ more)).dataLoss.isSome := by
  obtain ⟨loss, found⟩ := Option.isSome_iff_exists.mp recorded
  rw [run_append]
  exact Option.isSome_iff_exists.mpr ⟨loss, run_dataLoss_some more found⟩

/-- The last result of all workers, after calls that noted a loss, records it. -/
theorem last_recorded {count : Nat} (pushBlocked : String → Bool)
    (undisturbed : front.Undisturbed (count + 1)) (last : front.workerResults.length = count)
    (noted : ((new (count + 1) peers).run front).Noted) :
    ((new (count + 1) peers).run (front ++ [(pushBlocked, .workerFinished true)])).dataLoss.isSome := by
  rw [run_snoc]
  refine onWorkerFinished_recorded (undisturbed_running undisturbed) (undisturbed_succeeded undisturbed) ?_ noted
  rw [(reached_run (count + 1) peers front).remaining, last]
  exact Nat.add_sub_cancel_left ..

/-- All workers have reported their success. -/
theorem finished_succeeded {count : Nat} (peers : List (String × Nat)) (more : LifecycleCalls) (pushBlocked : String → Bool)
    (succeeded : front.workerResults = List.replicate count true) :
    let machine := (new (count + 1) peers).run (front ++ (pushBlocked, .workerFinished true) :: more)
    machine.phase ≠ .running ∧ machine.allWorkersOk = true := by
  have reached := reached_run (count + 1) peers (front ++ (pushBlocked, .workerFinished true) :: more)
  have results : workerResults (front ++ (pushBlocked, .workerFinished true) :: more) =
      List.replicate (count + 1) true ++ more.workerResults := by
    rw [List.append_cons, workerResults_append, workerResults_snoc, succeeded, List.replicate_succ']
    rfl
  have idle := reached.remaining
  have allOk := reached.succeeded
  rw [results, List.length_append, List.length_replicate] at idle
  rw [results, List.take_append_of_le_length (List.length_replicate ▸ le_rfl), List.take_replicate] at allOk
  refine ⟨fun running => ?_, allOk.trans ?_⟩
  · obtain none | left := reached.staffed running
    · exact absurd none (Nat.succ_ne_zero count)
    · omega
  · simp

/-- What is lost in some calls, of which the first are those before the last result: a loss event at any point, or a
data channel of a known peer that ended without its close marker although the peer completed its goodbye while the
workers ran. -/
inductive Lossy (workers : Nat) (peers : List (String × Nat)) (front rest : LifecycleCalls) : Prop where
  | event (earlier later : LifecycleCalls) (pushBlocked : String → Bool) (input : LifecycleInput)
      (applied : front ++ rest = earlier ++ (pushBlocked, input) :: later)
      (loss : LossEvent workers peers earlier input)
  | unclosed (pushBlocked : String → Bool) (peerId : String) (failure : LinkFailure) (expected : Nat)
      (ended : (pushBlocked, .link peerId (.dataChannelEnded failure)) ∈ front)
      (known : peers.reverse.lookup peerId = some expected) (positive : 0 < expected)
      (complete : expected ≤ front.markersOf peerId)

theorem not_lossEvent_result {success : Bool} :
    ¬LossEvent workers peers calls (.workerFinished success) := by
  intro event
  cases event

/-- A loss at any point of the calls is noted before the last result or recorded after it. -/
theorem Lossy.noted {count : Nat} {rest : LifecycleCalls}
    (undisturbed : front.Undisturbed (count + 1)) (succeeded : front.workerResults = List.replicate count true)
    (lossy : Lossy (count + 1) peers front ((pushBlocked, .workerFinished true) :: rest)) :
    ((new (count + 1) peers).run front).Noted ∨
      ((new (count + 1) peers).run (front ++ (pushBlocked, .workerFinished true) :: rest)).dataLoss.isSome := by
  cases lossy with
  | unclosed _ peerId failure expected ended known positive complete =>
    exact .inl (undisturbed_unclosed undisturbed ended known positive complete)
  | event earlier later blocked input applied loss =>
    obtain ⟨between, before, after⟩ | ⟨between, after, before⟩ := List.append_eq_append_iff.mp applied
    · -- The event comes with the last result or later.
      cases between with
      | nil =>
        cases after
        exact absurd loss not_lossEvent_result
      | cons call between =>
        cases after
        subst before
        obtain ⟨halted, allOk⟩ := finished_succeeded peers between pushBlocked succeeded
        have recorded := (step_lossEvent blocked loss allOk).2 halted
        rw [← run_snoc] at recorded
        refine .inr ?_
        rw [applied, List.append_cons]
        exact run_recorded later recorded
    · cases between with
      | nil =>
        cases before
        exact absurd loss not_lossEvent_result
      | cons call between =>
        cases before
        subst after
        refine .inl ?_
        rw [List.append_cons] at undisturbed ⊢
        refine undisturbed_noted undisturbed ?_
        rw [run_snoc]
        exact (step_lossEvent blocked loss (undisturbed_succeeded undisturbed.front.front)).1

end Runs

/-- If all local workers succeed, the dataflow is not aborted before the last result and anything is lost, then the loss
is recorded once both have happened, and in every later state. -/
theorem run_loss_recorded (count : Nat) (peers : List (String × Nat)) (front rest : LifecycleCalls)
    (pushBlocked : String → Bool) (succeeded : front.workerResults = List.replicate count true)
    (unaborted : ∀ call ∈ front, call.2 ≠ .externalAbort ∧ call.2 ≠ .eventsClosed)
    (lossy : Lossy (count + 1) peers front ((pushBlocked, .workerFinished true) :: rest)) :
    ∃ loss, ∀ more : LifecycleCalls,
      ((new (count + 1) peers).run ((front ++ (pushBlocked, .workerFinished true) :: rest) ++ more)).dataLoss =
        some loss := by
  have undisturbed : front.Undisturbed (count + 1) :=
    { unfinished := by
        rw [succeeded, List.length_replicate]
        exact Nat.lt_succ_self count
      succeeded := fun result reported => List.eq_of_mem_replicate (succeeded ▸ reported)
      unaborted }
  have recorded : ((new (count + 1) peers).run (front ++ (pushBlocked, .workerFinished true) :: rest)).dataLoss.isSome := by
    obtain noted | recorded := lossy.noted undisturbed succeeded
    · rw [List.append_cons]
      refine run_recorded rest (last_recorded pushBlocked undisturbed ?_ noted)
      rw [succeeded, List.length_replicate]
    · exact recorded
  obtain ⟨loss, found⟩ := Option.isSome_iff_exists.mp recorded
  refine ⟨loss, fun more => ?_⟩
  rw [run_append]
  exact run_dataLoss_some more found

/-- Two workers, of which the first has succeeded when a data channel loses data. -/
theorem run_loss_recorded_two :
    ∃ loss, ∀ more : LifecycleCalls,
      ((new 2 [("b", 1)]).run
        (([(fun _ => false, .workerFinished true), (fun _ => false, .link "b" (.inboundDataLost "gone"))] ++
          [(fun _ => false, .workerFinished true)]) ++ more)).dataLoss = some loss := by
  refine run_loss_recorded 1 [("b", 1)] _ [] (fun _ => false) rfl (fun call made => ?_)
    (.event [(fun _ => false, .workerFinished true)] [(fun _ => false, .workerFinished true)] (fun _ => false) _ rfl
      (.reported "b" "gone"))
  simp only [List.mem_cons, List.not_mem_nil, or_false] at made
  obtain rfl | rfl := made <;> exact ⟨nofun,
    nofun⟩

end LifecycleMachine

end Instancy
