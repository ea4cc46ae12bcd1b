import Instancy.Communication.LinkEvents
import Instancy.Runtime.CancellationReason

/-
This file models the state machine of `cluster_lifecycle.rs` that decides when a dataflow of a cluster says goodbye,
cancels its peers and is torn down. The actions that the functions of the source return are appended to a log.
-/

namespace Instancy

/-- Records of the dataflow that were lost. -/
structure DataLoss where
  peer : String
  detail : String
  deriving DecidableEq, Repr

def DataLoss.text (loss : DataLoss) : String :=
  let peer := loss.peer
  let detail := loss.detail
  s!"data lost on the link to peer {peer}: {detail}"

def outboundLossDetail (failure : LinkFailure) : String :=
  let text := failure.text
  s!"frames to the peer could not be sent ({text}) while the dataflow ran"

def isCorruptTransport (error : TransportError) (received : Bool) : Bool :=
  match error with
  | .checksumMismatch .. | .outOfSequence .. | .laneViolation _ => true
  | .payloadTooLarge .. => received
  | _ => false

def isInboundCorruption (failure : LinkFailure) (received : Bool) : Bool :=
  match failure with
  | .decode _ | .protocolViolation _ => true
  | .transport error => isCorruptTransport error received
  | _ => false

inductive Phase where
  | running
  | draining
  | finished
  deriving DecidableEq, Repr

inductive LifecycleAction where
  | sendAck (peer : String)
  | broadcastCancel
  | sendGoodbye
  | linkFailed (peer : String) (failure : LinkFailure)
  | armSoftFailureTimer (peer : String)
  | cancelDataflow (reason : CancellationReason)
  | abortDrain (reason : CancellationReason)
  | announceUnfinished
  | teardown (graceful : Bool)
  deriving DecidableEq, Repr

/-- The machine requests an action, or its owner takes a loss to announce it. -/
inductive LifecycleOutput where
  | action (action : LifecycleAction)
  | announced (loss : DataLoss)
  deriving DecidableEq, Repr

structure PeerState where
  expectedEndOfStream : Nat
  endOfStream : Nat := 0
  progressChannelsEnded : Nat := 0
  goodbyeReceived : Bool := false
  ackReceived : Bool := false
  controlClosed : Bool := false
  lost : Bool := false
  softFailure : Option LinkFailure := none
  uncleanDataChannel : Bool := false
  cancelReceived : Bool := false
  stopped : Bool := false
  linkRetired : Bool := false
  deriving DecidableEq, Repr

namespace PeerState

def retired (peer : PeerState) : Bool := peer.goodbyeReceived || peer.ackReceived

def unsent (peer : PeerState) : Bool := peer.softFailure = some .sendFailed

def resolved (peer : PeerState) : Bool := (peer.retired || peer.lost) && !peer.unsent

def fullyClosed (peer : PeerState) : Bool :=
  peer.controlClosed && peer.expectedEndOfStream ≤ peer.progressChannelsEnded

def stoppedAfterCancel (peer : PeerState) (hard : Bool) : Bool :=
  peer.cancelReceived && !peer.goodbyeReceived && (hard || peer.fullyClosed)

def counted (peer : PeerState) : PeerState :=
  { peer with endOfStream := peer.endOfStream + 1, progressChannelsEnded := peer.progressChannelsEnded + 1 }

/-- The next end-of-stream marker is the last of the expected ones. -/
def completes (peer : PeerState) : Bool :=
  peer.counted.endOfStream = peer.expectedEndOfStream && !peer.goodbyeReceived

/-- A link that is not retired is given up. -/
def giveUp (peer : PeerState) : PeerState := { peer with lost := peer.lost || !peer.retired }

end PeerState

/-- The machine with the log of what it requested. The peers are those of the list of ids. -/
structure LifecycleMachine where
  phase : Phase := .running
  workersRemaining : Nat
  allWorkersOk : Bool := true
  goodbyeSent : Bool := false
  cancelBroadcast : Bool := false
  requestedStop : Bool := false
  drainAborted : Bool := false
  dataLoss : Option DataLoss := none
  pendingLoss : Option DataLoss := none
  deferredLoss : Option DataLoss := none
  workersSucceeded : Nat := 0
  peerIds : List String
  peers : String → Option PeerState
  log : List LifecycleOutput := []

namespace LifecycleMachine

/-- The peers come with the number of end-of-stream markers that each of them will send. The last entry of an id
counts, and the ids are walked in their order. -/
def new (numLocalWorkers : Nat) (peers : List (String × Nat)) : LifecycleMachine where
  workersRemaining := numLocalWorkers
  peerIds := (peers.map Prod.fst).dedup.mergeSort fun first second => decide (first ≤ second)
  peers := fun id => (peers.reverse.lookup id).map fun expected => { expectedEndOfStream := expected }

variable (self : LifecycleMachine)

def emit (action : LifecycleAction) : LifecycleMachine :=
  { self with log := self.log ++ [.action action] }

def setPeer (peerId : String) (peer : PeerState) : LifecycleMachine :=
  { self with peers := Function.update self.peers peerId (some peer) }

def mapPeers (change : PeerState → PeerState) : LifecycleMachine :=
  { self with peers := fun id => (self.peers id).map change }

def allPeers (holds : PeerState → Bool) : Bool :=
  self.peerIds.all fun id => (self.peers id).all holds

def takeUnannouncedLoss : LifecycleMachine :=
  if self.cancelBroadcast then self
  else
    match self.dataLoss with
    | none => self
    | some loss => { self with cancelBroadcast := true, log := self.log ++ [.announced loss] }

def finishIfResolved : LifecycleMachine :=
  if self.phase = .draining ∧ self.allPeers PeerState.resolved then
    { self with phase := .finished }.emit (.teardown true)
  else self

def dataLossReason : CancellationReason :=
  .networkError ((self.dataLoss.map DataLoss.text).getD "")

def abandonAfterDataLoss : LifecycleMachine :=
  let self := self.emit (.cancelDataflow self.dataLossReason)
  let self :=
    if ¬self.cancelBroadcast then { self with cancelBroadcast := true }.emit .broadcastCancel
    else if self.requestedStop then self.emit .announceUnfinished
    else self
  self.mapPeers fun peer => { peer.giveUp with softFailure := none }

def abortDrain (reason : CancellationReason) : LifecycleMachine :=
  if self.phase ≠ .running ∨ ¬self.requestedStop ∨ self.drainAborted then self
  else { self with drainAborted := true }.emit (.abortDrain reason)

/-- Whether a push to a peer is blocked is read from the link. -/
def abortDrainWithout (pushBlocked : String → Bool) (peerId : String) : LifecycleMachine :=
  if (self.peers peerId).isSome ∧ pushBlocked peerId then
    self.abortDrain (.networkError
      s!"peer {peerId} stopped before finishing its part of the cancelled dataflow, which the drain needs")
  else self

/-- A loss is recorded: the dataflow is cancelled everywhere, or the peers are told after the local success. -/
def reportLoss : LifecycleMachine :=
  match self.phase with
  | .running =>
    { self.emit (.cancelDataflow self.dataLossReason) with cancelBroadcast := true }.emit .broadcastCancel
  | .draining => self.abandonAfterDataLoss.finishIfResolved
  | .finished => self

def onInboundDataLost (peer detail : String) (cancelled : Bool) : LifecycleMachine :=
  if ¬self.allWorkersOk ∨ self.dataLoss.isSome then self
  else
    let loss : DataLoss := ⟨peer, detail⟩
    if self.phase = .running ∧ (cancelled ∨ self.cancelBroadcast) then
      { self with pendingLoss := self.pendingLoss.or (some loss) }
    else if self.phase = .running ∧ self.workersSucceeded = 0 then
      -- The worker that is finishing now decides with its result.
      { self with deferredLoss := self.deferredLoss.or (some loss) }
    else { self with dataLoss := some loss }.reportLoss

def recordLoss (loss : DataLoss) : LifecycleMachine :=
  { self with dataLoss := self.dataLoss.or (some loss) }

def cancelPeers : LifecycleMachine :=
  if ¬self.cancelBroadcast then { self with cancelBroadcast := true }.emit .broadcastCancel else self

def failRunningWithDataLoss (loss : DataLoss) : LifecycleMachine :=
  let self := self.recordLoss loss
  (self.emit (.cancelDataflow self.dataLossReason)).cancelPeers

def missingCloseMarker (peerId : String) : LifecycleMachine :=
  if self.phase ≠ .running then self
  else
    let loss : DataLoss := ⟨peerId, "a data channel ended without its close marker although the peer finished"⟩
    if self.cancelBroadcast then
      { self with pendingLoss := self.pendingLoss.or (some loss) }.abortDrain (.networkError loss.text)
    else self.failRunningWithDataLoss loss

/-- Corrupt traffic is recorded as a loss: it is fatal in every phase. -/
def reportCorruption (peerId : String) (failure : LinkFailure) : LifecycleMachine :=
  match self.phase with
  | .running =>
    if self.cancelBroadcast then self.abortDrain self.dataLossReason
    else ({ self with cancelBroadcast := true }.emit (.linkFailed peerId failure)).emit .broadcastCancel
  | .draining => self.abandonAfterDataLoss
  | .finished => self

def giveUpPeer (peerId : String) : LifecycleMachine :=
  match self.peers peerId with
  | some peer => self.setPeer peerId { peer.giveUp with softFailure := none }
  | none => self

def onCorruption (peerId : String) (failure : LinkFailure) : LifecycleMachine :=
  let text := failure.text
  let loss : DataLoss := ⟨peerId, s!"corrupt traffic from the peer: {text}"⟩
  if self.phase = .finished then self.recordLoss loss
  else ((self.giveUpPeer peerId).recordLoss loss).reportCorruption peerId failure

/-- The rest of a link that failed softly may still close. -/
def deferSoftFailure (peer : PeerState) (peerId : String) (failure : LinkFailure) : LifecycleMachine :=
  if peer.softFailure.isSome then self
  else (self.setPeer peerId { peer with softFailure := some failure }).emit (.armSoftFailureTimer peerId)

/-- A link that is not resolved ended. -/
def failLink (pushBlocked : String → Bool) (peer : PeerState) (peerId : String)
    (failure : LinkFailure) (hard : Bool) : LifecycleMachine :=
  match self.phase with
  | .running =>
    if self.cancelBroadcast ∧ ¬self.requestedStop then self.setPeer peerId { peer with lost := true }
    else if ¬hard ∧ ¬peer.fullyClosed then self.deferSoftFailure peer peerId failure
    else if self.cancelBroadcast then
      (self.setPeer peerId { peer with lost := true, stopped := true }).abortDrainWithout pushBlocked peerId
    else
      (({ self with cancelBroadcast := true }.setPeer peerId { peer with lost := true }).emit
        (.linkFailed peerId failure)).emit .broadcastCancel
  | .draining =>
    if ¬hard ∧ ¬peer.fullyClosed then self.deferSoftFailure peer peerId failure
    else self.setPeer peerId { peer with lost := true }
  | .finished => self

/-- This is `on_link_failure` with what it calls for a send that failed while the workers ran. -/
def onLinkFailureWith (settle : LifecycleMachine → LifecycleMachine) (self : LifecycleMachine)
    (pushBlocked : String → Bool) (peerId : String) (failure : LinkFailure) (hard : Bool) : LifecycleMachine :=
  match self.peers peerId with
  | none => self
  | some peer =>
    if peer.resolved then
      if peer.stopped ∨ peer.stoppedAfterCancel hard then
        (self.setPeer peerId { peer with stopped := true }).abortDrainWithout pushBlocked peerId
      else self
    else if peer.unsent ∧ (hard ∨ peer.fullyClosed) then settle self
    else self.failLink pushBlocked peer peerId failure hard

/-- The soft failure is taken, so that the call of `on_link_failure` finds no unsent frame and does not come back. -/
def settleUnsent (pushBlocked : String → Bool) (peerId : String) (closedBy : Option LinkFailure) : LifecycleMachine :=
  match self.peers peerId with
  | none => self
  | some peer =>
    match peer.softFailure with
    | none => self
    | some unsent =>
      let peer := { peer with softFailure := none }
      let self := self.setPeer peerId peer
      if peer.retired then
        if closedBy.isSome then self else self.onInboundDataLost peerId (outboundLossDetail unsent) false
      else if self.phase = .running ∧ ¬peer.lost then
        onLinkFailureWith id self pushBlocked peerId (closedBy.getD unsent) true
      else
        (self.setPeer peerId { peer with lost := true }).onInboundDataLost peerId (outboundLossDetail unsent) false

def onLinkFailure (pushBlocked : String → Bool) (peerId : String) (failure : LinkFailure)
    (hard : Bool) : LifecycleMachine :=
  onLinkFailureWith (fun self => self.settleUnsent pushBlocked peerId (some failure)) self pushBlocked peerId failure
    hard

def onSoftFailureExpired (pushBlocked : String → Bool) (peerId : String) : LifecycleMachine :=
  match self.peers peerId with
  | none => self
  | some peer =>
    if peer.unsent then (self.settleUnsent pushBlocked peerId none).finishIfResolved
    else
      match peer.softFailure with
      | none => self
      | some failure =>
        ((self.setPeer peerId { peer with softFailure := none }).onLinkFailure pushBlocked peerId failure
          true).finishIfResolved

/-- A loss that a worker reported while it finished counts only if the worker succeeded. The flag says that the result
is dealt with. -/
def settleDeferred : LifecycleMachine × Bool :=
  match self.deferredLoss with
  | none => (self, false)
  | some loss =>
    let self := { self with deferredLoss := none }
    if self.allWorkersOk ∧ self.dataLoss = none ∧ self.phase = .running then
      if self.cancelBroadcast then ({ self with pendingLoss := self.pendingLoss.or (some loss) }, false)
      else
        let self := { self with dataLoss := some loss }
        if self.workersRemaining > 0 then
          (({ self with cancelBroadcast := true }.emit (.cancelDataflow self.dataLossReason)).emit .broadcastCancel,
            true)
        else (self, false)
    else (self, false)

/-- The last worker is done: a loss that was noted during a cancellation counts if all workers succeeded. -/
def adoptPending : LifecycleMachine :=
  let pending := self.pendingLoss
  let self := { self with pendingLoss := none }
  if self.allWorkersOk ∧ self.dataLoss = none then { self with dataLoss := pending } else self

def sayGoodbye : LifecycleMachine :=
  { self with phase := .draining, goodbyeSent := true }.emit .sendGoodbye

/-- The last worker reported its result. -/
def onLastWorker : LifecycleMachine :=
  let self := self.adoptPending
  if self.allWorkersOk ∧ self.dataLoss = none then
    let self := self.sayGoodbye
    let self := if self.cancelBroadcast then self.mapPeers PeerState.giveUp else self
    self.finishIfResolved
  else
    let self :=
      if self.allWorkersOk then self.abandonAfterDataLoss
      else if ¬self.cancelBroadcast then
        ({ self with cancelBroadcast := true }.emit .broadcastCancel).emit .announceUnfinished
      else if self.requestedStop then self.emit .announceUnfinished
      else self
    { self with phase := .finished }.emit (.teardown false)

def countResult (success : Bool) : LifecycleMachine :=
  { self with
    workersRemaining := self.workersRemaining - 1
    allWorkersOk := self.allWorkersOk && success
    workersSucceeded := if success then self.workersSucceeded + 1 else self.workersSucceeded }

def onWorkerFinished (success : Bool) : LifecycleMachine :=
  if self.workersRemaining = 0 then self
  else
    let (self, handled) := (self.countResult success).settleDeferred
    if handled then self
    else if self.workersRemaining > 0 ∨ self.phase ≠ .running then self
    else self.onLastWorker

def requestStop (failure : Bool) : LifecycleMachine :=
  { self with cancelBroadcast := true, requestedStop := !failure }.emit .broadcastCancel

def onDataflowCancelled (pushBlocked : String → Bool) (failure : Bool) : LifecycleMachine :=
  if self.phase = .running ∧ ¬self.cancelBroadcast then
    let self := self.requestStop failure
    let stopped := self.peerIds.filter fun id => (self.peers id).any PeerState.stopped
    stopped.foldl (fun self peer => self.abortDrainWithout pushBlocked peer) self
  else self

def onExternalAbort : LifecycleMachine :=
  match self.phase with
  | .finished => self
  | .draining => { self.mapPeers PeerState.giveUp with phase := .finished }.emit (.teardown true)
  | .running =>
    { self with phase := .finished }.cancelPeers.emit (.teardown false)

def onEventsClosed : LifecycleMachine :=
  if self.phase = .finished then self
  else
    let graceful := decide (self.phase = .draining)
    { self.mapPeers PeerState.giveUp with phase := .finished }.emit (.teardown graceful)

/-- The next end-of-stream marker of a peer is counted, and the last one is acknowledged. -/
def countEndOfStream (peerId : String) (peer : PeerState) : LifecycleMachine :=
  if peer.completes then
    let self := self.setPeer peerId { peer.counted with goodbyeReceived := true, linkRetired := true }
    if self.phase ≠ .finished then self.emit (.sendAck peerId) else self
  else self.setPeer peerId peer.counted

/-- A frame after the end-of-stream comes from a channel that is counted already. -/
def countChannelEnd (peerId : String) (peer : PeerState) : LinkFailure → LifecycleMachine
  | .protocolViolation _ => self
  | _ => self.setPeer peerId { peer with progressChannelsEnded := peer.progressChannelsEnded + 1 }

/-- What an event other than lost data does to the link of a known peer. -/
def handleLinkEvent (pushBlocked : String → Bool) (peerId : String) (peer : PeerState) : LinkEvent → LifecycleMachine
  | .progressEndOfStream =>
    let self := self.countEndOfStream peerId peer
    if peer.completes ∧ peer.uncleanDataChannel then self.missingCloseMarker peerId else self
  | .ackReceived =>
    if self.goodbyeSent then self.setPeer peerId { peer with ackReceived := true, linkRetired := true }
    else self.onCorruption peerId (.protocolViolation "acknowledgement before our end-of-stream")
  | .cancelReceived =>
    let peer := { peer.giveUp with softFailure := none }
    if peer.cancelReceived ∧ ¬peer.goodbyeReceived then
      (self.setPeer peerId { peer with stopped := true }).abortDrainWithout pushBlocked peerId
    else self.setPeer peerId { peer with cancelReceived := true }
  | .controlClosed =>
    let peer := { peer with controlClosed := true }
    let self := self.setPeer peerId peer
    if peer.fullyClosed ∧ (¬peer.resolved ∨ peer.stoppedAfterCancel false) then
      self.onLinkFailure pushBlocked peerId .channelClosed true
    else self
  | .controlUndecodable detail => self.onCorruption peerId (.decode s!"control message: {detail}")
  | .progressChannelEnded failure =>
    let self := self.countChannelEnd peerId peer failure
    if isInboundCorruption failure true then self.onCorruption peerId failure
    else self.onLinkFailure pushBlocked peerId failure (failure ≠ .channelClosed)
  | .dataChannelEnded failure =>
    if isInboundCorruption failure true then self.onCorruption peerId failure
    else
      let self := self.setPeer peerId { peer with uncleanDataChannel := true }
      if peer.goodbyeReceived then self.missingCloseMarker peerId
      else self.onLinkFailure pushBlocked peerId failure false
  | .connectionFailed error =>
    if isInboundCorruption (.transport error) true then self.onCorruption peerId (.transport error)
    else self.onLinkFailure pushBlocked peerId (.transport error) false
  | .outboundFailed failure =>
    let hard := !(self.phase = .running && failure = .sendFailed)
    self.onLinkFailure pushBlocked peerId failure hard
  | .inboundDataLost _ => self

def applyLinkEvent (pushBlocked : String → Bool) (peerId : String) (event : LinkEvent) : LifecycleMachine :=
  match event with
  | .inboundDataLost detail => self.onInboundDataLost peerId detail false
  | event =>
    match self.peers peerId with
    | none => self
    | some peer => (self.handleLinkEvent pushBlocked peerId peer event).finishIfResolved

end LifecycleMachine

/-- The calls of the coordinator. -/
inductive LifecycleInput where
  | workerFinished (success : Bool)
  | link (peerId : String) (event : LinkEvent)
  | dataflowCancelled (failure : Bool)
  | externalAbort
  | eventsClosed
  | softFailureExpired (peerId : String)
  | inboundDataLost (peer detail : String) (cancelled : Bool)
  | takeUnannouncedLoss

namespace LifecycleMachine

variable (self : LifecycleMachine)

def step (pushBlocked : String → Bool) : LifecycleInput → LifecycleMachine
  | .workerFinished success => self.onWorkerFinished success
  | .link peerId event => self.applyLinkEvent pushBlocked peerId event
  | .dataflowCancelled failure => self.onDataflowCancelled pushBlocked failure
  | .externalAbort => self.onExternalAbort
  | .eventsClosed => self.onEventsClosed
  | .softFailureExpired peerId => self.onSoftFailureExpired pushBlocked peerId
  | .inboundDataLost peer detail cancelled => self.onInboundDataLost peer detail cancelled
  | .takeUnannouncedLoss => self.takeUnannouncedLoss

/-- Every call comes with what it reads of the links. -/
def run (inputs : List ((String → Bool) × LifecycleInput)) : LifecycleMachine :=
  inputs.foldl (fun self input => self.step input.1 input.2) self

end LifecycleMachine

end Instancy
