import Mathlib.Data.List.Basic

/-
This file models the link to one peer: the pushes of `network.rs`, the link state and the forwarder of `peer_link.rs`
and the link events of `cluster_lifecycle.rs`. Each of them takes one atomic step at a time, in any interleaving.
-/

namespace Instancy

/-- A frame to the peer. The frames of a push have its number and the number of the call that sends them. -/
inductive LinkFrame where
  | record (push call : Nat)
  | signal (push call : Nat)
  | sentinel (push : Nat)
  | progress (number : Nat)
  | ack
  deriving DecidableEq, Repr

/-- The answer of the bounded transport queue to `try_send`. -/
inductive SendResult where
  | ok
  | full
  | closed
  deriving DecidableEq, Repr

/-- Where a push is in `send_frame`. It has the admission lock from `admitted` to `releasing`. -/
inductive PushPlace where
  | idle
  | entered (isData : Bool)
  | waiting
  | admitted
  | checked
  | releasing (sent : SendResult)
  | sending
  | sent (isData : Bool) (sent : SendResult)
  deriving DecidableEq, Repr

/-- What a push returned. -/
inductive SendOutcome where
  | ok
  | backpressure
  | dataLoss (detail : String)
  | channelClosed
  | notEncoded
  deriving DecidableEq, Repr

/-- A call of a push: an envelope that can be encoded or not, or the close. -/
inductive PushCall where
  | envelope (isData encodes : Bool)
  | close

/-- One push with an outbox. A call is late if `retire` had returned when it started, and it has a frame if its push was
open then and its envelope could be encoded; both are kept for statements. -/
structure OutPush where
  channelId : Nat
  closed : Bool
  linkFailureReported : Bool
  calls : Nat
  late : Bool
  hasFrame : Bool
  place : PushPlace

/-- The return of a call, kept for statements. -/
structure PushReturn where
  push : Nat
  call : Nat
  isData : Bool
  late : Bool
  hasFrame : Bool
  outcome : SendOutcome

/-- Where the coordinator is: it retires the link under the admission lock and then queues an acknowledgement or not. -/
inductive CoordinatorPlace where
  | idle
  | retiring (sendAck : Bool)
  | admitted (sendAck : Bool)
  | stored (sendAck : Bool)
  | acking
  deriving DecidableEq, Repr

/-- The events that retire the link, with the state of the coordinator that they depend on. -/
inductive RetireEvent where
  | progressEndOfStream (finished : Bool)
  | ackReceived (goodbyeSent : Bool)

/-- The link to one peer. The frames of the transport queue stay in the list after the transport has taken them. The
returns and whether `retire` has returned are kept for statements. -/
structure PeerLink where
  retired : Bool
  readers : List Nat
  writer : Bool
  pushBlocked : Bool
  outboundFailed : Nat
  pushes : Nat → OutPush
  lane : List LinkFrame
  hand : Option LinkFrame
  stopped : Bool
  transport : List LinkFrame
  coordinator : CoordinatorPlace
  endOfStream : Nat
  expectedEndOfStream : Nat
  goodbyeReceived : Bool
  retireReturned : Bool
  returns : List PushReturn

namespace PeerLink

/-- A fresh link with its pushes. -/
def new (channelIds : Nat → Nat) (expectedEndOfStream : Nat) : PeerLink where
  retired := false
  readers := []
  writer := false
  pushBlocked := false
  outboundFailed := 0
  pushes push := ⟨channelIds push, false, false, 0, false, false, .idle⟩
  lane := []
  hand := none
  stopped := false
  transport := []
  coordinator := .idle
  endOfStream := 0
  expectedEndOfStream := expectedEndOfStream
  goodbyeReceived := false
  retireReturned := false
  returns := []

variable (link : PeerLink) (push : Nat)

def setPush (next : OutPush) : PeerLink :=
  { link with pushes := Function.update link.pushes push next }

/-- A push goes to another place. -/
def moveTo (place : PushPlace) : PeerLink :=
  link.setPush push { link.pushes push with place := place }

/-- The call of a push ends. -/
def returnWith (isData late hasFrame : Bool) (outcome : SendOutcome) : PeerLink :=
  { link.setPush push { link.pushes push with place := .idle, calls := (link.pushes push).calls + 1 } with
    returns := link.returns ++ [⟨push, (link.pushes push).calls, isData, late, hasFrame, outcome⟩] }

/-- The outbox queues a frame on the lane; a lane without a forwarder drops it. -/
def queue (frame : LinkFrame) : PeerLink :=
  if link.stopped then link else { link with lane := link.lane ++ [frame] }

def enqueue (frame : LinkFrame) : PeerLink := { link with transport := link.transport ++ [frame] }

/-- The transport queue takes a frame, or is full or closed. -/
def trySend (frame : LinkFrame) (answer : SendResult) : PeerLink :=
  match answer with
  | .ok => link.enqueue frame
  | .full | .closed => link

/-- A push starts a call. A second call waits for the first one. -/
def start (call : PushCall) : PeerLink :=
  match (link.pushes push).place with
  | .idle =>
    match call with
    | .envelope isData encodes =>
      let hasFrame := !(link.pushes push).closed && encodes
      if (link.pushes push).closed then link.returnWith push isData link.retireReturned hasFrame .channelClosed
      else if !encodes then link.returnWith push isData link.retireReturned hasFrame .notEncoded
      else link.setPush push { link.pushes push with late := link.retireReturned, hasFrame, place := .entered isData }
    | .close =>
      if (link.pushes push).closed then link
      else (link.setPush push { link.pushes push with closed := true }).queue (.sentinel push)
  | _ => link

/-- The text of the error for records that can no longer reach the peer. -/
def dataLost : SendOutcome :=
  let channelId := (link.pushes push).channelId
  .dataLoss s!"channel {channelId}: records sent after the peer finished"

/-- A closed queue of a link that is not retired is reported once by the push, which waits as for a full queue. -/
def blockPush : PeerLink :=
  { link.setPush push { link.pushes push with linkFailureReported := true } with
    pushBlocked := true
    outboundFailed := if (link.pushes push).linkFailureReported then link.outboundFailed else link.outboundFailed + 1 }

/-- The last match of `send_frame`. -/
def finish (isData : Bool) (sent : SendResult) : PeerLink :=
  let late := (link.pushes push).late
  let hasFrame := (link.pushes push).hasFrame
  match sent with
  | .ok => link.returnWith push isData late hasFrame .ok
  | .full => link.returnWith push isData late hasFrame .backpressure
  | .closed =>
    if link.retired then link.returnWith push isData late hasFrame (if isData then link.dataLost push else .ok)
    else (link.blockPush push).returnWith push isData late hasFrame .backpressure

/-- The next step of `send_frame`. A frame with records is checked and enqueued under the admission lock. -/
def advance (answer : SendResult) : PeerLink :=
  match (link.pushes push).place with
  | .idle => link
  | .entered isData =>
    if isData then link.moveTo push .waiting
    else if link.retired then link.returnWith push false (link.pushes push).late (link.pushes push).hasFrame .ok
    else link.moveTo push .sending
  | .waiting => if link.writer then link else { link with readers := push :: link.readers }.moveTo push .admitted
  | .admitted => link.moveTo push (if link.retired then .releasing .closed else .checked)
  | .checked =>
    (link.trySend (.record push (link.pushes push).calls) answer).moveTo push (.releasing answer)
  | .releasing sent => { link with readers := link.readers.erase push }.moveTo push (.sent true sent)
  | .sending =>
    (link.trySend (.signal push (link.pushes push).calls) answer).moveTo push (.sent false answer)
  | .sent isData sent => link.finish push isData sent

/-- The coordinator begins with an event. The goodbye of the peer is complete once every progress channel has ended. -/
def handle (event : RetireEvent) : PeerLink :=
  match link.coordinator with
  | .idle =>
    match event with
    | .progressEndOfStream finished =>
      if link.endOfStream + 1 = link.expectedEndOfStream ∧ !link.goodbyeReceived then
        { link with
          endOfStream := link.endOfStream + 1, goodbyeReceived := true, coordinator := .retiring (!finished) }
      else { link with endOfStream := link.endOfStream + 1 }
    | .ackReceived goodbyeSent =>
      if goodbyeSent then { link with coordinator := .retiring false } else link
  | _ => link

/-- The next step of the coordinator: it takes the lock, marks the link, releases the lock and acknowledges. -/
def coordinate : PeerLink :=
  match link.coordinator with
  | .idle => link
  | .retiring sendAck =>
    if link.readers = [] ∧ !link.writer then { link with writer := true, coordinator := .admitted sendAck } else link
  | .admitted sendAck => { link with retired := true, coordinator := .stored sendAck }
  | .stored sendAck =>
    { link with
      writer := false, retireReturned := true, coordinator := if sendAck then .acking else .idle }
  | .acking => { link with coordinator := .idle }.queue .ack

/-- The next step of the forwarder: it takes the first frame of the lane, or hands its frame to the transport. A frame
that the transport rejects ends it. -/
def forward (accepts : Bool) : PeerLink :=
  if link.stopped then link
  else
    match link.hand with
    | none =>
      match link.lane with
      | [] => link
      | frame :: rest => { link with hand := some frame, lane := rest }
    | some frame =>
      if accepts then { link with hand := none }.enqueue frame
      else { link with
        hand := none, lane := [], stopped := true
        outboundFailed := if link.retired then link.outboundFailed else link.outboundFailed + 1 }

/-- One step of some task. Workers queue their progress frames on the lane too. -/
inductive Move where
  | start (push : Nat) (call : PushCall)
  | advance (push : Nat) (answer : SendResult)
  | handle (event : RetireEvent)
  | coordinate
  | forward (accepts : Bool)
  | progress (number : Nat)

def step : Move → PeerLink
  | .start push call => link.start push call
  | .advance push answer => link.advance push answer
  | .handle event => link.handle event
  | .coordinate => link.coordinate
  | .forward accepts => link.forward accepts
  | .progress number => link.queue (.progress number)

def run (moves : List Move) : PeerLink := moves.foldl step link

end PeerLink

end Instancy
