import Instancy.Communication.Transport

/-
This file models the state that the dataflows of one peer share in `shared_transport.rs`: the pooled connections, the
registrations with their lanes, and the critical sections of the tasks that change it. What a registration sent and
received is kept as a ghost.
-/

namespace Instancy

open Library

def controlChannelId : UInt64 := 0

def probeChannelId : UInt64 := UInt64.ofNat (2 ^ 64 - 1)

/-- The size of the sequence number in front of every payload. -/
def sequencePrefix : Nat := 8

inductive PeerIoEvent where
  | closed
  | readFailed (error : TransportError)
  | writeFailed (error : TransportError)
  | frameRejected (error : TransportError)
  deriving DecidableEq, Repr

/-- A connection event for one dataflow. The end of the inbound side closes the channels that it has. -/
inductive Report where
  | event (event : PeerIoEvent)
  | inboundEnded (event : PeerIoEvent) (senders : Option (List UInt64))
  deriving DecidableEq, Repr

structure PooledConnection where
  pinned : Nat := 0
  peerClosed : Bool := false
  deriving DecidableEq, Repr

/-- The state of one registration. The fields after `inboundFailed` are ghosts: what it numbered and handed to its
connection, what it accepted from the peer, and what was reported to it. -/
structure DataflowRegistration where
  token : UInt64
  conn : Nat
  nextSendSeq : Nat := 0
  nextRecvSeq : Nat := 0
  inboundConn : Option Nat := none
  channelSenders : Option (List UInt64)
  outboundFailed : Bool := false
  inboundFailed : Bool := false
  numbered : List (UInt64 × List UInt8) := []
  emitted : List Frame := []
  accepted : List (UInt64 × List UInt8) := []
  controls : List (List UInt8) := []
  reports : List Report := []
  deriving DecidableEq

/-- The control frames of a dataflow that is not registered yet, each with its connection. -/
structure PendingFrames where
  frames : List (Nat × List UInt8)
  since : Nat
  deriving DecidableEq

structure PendingControl where
  byDataflow : List (DataflowId × PendingFrames) := []
  order : List DataflowId := []
  deriving DecidableEq

def maxPendingDataflows : Nat := 16384

def maxPendingFramesPerDataflow : Nat := 64

/-- This is in seconds. -/
def pendingControlTtl : Nat := 120

def maxCompletedDataflows : Nat := 16384

namespace PendingControl

def take (self : PendingControl) (dataflowId : DataflowId) : PendingControl :=
  { self with byDataflow := self.byDataflow.filter fun entry => entry.1 ≠ dataflowId }

def expireFrom (now : Nat) : List DataflowId → PendingControl → PendingControl
  | [], self => { self with order := [] }
  | front :: rest, self =>
    match self.byDataflow.lookup front with
    | none => expireFrom now rest self
    | some pending =>
      if now - pending.since ≥ pendingControlTtl then expireFrom now rest (self.take front)
      else { self with order := front :: rest }

def expire (now : Nat) (self : PendingControl) : PendingControl := expireFrom now self.order self

/-- The oldest dataflows make room for another one. -/
def evictFrom : List DataflowId → PendingControl → PendingControl
  | [], self => { self with order := [] }
  | oldest :: rest, self =>
    if self.byDataflow.length ≥ maxPendingDataflows then evictFrom rest (self.take oldest)
    else { self with order := oldest :: rest }

def push (now : Nat) (dataflowId : DataflowId) (conn : Nat) (payload : List UInt8) (self : PendingControl) :
    PendingControl :=
  let self := self.expire now
  match self.byDataflow.lookup dataflowId with
  | some pending =>
    if pending.frames.length < maxPendingFramesPerDataflow then
      let longer := { pending with frames := pending.frames ++ [(conn, payload)] }
      { self with byDataflow := self.byDataflow.map fun entry =>
          if entry.1 = dataflowId then (entry.1, longer) else entry }
    else self
  | none =>
    let self := evictFrom self.order self
    let byDataflow := (dataflowId, ⟨[(conn, payload)], now⟩) :: self.byDataflow
    let order := self.order ++ [dataflowId]
    if order.length > 2 * maxPendingDataflows then
      ⟨byDataflow, order.filter fun id => (byDataflow.lookup id).isSome⟩
    else ⟨byDataflow, order⟩

def forgetConnection (conn : Nat) (self : PendingControl) : PendingControl :=
  let kept := self.byDataflow.map fun entry =>
    (entry.1, { entry.2 with frames := entry.2.frames.filter fun frame => frame.1 ≠ conn })
  { self with byDataflow := kept.filter fun entry => !entry.2.frames.isEmpty }

end PendingControl

/-- The most recently unregistered dataflows, the oldest one first. -/
structure RecentIds where
  order : List DataflowId := []
  deriving DecidableEq

namespace RecentIds

def contains (self : RecentIds) (id : DataflowId) : Bool := self.order.contains id

def insert (self : RecentIds) (id : DataflowId) : RecentIds :=
  if self.contains id then self
  else
    let order := self.order ++ [id]
    ⟨order.drop (order.length - maxCompletedDataflows)⟩

end RecentIds

/-- How the read side of a connection ended. -/
inductive InboundEnd where
  | closed
  | failed (error : TransportError) (owner : Option DataflowId)

/-- The peer closed the connection at the end of a frame. -/
def InboundEnd.clean : InboundEnd → Bool
  | .closed => true
  | .failed .. => false

/-- The event for a dataflow whose frames arrive on the connection. A corrupt frame is corruption for its own dataflow
only. -/
def InboundEnd.eventFor (dataflowId : DataflowId) : InboundEnd → PeerIoEvent
  | .closed => .closed
  | .failed error owner =>
    let corrupt : Bool := match error with | .checksumMismatch .. | .payloadTooLarge .. => true | _ => false
    if corrupt ∧ owner ≠ some dataflowId then
      let text := error.text
      .readFailed (.io ⟨.connectionAborted, s!"the pooled connection failed on a corrupt frame: {text}"⟩)
    else .readFailed error

namespace DataflowRegistration

def report (reg : DataflowRegistration) (report : Report) : DataflowRegistration :=
  { reg with reports := reg.reports ++ [report] }

/-- The frame gets the next number of the lane. The addition panics if the number does not fit. -/
def number (reg : DataflowRegistration) (dataflowId : DataflowId) (frame : Frame) : DataflowRegistration :=
  if reg.nextSendSeq + 1 < 2 ^ 64 then
    { reg with
      nextSendSeq := reg.nextSendSeq + 1
      numbered := reg.numbered ++ [(frame.channelId, frame.payload)]
      emitted := reg.emitted ++ [⟨dataflowId, frame.channelId, leBytes 8 reg.nextSendSeq ++ frame.payload⟩] }
  else reg

/-- Frames to the peer can no longer be sent, and this is reported. -/
def endOutbound (reg : DataflowRegistration) (error : TransportError) : DataflowRegistration :=
  { reg with outboundFailed := true }.report (.event (.writeFailed error))

/-- Frames from the peer can no longer arrive, and the report takes the channels. -/
def endInbound (reg : DataflowRegistration) (event : PeerIoEvent) : DataflowRegistration :=
  { reg with inboundFailed := true, channelSenders := none }.report (.inboundEnded event reg.channelSenders)

/-- A payload frame must arrive on the connection of the lane with the next number, for a registered channel. -/
def checkLane (laneConn connId : Nat) (frame : Frame) (reg : DataflowRegistration) :
    Except TransportError (Option (UInt64 × List UInt8)) × DataflowRegistration :=
  if laneConn ≠ connId then
    let detail := s!"frames arrived on two connections ({laneConn} and {connId}): their order is lost"
    (.error (.laneViolation detail), reg)
  else
    match readLe sequencePrefix frame.payload 0 with
    | .error _ => (.error (.laneViolation "a payload frame without a sequence number"), reg)
    | .ok seq =>
      if seq ≠ reg.nextRecvSeq then
        (.error (.outOfSequence (UInt64.ofNat reg.nextRecvSeq) (UInt64.ofNat seq)), reg)
      else
        let reg := { reg with nextRecvSeq := reg.nextRecvSeq + 1 }
        match reg.channelSenders with
        | none => (.ok none, reg)
        | some senders =>
          if frame.channelId ∈ senders then
            (.ok (some (frame.channelId, frame.payload.drop sequencePrefix)), reg)
          else
            let channel := frame.channelId.toNat
            (.error (.laneViolation s!"a frame for unregistered channel {channel}"), reg)

/-- What `on_frame` does to the registration of the frame. -/
def onFrame (connId : Nat) (frame : Frame) (reg : DataflowRegistration) : DataflowRegistration :=
  if reg.inboundFailed then reg
  else
    let firstConn := reg.inboundConn.getD connId
    let reg := { reg with inboundConn := some firstConn }
    if frame.channelId = controlChannelId then
      -- Control frames are outside the numbering of the lane.
      match reg.channelSenders with
      | some senders =>
        if controlChannelId ∈ senders then { reg with controls := reg.controls ++ [frame.payload] } else reg
      | none => reg
    else
      match checkLane firstConn connId frame reg with
      | (.ok none, reg) => reg
      | (.ok (some delivery), reg) => { reg with accepted := reg.accepted ++ [delivery] }
      | (.error violation, reg) => reg.endInbound (.readFailed violation)

/-- What `fail_outbound` does to one registration. -/
def failOutbound (connId : Nat) (error : TransportError) (reg : DataflowRegistration) : DataflowRegistration :=
  if reg.conn = connId ∧ ¬reg.outboundFailed then reg.endOutbound error else reg

/-- What `fail_inbound` does to one registration. -/
def failInbound (connId : Nat) (ended : InboundEnd) (dataflowId : DataflowId) (reg : DataflowRegistration) :
    DataflowRegistration :=
  let hit : Bool := reg.inboundConn = some connId ∧ ¬reg.inboundFailed
  let reg := if hit then reg.endInbound (ended.eventFor dataflowId) else reg
  if hit ∧ ended.clean then reg
  else if reg.conn ≠ connId ∨ reg.outboundFailed then reg
  else if ended.clean then reg.report (.event .closed)
  else reg.endOutbound .connectionClosed

end DataflowRegistration

/-- A registration was refused. -/
structure RegisterError where
  error : TransportError
  idUnavailable : Bool
  deriving DecidableEq

/-- The state of a manager. The registrations of a dataflow that ended and the control frames with their connections
are kept as a ghost. -/
structure SharedState where
  peerNodeId : String
  connections : List (Nat × PooledConnection) := []
  nextConnId : Nat := 0
  registered : DataflowId → Option DataflowRegistration := fun _ => none
  claims : DataflowId → Option UInt64 := fun _ => none
  pendingControl : PendingControl := {}
  completed : RecentIds := {}
  past : DataflowId → List DataflowRegistration := fun _ => []
  controlSent : List (Nat × Frame) := []

/-- A dataflow as it is printed: the first eight digits of its identifier. -/
def DataflowId.text (dataflowId : DataflowId) : String :=
  let digits := (dataflowId.val.take 4).flatMap fun byte => List.leftpad 2 '0' (Nat.toDigits 16 byte.toNat)
  "df-" ++ String.ofList digits

namespace SharedState

def setRegistration (state : SharedState) (dataflowId : DataflowId) (reg : DataflowRegistration) : SharedState :=
  { state with registered := Function.update state.registered dataflowId (some reg) }

def removeConnection (state : SharedState) (connId : Nat) : SharedState :=
  { state with connections := state.connections.filter fun entry => entry.1 ≠ connId }

def setConnection (state : SharedState) (connId : Nat) (conn : PooledConnection) : SharedState :=
  { state with connections := state.connections.map fun entry => if entry.1 = connId then (connId, conn) else entry }

def addConnection (state : SharedState) : SharedState :=
  { state with
    connections := state.connections ++ [(state.nextConnId, {})]
    nextConnId := state.nextConnId + 1 }

/-- A frame on a reserved channel or over the size limit is rejected before it gets a number. -/
def rejected (frame : Frame) : Option TransportError :=
  if frame.channelId = controlChannelId ∨ frame.channelId = probeChannelId then
    some (.reservedChannel frame.channelId)
  else if frame.payload.length > maxMessageSize - sequencePrefix then
    some (.payloadTooLarge (frame.payload.length + sequencePrefix) maxMessageSize)
  else none

def sendPayload (dataflowId : DataflowId) (token : UInt64) (frame : Frame) (state : SharedState) : SharedState :=
  match state.registered dataflowId with
  | none => state
  | some reg =>
    if reg.token ≠ token then state
    else
      match rejected frame with
      | some error => state.setRegistration dataflowId (reg.report (.event (.frameRejected error)))
      | none =>
        if reg.outboundFailed then state
        else
          match state.connections.lookup reg.conn with
          | none => state.setRegistration dataflowId (reg.endOutbound .connectionClosed)
          | some _ => state.setRegistration dataflowId (reg.number dataflowId frame)

/-- The connection for a control frame: the one of its lane, or any one if its dataflow is not registered. -/
def controlConn (frame : Frame) (state : SharedState) : Option Nat :=
  match state.registered frame.dataflowId with
  | some reg => if reg.outboundFailed then none else (state.connections.lookup reg.conn).map fun _ => reg.conn
  | none => (state.connections.find? fun entry => !entry.2.peerClosed).map Prod.fst

/-- A control frame without a connection is dropped. -/
def sendControl (frame : Frame) (state : SharedState) : SharedState :=
  { state with controlSent := state.controlSent ++ (state.controlConn frame).toList.map fun connId => (connId, frame) }

/-- Probes only feed metrics. A control frame may come before its dataflow registers. -/
def onFrame (now connId : Nat) (frame : Frame) (state : SharedState) : SharedState :=
  if frame.channelId = probeChannelId then state
  else
    match state.registered frame.dataflowId with
    | none =>
      if frame.channelId = controlChannelId ∧ ¬state.completed.contains frame.dataflowId then
        { state with pendingControl := state.pendingControl.push now frame.dataflowId connId frame.payload }
      else state
    | some reg => state.setRegistration frame.dataflowId (reg.onFrame connId frame)

def failOutbound (connId : Nat) (error : TransportError) (state : SharedState) : SharedState :=
  let state := state.removeConnection connId
  { state with registered := fun id => (state.registered id).map (DataflowRegistration.failOutbound connId error) }

def failInbound (connId : Nat) (ended : InboundEnd) (state : SharedState) : SharedState :=
  let pooled :=
    match state.connections.lookup connId with
    | some conn =>
      if ended.clean ∧ conn.pinned > 0 then state.setConnection connId { conn with peerClosed := true }
      else state.removeConnection connId
    | none => state.removeConnection connId
  { pooled with
    pendingControl := pooled.pendingControl.forgetConnection connId
    registered := fun id => (pooled.registered id).map (DataflowRegistration.failInbound connId ended id) }

/-- The last lane of a connection that the peer closed closes the connection. -/
def unpin (connId : Nat) (state : SharedState) : SharedState :=
  match state.connections.lookup connId with
  | none => state
  | some conn =>
    let conn := { conn with pinned := conn.pinned - 1 }
    if conn.peerClosed ∧ conn.pinned = 0 then state.removeConnection connId else state.setConnection connId conn

def unregister (dataflowId : DataflowId) (token : Option UInt64) (state : SharedState) : SharedState :=
  match state.registered dataflowId with
  | some reg =>
    if token = none ∨ token = some reg.token then
      let state := state.unpin reg.conn
      { state with
        registered := Function.update state.registered dataflowId none
        past := Function.update state.past dataflowId (state.past dataflowId ++ [reg])
        completed := state.completed.insert dataflowId
        pendingControl := state.pendingControl.take dataflowId }
    else state
  | none => if token.isSome then state else { state with pendingControl := state.pendingControl.take dataflowId }

def idUnavailable (dataflowId : DataflowId) (token : UInt64) (state : SharedState) : Option TransportError :=
  let id := dataflowId.text
  let peer := state.peerNodeId
  if (state.registered dataflowId).isSome ∨ (∃ claim ∈ state.claims dataflowId, claim ≠ token) then
    some (.invalidRegistration s!"dataflow {id} is already registered with peer {peer}")
  else if state.completed.contains dataflowId then
    some (.invalidRegistration
      (s!"dataflow {id} already ran with peer {peer}: a DataflowId " ++
        "identifies one run, so a retry needs a fresh DataflowId"))
  else none

/-- The connections that take a new lane are compared by the number of their lanes and then by their id. -/
def fewestLanes : List (Nat × PooledConnection) → Option (Nat × PooledConnection)
  | [] => none
  | entry :: rest =>
    match fewestLanes rest with
    | none => if entry.2.peerClosed then none else some entry
    | some best =>
      if entry.2.peerClosed then some best
      else if best.2.pinned < entry.2.pinned ∨ best.2.pinned = entry.2.pinned ∧ best.1 < entry.1 then some best
      else some entry

def checkChannels : List UInt64 → List UInt64 → Except TransportError Unit
  | _, [] => .ok ()
  | seen, channel :: rest =>
    let id := channel.toNat
    if channel = probeChannelId then
      .error (.invalidRegistration s!"channel {id} is reserved for connection probes")
    else if channel ∈ seen then .error (.invalidRegistration s!"channel {id} registered twice")
    else checkChannels (channel :: seen) rest

/-- Control frames that arrived before are delivered, and the first of them fixes the inbound connection. -/
def addRegistration (dataflowId : DataflowId) (token : UInt64) (channelIds : List UInt64) (connId : Nat)
    (conn : PooledConnection) (state : SharedState) : SharedState :=
  let pending := ((state.pendingControl.byDataflow.lookup dataflowId).map PendingFrames.frames).getD []
  let reg : DataflowRegistration :=
    { token, conn := connId,
      channelSenders := some (controlChannelId :: channelIds.filter fun id => id ≠ controlChannelId)
      inboundConn := pending.head?.map Prod.fst
      controls := pending.map Prod.snd }
  let state := state.setConnection connId { conn with pinned := conn.pinned + 1 }
  let claims := if state.claims dataflowId = some token then Function.update state.claims dataflowId none
    else state.claims
  { state with claims, pendingControl := state.pendingControl.take dataflowId }.setRegistration dataflowId reg

/-- This is `register` behind `ensure_connections`. -/
def register (dataflowId : DataflowId) (token : UInt64) (channelIds : List UInt64) (channelCapacity : Nat)
    (state : SharedState) : Except RegisterError SharedState :=
  if channelCapacity = 0 then .error ⟨.invalidRegistration "channel capacity must be at least 1", false⟩
  else
    match checkChannels [] channelIds with
    | .error error => .error ⟨error, false⟩
    | .ok () =>
      match state.idUnavailable dataflowId token with
      | some error => .error ⟨error, true⟩
      | none =>
        match fewestLanes state.connections with
        | none =>
          let peer := state.peerNodeId
          .error ⟨.io ⟨.notConnected, s!"no connection to peer {peer} survived registration"⟩, false⟩
        | some (connId, conn) => .ok (state.addRegistration dataflowId token channelIds connId conn)

def claim (dataflowId : DataflowId) (token : UInt64) (state : SharedState) : Except TransportError SharedState :=
  match state.idUnavailable dataflowId token with
  | some error => .error error
  | none => .ok { state with claims := Function.update state.claims dataflowId (some token) }

def dropClaim (dataflowId : DataflowId) (token : UInt64) (state : SharedState) : SharedState :=
  if state.claims dataflowId = some token then { state with claims := Function.update state.claims dataflowId none }
  else state

def retireClaim (dataflowId : DataflowId) (token : UInt64) (state : SharedState) : SharedState :=
  if state.claims dataflowId = some token then
    { state with
      claims := Function.update state.claims dataflowId none
      completed := state.completed.insert dataflowId
      pendingControl := state.pendingControl.take dataflowId }
  else state

/-- A manager that is released drops its connections. -/
def clear (state : SharedState) : SharedState := { state with connections := [] }

end SharedState

/-- The critical sections of the tasks of a manager. -/
inductive ManagerOp where
  | addConnection
  | sendPayload (dataflowId : DataflowId) (token : UInt64) (frame : Frame)
  | sendControl (frame : Frame)
  | frame (now connId : Nat) (frame : Frame)
  | failOutbound (connId : Nat) (error : TransportError)
  | failInbound (connId : Nat) (ended : InboundEnd)
  | register (dataflowId : DataflowId) (token : UInt64) (channelIds : List UInt64) (channelCapacity : Nat)
  | unregister (dataflowId : DataflowId) (token : Option UInt64)
  | claim (dataflowId : DataflowId) (token : UInt64)
  | dropClaim (dataflowId : DataflowId) (token : UInt64)
  | retireClaim (dataflowId : DataflowId) (token : UInt64)
  | clear

/-- A section that fails or only reads leaves the state. -/
def SharedState.step (state : SharedState) : ManagerOp → SharedState
  | .addConnection => state.addConnection
  | .sendPayload dataflowId token frame => state.sendPayload dataflowId token frame
  | .sendControl frame => state.sendControl frame
  | .frame now connId frame => state.onFrame now connId frame
  | .failOutbound connId error => state.failOutbound connId error
  | .failInbound connId ended => state.failInbound connId ended
  | .register dataflowId token channelIds channelCapacity =>
    (state.register dataflowId token channelIds channelCapacity).toOption.getD state
  | .unregister dataflowId token => state.unregister dataflowId token
  | .claim dataflowId token => (state.claim dataflowId token).toOption.getD state
  | .dropClaim dataflowId token => state.dropClaim dataflowId token
  | .retireClaim dataflowId token => state.retireClaim dataflowId token
  | .clear => state.clear

end Instancy
