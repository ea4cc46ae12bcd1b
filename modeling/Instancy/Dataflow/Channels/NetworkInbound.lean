import Instancy.Communication.LinkEvents
import Instancy.Dataflow.Channels.NetworkEnvelope

/-
This file models the receiving side of a cluster data channel in `network.rs`: the bridge task and the pull end share a
queue and a flag, and each takes one atomic step at a time.
-/

namespace Instancy

/-- The text of an error. A slice that is out of range has none of its own. -/
def CodecError.text : CodecError → String
  | .insufficientData needed available => s!"insufficient data: need {needed} bytes, have {available}"
  | .invalidData message => s!"invalid data: {message}"
  | .custom message => s!"codec error: {message}"
  | .crcMismatch expected actual => "CRC32 mismatch: expected " ++ hexWord expected ++ ", got " ++ hexWord actual
  | .payloadTooLarge size max => s!"payload too large: {size} bytes exceeds maximum {max}"
  | .outOfRange => "index out of range"

/-- What is fixed for one data channel. -/
structure DataChannel (T D : Type) where
  channelId : Nat
  timeCodec : Codec T
  dataCodec : Codec D
  utf8Error : List UInt8 → String

namespace DataChannel

variable {T D : Type} (channel : DataChannel T D)

def decode (bytes : List UInt8) : Except CodecError (Option (Envelope T D)) :=
  decodeEnvelope channel.timeCodec channel.dataCodec channel.utf8Error bytes

/-- The frame decodes with the codecs of the channel. -/
def validate (bytes : List UInt8) : Bool := (channel.decode bytes).isOk

end DataChannel

/-- Where the bridge is: it waits for a frame, or it delivers one. -/
inductive BridgePlace where
  | receiving
  | delivering (bytes : List UInt8)
  | sending (bytes : List UInt8) (unseen : Bool)
  | sent (records : Bool)
  | exited
  deriving DecidableEq, Repr

/-- The bridge of a monitored channel. It has its sender until it learns that the receiver is gone. -/
structure InboundChannel where
  tx : Bool
  closed : Bool
  reported : Bool
  corruptReported : Bool
  draining : Bool
  place : BridgePlace

/-- Where the pull end is: it is used, or it drains its receiver and drops it. -/
inductive PullPlace where
  | live
  | draining (unconsumed : Nat) (corrupt : Option CodecError)
  | drained
  | gone
  deriving DecidableEq, Repr

/-- The pull end. What it returned is kept for statements. -/
structure NetworkPull (T D : Type) where
  exhausted : Bool
  failed : Bool
  place : PullPlace
  returned : List (Envelope T D)

/-- Both ends with what they share. The frames that the bridge received are kept for statements. -/
structure Inbound (T D : Type) where
  bridge : InboundChannel
  pull : NetworkPull T D
  queue : List (List UInt8)
  pullDropped : Bool
  reports : List LinkEvent
  delivered : List (List UInt8)

namespace Inbound

variable {T D : Type} (channel : DataChannel T D)

def new : Inbound T D where
  bridge := ⟨true, false, false, false, false, .receiving⟩
  pull := ⟨false, false, .live, []⟩
  queue := []
  pullDropped := false
  reports := []
  delivered := []

variable (inbound : Inbound T D)

def report (event : LinkEvent) : Inbound T D :=
  { inbound with reports := inbound.reports ++ [event] }

def bridgeTo (place : BridgePlace) : Inbound T D :=
  { inbound with bridge := { inbound.bridge with place := place } }

def pullTo (place : PullPlace) : Inbound T D :=
  { inbound with pull := { inbound.pull with place := place } }

/-- The bridge reports a frame that does not decode, once. -/
def check (bytes : List UInt8) : Inbound T D :=
  if !inbound.bridge.corruptReported ∧ !channel.validate bytes then
    let channelId := channel.channelId
    { inbound with bridge := { inbound.bridge with corruptReported := true } }.report
      (.dataChannelEnded (.decode s!"data channel {channelId}: undecodable frame"))
  else inbound

/-- The bridge reports an event, unless it has reported one before. -/
def reportOnce (event : LinkEvent) : Inbound T D :=
  if inbound.bridge.reported then inbound
  else { inbound with bridge := { inbound.bridge with reported := true } }.report event

def lost (why : String) : Inbound T D :=
  let channelId := channel.channelId
  inbound.reportOnce (.inboundDataLost s!"channel {channelId}: {why}")

/-- The first part of `deliver`, up to the first look at the flag. -/
def examine (bytes : List UInt8) : Inbound T D :=
  if inbound.bridge.closed then
    let channelId := channel.channelId
    (inbound.reportOnce (.dataChannelEnded (.protocolViolation
      s!"channel {channelId}: a frame arrived after the channel's close marker"))).bridgeTo .receiving
  else
    let unseen := !inbound.bridge.tx || inbound.pullDropped
    let noted := { inbound with bridge := { inbound.bridge with closed := isCloseSentinel bytes } }
    (if unseen then noted.check channel bytes else noted).bridgeTo (.sending bytes unseen)

/-- The frame cannot be handed over. -/
def undeliverable (bytes : List UInt8) : Inbound T D :=
  (if frameCarriesRecords bytes then
    inbound.lost channel "records arrived after the receiving operator finished"
  else inbound).bridgeTo .receiving

/-- The second part of `deliver`: the frame is sent, unless the receiver is gone. -/
def send (bytes : List UInt8) (unseen : Bool) : Inbound T D :=
  if inbound.bridge.tx then
    if inbound.pull.place = .gone then
      let failed := { inbound with bridge := { inbound.bridge with tx := false } }
      (if unseen then failed else failed.check channel bytes).undeliverable channel bytes
    else { inbound with queue := inbound.queue ++ [bytes] }.bridgeTo (.sent (frameCarriesRecords bytes))
  else inbound.undeliverable channel bytes

/-- The last part of `deliver`: the second look at the flag. -/
def recheck (records : Bool) : Inbound T D :=
  (if records ∧ inbound.pullDropped then inbound.lost channel "records arrived as the receiving operator finished"
  else inbound).bridgeTo .receiving

/-- The next step of `deliver`. -/
def deliver : Inbound T D :=
  match inbound.bridge.place with
  | .delivering bytes => inbound.examine channel bytes
  | .sending bytes unseen => inbound.send channel bytes unseen
  | .sent records => inbound.recheck channel records
  | .receiving | .exited => inbound

/-- The bridge receives a frame. -/
def receive (bytes : List UInt8) : Inbound T D :=
  match inbound.bridge.place with
  | .receiving => { inbound with delivered := inbound.delivered ++ [bytes] }.bridgeTo (.delivering bytes)
  | _ => inbound

/-- The bridge is asked to take only what is queued and then to exit. -/
def drain : Inbound T D :=
  match inbound.bridge.place with
  | .receiving => { inbound with bridge := { inbound.bridge with draining := true } }
  | _ => inbound

/-- The bridge finds no further frame and exits. Outside a drain this is a loss if the sentinel is missing. -/
def finish : Inbound T D :=
  match inbound.bridge.place with
  | .receiving =>
    (if !inbound.bridge.draining ∧ !inbound.bridge.closed then
      inbound.report (.dataChannelEnded .channelClosed)
    else inbound).bridgeTo .exited
  | _ => inbound

/-- The pull end takes one frame. -/
def pullFrame : Inbound T D :=
  if inbound.pull.place ≠ .live ∨ inbound.pull.exhausted ∨ inbound.pull.failed then inbound
  else
    match inbound.queue with
    | [] =>
      if inbound.bridge.place = .exited then { inbound with pull := { inbound.pull with failed := true } }
      else inbound
    | bytes :: rest =>
      match channel.decode bytes with
      | .ok (some envelope) =>
        { inbound with
          queue := rest, pull := { inbound.pull with returned := inbound.pull.returned ++ [envelope] } }
      | .ok none => { inbound with queue := rest, pull := { inbound.pull with exhausted := true } }
      | .error error =>
        let channelId := channel.channelId
        let text := error.text
        { inbound with queue := rest, pull := { inbound.pull with failed := true } }.report
          (.dataChannelEnded (.decode s!"data channel {channelId}: {text}"))

/-- The reports of the pull end after it has drained its receiver. -/
def reportDrained (unconsumed : Nat) (corrupt : Option CodecError) : Inbound T D :=
  let channelId := channel.channelId
  let checked :=
    match corrupt with
    | none => inbound
    | some error =>
      let text := error.text
      inbound.report (.dataChannelEnded (.decode s!"data channel {channelId}: {text}"))
  if 0 < unconsumed then
    checked.report (.inboundDataLost
      s!"channel {channelId}: {unconsumed} frame(s) of records were received but never consumed")
  else checked

/-- The next step of the drop of the pull end: it sets the flag, drains the receiver, reports and drops the receiver. -/
def dropPull : Inbound T D :=
  match inbound.pull.place with
  | .live => { inbound with pullDropped := true }.pullTo (.draining 0 none)
  | .draining unconsumed corrupt =>
    match inbound.queue with
    | [] => (inbound.reportDrained channel unconsumed corrupt).pullTo .drained
    | bytes :: rest =>
      let taken := { inbound with queue := rest }
      match channel.decode bytes with
      | .ok (some envelope) =>
        taken.pullTo (.draining (if envelope.carriesRecords then unconsumed + 1 else unconsumed) corrupt)
      | .ok none => taken.pullTo (.draining unconsumed corrupt)
      | .error error => taken.pullTo (.draining unconsumed (corrupt.or (some error)))
  | .drained => { inbound with queue := [] }.pullTo .gone
  | .gone => inbound

/-- One step of one of the two ends. -/
inductive Move where
  | receive (bytes : List UInt8)
  | deliver
  | drain
  | finish
  | pull
  | drop

def step : Move → Inbound T D
  | .receive bytes => inbound.receive bytes
  | .deliver => inbound.deliver channel
  | .drain => inbound.drain
  | .finish => inbound.finish
  | .pull => inbound.pullFrame channel
  | .drop => inbound.dropPull channel

def run (moves : List Move) : Inbound T D := moves.foldl (step channel) inbound

end Inbound

end Instancy
