import Instancy.Order

/-
Each sender of an external input of `channel_operators.rs` and its source operator take one atomic step at a time, in
any interleaving.
-/

namespace Instancy

/-- An event of an input: a batch at a time or an advance of the frontier. -/
inductive InputEvent (T D : Type) where
  | data (time : T) (records : List D)
  | frontier (time : T)
  deriving DecidableEq, Repr

/-- The gate that the senders share with the source. -/
structure InputGate where
  closed : Bool
  inFlight : Nat

/-- The two backends of the channel. -/
inductive ChannelMode where
  | sync
  | async
  deriving DecidableEq, Repr

/-- The channel holds at most `capacity` events. Only the async backend can refuse events once it is closed. -/
structure InputChannel (T D : Type) where
  mode : ChannelMode
  capacity : Nat
  queue : List (InputEvent T D)
  closed : Bool

/-- The channel refuses events. -/
def InputChannel.refuses {T D : Type} (channel : InputChannel T D) : Bool := channel.mode = .async ∧ channel.closed

/-- How a send ends. The future of an async send can be dropped before the event is enqueued. -/
inductive SendEnd where
  | ok
  | channelClosed
  | abandoned
  deriving DecidableEq, Repr

/-- Where a sender is in `enqueue`. It is in the gate from `counted` to `leaving`. -/
inductive SenderPlace (T D : Type) where
  | idle
  | entering (event : InputEvent T D)
  | counted (event : InputEvent T D)
  | refused (event : InputEvent T D)
  | admitted (event : InputEvent T D)
  | leaving (event : InputEvent T D) (sendEnd : SendEnd)
  | dropped

/-- One sender. A call is late if the source had finished when it started; this is kept for statements. -/
structure InputSender (T D : Type) where
  place : SenderPlace T D
  late : Bool

/-- The end of a send, kept for statements. -/
structure SendReturn (T D : Type) where
  event : InputEvent T D
  late : Bool
  sendEnd : SendEnd

/-- The errors of the source. The errors of the producer of an async source are its own. -/
inductive SourceError (T E : Type) where
  | inputTimeBeforeFrontier (time frontier : T)
  | invalidInputFrontier (origin target : T)
  | timeNotAdvanced (origin target : T)
  | producer (error : E)
  deriving DecidableEq, Repr

/-- What the producer of an async source says about the end of its channel; an input port says that it ends. -/
inductive InputEnd (E : Type) where
  | ends
  | waits
  | fails (error : E)

/-- Where the source is: in a call, or in `close_external_input`. -/
inductive SourcePlace where
  | idle
  | receiving (madeProgress : Bool) (dataEvents : Nat) (drainedInputsFinal : Bool)
  | checking (madeProgress : Bool) (dataEvents : Nat)
  | closingGate
  | closingReceiver
  | drainingGate
  | drainingReceiver
  deriving DecidableEq, Repr

/-- The source. The batches that it emitted, the events that it applied, the event that broke the protocol, the results
of its calls and whether one failed are kept for statements. -/
structure ChannelSource (T D E : Type) where
  capability : Option T
  externalInputsOpen : Nat
  current : T
  frontierAdvanced : Bool
  externalClosed : Bool
  finished : Bool
  failure : Option (SourceError T E)
  place : SourcePlace
  emitted : List (T × List D)
  applied : List (InputEvent T D)
  violation : Option (InputEvent T D)
  results : List (Except (SourceError T E) Bool)
  failed : Bool

/-- The input as a whole. The events that were enqueued and the ends of the sends are kept for statements. -/
structure ExternalInput (T D E : Type) where
  gate : InputGate
  channel : InputChannel T D
  senders : List (InputSender T D)
  source : ChannelSource T D E
  enqueued : List (InputEvent T D)
  returns : List (SendReturn T D)

namespace ExternalInput

variable {T D E : Type}

/-- A fresh input with one sender. -/
def new (minimum : T) (mode : ChannelMode) (capacity externalInputsOpen : Nat) : ExternalInput T D E where
  gate := ⟨false, 0⟩
  channel := ⟨mode, capacity, [], false⟩
  senders := [⟨.idle, false⟩]
  source := ⟨some minimum, externalInputsOpen, minimum, false, false, false, none, .idle, [], [], none, [], false⟩
  enqueued := []
  returns := []

variable (input : ExternalInput T D E)

def setSender (index : Nat) (sender : InputSender T D) : ExternalInput T D E :=
  { input with senders := input.senders.set index sender }

def setGate (gate : InputGate) : ExternalInput T D E := { input with gate := gate }

def setSource (source : ChannelSource T D E) : ExternalInput T D E :=
  { input with source := source }

/-- A sender leaves the gate, and its call ends. -/
def leave (index : Nat) (sender : InputSender T D) (event : InputEvent T D) (sendEnd : SendEnd) : ExternalInput T D E :=
  { (input.setGate { input.gate with inFlight := input.gate.inFlight - 1 }).setSender index
      { sender with place := .idle } with
    returns := input.returns ++ [⟨event, sender.late, sendEnd⟩] }

/-- The event is enqueued if the channel has room; a full channel makes the sender wait. -/
def enqueue (index : Nat) (sender : InputSender T D) (event : InputEvent T D) : ExternalInput T D E :=
  if input.channel.refuses then input.setSender index { sender with place := .leaving event .channelClosed }
  else if input.channel.queue.length < input.channel.capacity then
    { input.setSender index { sender with place := .leaving event .ok } with
      channel := { input.channel with queue := input.channel.queue ++ [event] }
      enqueued := input.enqueued ++ [event] }
  else input

/-- The next step of the call of a sender. -/
def advance (index : Nat) (sender : InputSender T D) : ExternalInput T D E :=
  match sender.place with
  | .entering event =>
    (input.setGate { input.gate with inFlight := input.gate.inFlight + 1 }).setSender index
      { sender with place := .counted event }
  | .counted event =>
    input.setSender index
      { sender with place := if input.gate.closed then .refused event else .admitted event }
  | .refused event => input.leave index sender event .channelClosed
  | .admitted event => input.enqueue index sender event
  | .leaving event sendEnd => input.leave index sender event sendEnd
  | .idle | .dropped => input

/-- What a sender does next. -/
inductive SenderMove (T D : Type) where
  | start (event : InputEvent T D)
  | advance
  | abandon
  | clone
  | drop

def moveSender (index : Nat) (sender : InputSender T D) : SenderMove T D → ExternalInput T D E
  | .start event =>
    match sender.place with
    | .idle => input.setSender index ⟨.entering event, input.source.finished⟩
    | _ => input
  | .advance => input.advance index sender
  | .abandon =>
    match sender.place with
    | .admitted event =>
      if input.channel.mode = .async then
        input.setSender index { sender with place := .leaving event .abandoned }
      else input
    | _ => input
  | .clone =>
    match sender.place with
    | .dropped => input
    | _ => { input with senders := input.senders ++ [⟨.idle, false⟩] }
  | .drop =>
    match sender.place with
    | .idle => input.setSender index { sender with place := .dropped }
    | _ => input

end ExternalInput

def InputSender.isDropped {T D : Type} (sender : InputSender T D) : Bool :=
  match sender.place with
  | .dropped => true
  | _ => false

/-- The most data events of one call. -/
def activationBudget : Nat := 1024

namespace ChannelSource

variable {T D E : Type} (source : ChannelSource T D E)

/-- A call ends. -/
def endCall (result : Except (SourceError T E) Bool) : ChannelSource T D E :=
  { source with place := .idle, results := source.results ++ [result], failed := !result.isOk }

/-- The error is raised now, or after the events of this call are committed. -/
def fail (madeProgress : Bool) (error : SourceError T E) : ChannelSource T D E :=
  if !madeProgress then source.endCall (.error error)
  else { source with failure := some error }.endCall (.ok true)

/-- An event broke the protocol: the call ends, and the next one fails. -/
def reject (event : InputEvent T D) (madeProgress : Bool) (error : SourceError T E) : ChannelSource T D E :=
  { source with failure := some error, violation := some event }.endCall (.ok madeProgress)

/-- Nothing more is in the channel. The source finishes once. -/
def atEnd (madeProgress : Bool) : InputEnd E → ChannelSource T D E
  | .ends => if source.finished then source.endCall (.ok true) else { source with place := .closingGate }
  | .waits => source.endCall (.ok madeProgress)
  | .fails error => source.fail madeProgress (.producer error)

/-- An empty batch is not emitted. -/
def pushVec (time : T) (records : List D) : ChannelSource T D E :=
  if records.isEmpty then source else { source with emitted := source.emitted ++ [(time, records)] }

def note (event : InputEvent T D) : ChannelSource T D E :=
  { source with applied := source.applied ++ [event] }

variable [TimeOrder T]

/-- The source takes a batch. -/
def takeData (time : T) (records : List D) (madeProgress : Bool) (dataEvents : Nat)
    (drainedInputsFinal : Bool) : ChannelSource T D E :=
  if source.frontierAdvanced ∧ ¬ source.current ≤ time then
    source.reject (.data time records) madeProgress (.inputTimeBeforeFrontier time source.current)
  else
    { (source.pushVec time records).note (.data time records) with
      place := .receiving true (dataEvents + 1) drainedInputsFinal }

/-- The capability is downgraded to a later time. -/
def downgrade (time : T) : Except (SourceError T E) (ChannelSource T D E) :=
  match source.capability with
  | none => .ok source
  | some held =>
    if held ≤ time then .ok { source with capability := some time } else .error (.timeNotAdvanced held time)

/-- The source takes a frontier. -/
def takeFrontier (time : T) (madeProgress : Bool) (dataEvents : Nat)
    (drainedInputsFinal : Bool) : ChannelSource T D E :=
  if ¬ source.current ≤ time then
    source.reject (.frontier time) madeProgress (.invalidInputFrontier source.current time)
  else if time ≠ source.current then
    match source.downgrade time with
    | .error error => source.endCall (.error error)
    | .ok lowered =>
      { { lowered with current := time, frontierAdvanced := true }.note (.frontier time) with
        place := .receiving true dataEvents drainedInputsFinal }
  else { source.note (.frontier time) with place := .receiving true dataEvents drainedInputsFinal }

end ChannelSource

namespace ExternalInput

variable {T D E : Type} [TimeOrder T] (input : ExternalInput T D E)

/-- Every sender is dropped or the channel is closed. -/
def disconnected : Bool :=
  input.senders.all InputSender.isDropped || input.channel.refuses

/-- One turn of the loop of `call`, up to the receive. -/
def receive (inputEnd : InputEnd E) (madeProgress : Bool) (dataEvents : Nat)
    (drainedInputsFinal : Bool) : ExternalInput T D E :=
  let source := input.source
  if ¬ dataEvents < activationBudget then input.setSource (source.endCall (.ok madeProgress))
  else
    match input.channel.queue with
    | event :: rest =>
      { input with
        channel := { input.channel with queue := rest }
        source :=
          match event with
          | .data time records => source.takeData time records madeProgress dataEvents drainedInputsFinal
          | .frontier time => source.takeFrontier time madeProgress dataEvents drainedInputsFinal }
    | [] =>
      if input.disconnected then input.setSource (source.atEnd madeProgress inputEnd)
      else if source.externalClosed then
        if drainedInputsFinal then input.setSource (source.atEnd madeProgress inputEnd)
        else input.setSource { source with place := .checking madeProgress dataEvents }
      else input.setSource (source.endCall (.ok madeProgress))

/-- The input ended: the capability is released. -/
def finish : ExternalInput T D E :=
  { input with
    channel := { input.channel with closed := true }
    source := { input.source with
      capability := none, finished := true, externalInputsOpen := input.source.externalInputsOpen - 1 }.endCall
        (.ok true) }

/-- The next step of the source. -/
def work (inputEnd : InputEnd E) : ExternalInput T D E :=
  match input.source.place with
  | .idle => input
  | .receiving madeProgress dataEvents drainedInputsFinal =>
    input.receive inputEnd madeProgress dataEvents drainedInputsFinal
  | .checking madeProgress dataEvents =>
    if input.gate.inFlight = 0 then
      input.setSource { input.source with place := .receiving madeProgress dataEvents true }
    else input.setSource (input.source.endCall (.ok madeProgress))
  | .closingGate =>
    (input.setGate { input.gate with closed := true }).setSource { input.source with place := .closingReceiver }
  | .closingReceiver => input.finish
  | .drainingGate =>
    (input.setGate { input.gate with closed := true }).setSource { input.source with place := .drainingReceiver }
  | .drainingReceiver =>
    { input with
      channel := { input.channel with closed := true }
      source := { input.source with place := .idle } }

/-- A call begins. No call is made after a failed one. -/
def call (producerFailure : Option E) : ExternalInput T D E :=
  let source := input.source
  if source.place = .idle ∧ !source.failed then
    match source.failure with
    | some failure => input.setSource ({ source with failure := none }.endCall (.error failure))
    | none =>
      match producerFailure with
      | some error => input.setSource (source.endCall (.error (.producer error)))
      | none => input.setSource { source with place := .receiving false 0 false }
  else input

def closeExternalInput : ExternalInput T D E :=
  let source := input.source
  if source.place ≠ .idle ∨ source.finished ∨ source.externalClosed then input
  else input.setSource { source with externalClosed := true, place := .drainingGate }

/-- One step of a sender or of the source. -/
inductive Move (T D E : Type) where
  | sender (index : Nat) (move : SenderMove T D)
  | call (producerFailure : Option E)
  | work (inputEnd : InputEnd E)
  | closeExternalInput

def step : Move T D E → ExternalInput T D E
  | .sender index move =>
    match input.senders[index]? with
    | some sender => input.moveSender index sender move
    | none => input
  | .call producerFailure => input.call producerFailure
  | .work inputEnd => input.work inputEnd
  | .closeExternalInput => input.closeExternalInput

def run (moves : List (Move T D E)) : ExternalInput T D E := moves.foldl step input

end ExternalInput

end Instancy
