import Instancy.Dataflow.Ports

namespace Instancy

section InputPorts

variable {I D : Type} [TimeOrder I]

namespace CountedInput

/-- The envelopes that the channel delivered go into the handle; an error envelope is fatal. -/
def pullEnvelopes : List (Envelope I D) → CountedInput I D → Bool → Except RunError Bool × CountedInput I D
  | [], input, pulled => (.ok pulled, { input with pull := { input.pull with waiting := [] } })
  | .data time records :: rest, input, _ =>
    pullEnvelopes rest { input with
      pull := { input.pull with pulled := input.pull.pulled ++ [(time, records)] }
      handle := input.handle.pushVec time records } true
  | .watermark _ :: rest, input, pulled => pullEnvelopes rest input pulled
  | .error sourceOperator message :: rest, input, _ =>
    (.error (.upstreamError sourceOperator message), { input with pull := { input.pull with waiting := rest } })

/-- This is `pull`: the end of the channel is noticed once nothing is left in it. -/
def pullAll (input : CountedInput I D) : Except RunError Bool × CountedInput I D :=
  match pullEnvelopes input.pull.waiting input false with
  | (.error error, next) => (.error error, next)
  | (.ok pulled, next) =>
    (.ok pulled, { next with
      handle := { next.handle with exhausted := next.handle.exhausted || next.pull.exhausted } })

def commit (input : CountedInput I D) : CountedInput I D :=
  let absorbed := input.ledger.absorb input.handle.consumed
  { input with ledger := absorbed.1, handle := { input.handle with consumed := absorbed.2 } }

def discard (input : CountedInput I D) : CountedInput I D :=
  { input with handle := { input.handle with consumed := ChangeBatch.new } }

end CountedInput

/-- Every input is pulled in turn; the first error ends the loop. -/
def pullInputs : List (CountedInput I D) → Except RunError Bool × List (CountedInput I D)
  | [] => (.ok false, [])
  | input :: rest =>
    match input.pullAll with
    | (.error error, next) => (.error error, next :: rest)
    | (.ok first, next) =>
      let others := pullInputs rest
      (others.1.map (first || ·), next :: others.2)

def buffered (inputs : List (CountedInput I D)) : Bool := inputs.any fun input => !input.handle.pending.isEmpty

def inputsExhausted (inputs : List (CountedInput I D)) : Bool := inputs.all fun input => input.handle.exhausted

/-- Whether no more input can arrive; an operator without inputs is never told so. -/
def frontiersEmpty (inputs : List (CountedInput I D)) : Bool :=
  !inputs.isEmpty && inputs.all fun input => input.handle.frontier.isEmpty

end InputPorts

section OutputPorts

variable {T D : Type} [TimeOrder T]

namespace CountedOutput

def hasPending (output : CountedOutput T D) : Bool := !output.retry.isEmpty || !output.handle.buffer.isEmpty

/-- The records that a list of batches counts. -/
def produced (batches : List (T × List D)) : ChangeBatch T :=
  batches.foldl (fun changes batch => changes.update batch.1 batch.2.length) ChangeBatch.new

/-- The session is counted as produced and queued for the channel. -/
def queueSession (output : CountedOutput T D) : CountedOutput T D :=
  let batches := output.handle.buffer.filter fun batch => !batch.2.isEmpty
  { output with
    handle := ⟨[], fun _ member => absurd member List.not_mem_nil⟩
    retry := output.retry ++ batches
    ledger := (output.ledger.absorb (produced batches)).1 }

def discardSession (output : CountedOutput T D) : CountedOutput T D :=
  { output with handle := ⟨[], fun _ member => absurd member List.not_mem_nil⟩ }

/-- The retry queue goes into the channel until an envelope is refused. -/
def flushQueue : List (T × List D) → CountedOutput T D → Except RunError Bool × CountedOutput T D
  | [], output => (.ok true, { output with retry := [] })
  | batch :: rest, output =>
    match output.push.tryPush batch with
    | (.accept, push) => flushQueue rest { output with push := push }
    | (.backpressure, push) => (.ok false, { output with push := push, retry := batch :: rest })
    | (.fail error, push) => (.error error, { output with push := push, retry := rest })

def flush (output : CountedOutput T D) : Except RunError Bool × CountedOutput T D := flushQueue output.retry output

def close (output : CountedOutput T D) : CountedOutput T D := { output with closed := true }

variable [ToString T]

/-- The session is checked, counted as produced and queued for the channel. -/
def takeSession (checks : Bool) (justify : Justify T) (index : Nat) (output : CountedOutput T D) :
    Except RunError (CountedOutput T D) :=
  if output.handle.buffer.isEmpty then .ok output
  else
    match output.handle.buffer.find? fun batch => checks && !justify.justifies output.reporter batch.1 with
    | some batch => .error (justify.unjustified output.reporter "output" index batch.1)
    | none => .ok output.queueSession

end CountedOutput

/-- Every port is flushed, even if another one is blocked. -/
def flushOutputs : List (CountedOutput T D) → Except RunError Bool × List (CountedOutput T D)
  | [] => (.ok true, [])
  | output :: rest =>
    match output.flush with
    | (.error error, next) => (.error error, next :: rest)
    | (.ok first, next) =>
      let others := flushOutputs rest
      (others.1.map (first && ·), next :: others.2)

/-- The sessions are taken port after port; the first error ends the loop. -/
def takeSessions [ToString T] (checks : Bool) (justify : Justify T) :
    Nat → List (CountedOutput T D) → Option RunError × List (CountedOutput T D)
  | _, [] => (none, [])
  | index, output :: rest =>
    match output.takeSession checks justify index with
    | .error error => (some error, output :: rest)
    | .ok taken =>
      let others := takeSessions checks justify (index + 1) rest
      (others.1, taken :: others.2)

def outputsPending (outputs : List (CountedOutput T D)) : Bool := outputs.any CountedOutput.hasPending

def holdsCapability (outputs : List (CountedOutput T D)) : Bool := outputs.any fun output => output.reporter.holdsAny

def anyRetained (outputs : List (CountedOutput T D)) : Bool := outputs.any fun output => output.retainedLive > 0

end OutputPorts

/-- One operator: its logic state, its ports and the flags of its life. -/
structure OperatorShell (I T D L : Type) [TimeOrder I] [TimeOrder T] where
  name : String
  state : L
  ports : Ports I T D
  exhausted : Bool
  frontierChanged : Bool
  finalCalled : Bool
  frontierKnown : Bool
  shutDown : Bool

section New

variable {I T D L : Type} [TimeOrder I] [TimeOrder T]

def CountedInput.new (minimum : I) : CountedInput I D where
  pull := ⟨[], false, []⟩
  handle := ⟨[], fun _ member => absurd member List.not_mem_nil, false, Antichain.fromElem minimum, ChangeBatch.new⟩
  ledger := PortLedger.new

def CountedOutput.new (answers : Nat → PushAnswer) (reporter : ProgressReporter T) : CountedOutput T D where
  handle := ⟨[], fun _ member => absurd member List.not_mem_nil⟩
  retry := []
  push := ⟨[], answers, 0⟩
  ledger := PortLedger.new
  reporter := reporter
  retainedLive := 0
  closed := false

/-- A shell with empty channels; the answers of its push ends and its initial capabilities are given. -/
def OperatorShell.new (name : String) (state : L) (minimum : I) (inputs : Nat)
    (outputs : List ((Nat → PushAnswer) × ProgressReporter T)) : OperatorShell I T D L where
  name := name
  state := state
  ports := {
    inputs := List.replicate inputs (CountedInput.new minimum)
    outputs := outputs.map fun output => CountedOutput.new output.1 output.2
    justify := ⟨Antichain.new, false, none⟩
    notify := ⟨OrderedSet.empty, none⟩
    events := [] }
  exhausted := false
  frontierChanged := false
  finalCalled := false
  frontierKnown := false
  shutDown := false

end New

inductive ActivationOutcome where
  | done
  | madeProgress
  | blockedOnBackpressure
  | waitingForAsync
  | idle
  deriving DecidableEq, Repr

section Call

variable {I T D L : Type} [TimeOrder I] [TimeOrder T]

namespace Ports

/-- A logic call starts: nothing is consumed yet, and the reporters remember what is released from now on. -/
def begin (ports : Ports I T D) : Ports I T D :=
  { ports with
    outputs := ports.outputs.map fun output => { output with reporter := output.reporter.beginCall }
    justify := ⟨Antichain.new, true, none⟩
    notify := { ports.notify with error := none } }

/-- The call returned. -/
def finishCall (ports : Ports I T D) : Ports I T D :=
  { ports with justify := { ports.justify with inCall := false, violation := none } }

/-- The justification is dropped. -/
def endCall (ports : Ports I T D) : Ports I T D :=
  { ports with
    outputs := ports.outputs.map fun output => { output with reporter := output.reporter.endCall }
    justify := { ports.justify with consumed := Antichain.new } }

def commit (ports : Ports I T D) : Ports I T D := { ports with inputs := ports.inputs.map CountedInput.commit }

/-- The consumption and the output of a failed call are forgotten. -/
def discard (ports : Ports I T D) : Ports I T D :=
  { ports with
    inputs := ports.inputs.map CountedInput.discard
    outputs := ports.outputs.map CountedOutput.discardSession }

end Ports

namespace OperatorShell

variable [ToString T] (logic : OperatorLogic I T D L) (shell : OperatorShell I T D L)

/-- The logic runs once on its ports, with the justification of the call begun. -/
def callLogic : (Except RunError Bool × L) × Ports I T D :=
  (logic.call shell.state).run logic.attach shell.ports.begin

/-- The error of a call before its output is looked at: the logic's own one, then an invalid `notify_at`, then the
first violation. -/
def callError (result : Except RunError Bool) (ports : Ports I T D) : Except RunError Bool :=
  match result with
  | .error error => .error error
  | .ok did =>
    match ports.notify.error, ports.justify.violation with
    | some error, _ => .error error
    | none, some error => if logic.checksJustification then .error error else .ok did
    | none, none => .ok did

/-- The logic runs once, then its consumption and output are committed. -/
def runCall : Except RunError Bool × OperatorShell I T D L :=
  let called := shell.callLogic logic
  let finished := called.2.finishCall
  match callError logic called.1.1 called.2 with
  | .error error => (.error error, { shell with state := called.1.2, ports := finished.endCall.discard })
  | .ok did =>
    match takeSessions logic.checksJustification finished.justify 0 finished.outputs with
    | (none, outputs) =>
      (.ok did, { shell with state := called.1.2, ports := ({ finished with outputs := outputs }).endCall.commit })
    | (some error, outputs) =>
      (.error error, { shell with
        state := called.1.2
        ports := ({ finished with outputs := outputs }).endCall.discard })

/-- Whether no input, output, capability or work is held. -/
def holdsNothing : Bool :=
  !buffered shell.ports.inputs && !outputsPending shell.ports.outputs && !holdsCapability shell.ports.outputs &&
    !logic.holdsWork shell.state shell.ports.notify

/-- Whether a closure is owed its call with empty input frontiers. -/
def finalCallDue : Bool :=
  shell.frontierKnown && !shell.finalCalled && logic.callsOnFrontier && !shell.ports.inputs.isEmpty

/-- The outputs are closed for good. -/
def shutDownNow : OperatorShell I T D L :=
  { shell with
    ports := { shell.ports with outputs := shell.ports.outputs.map CountedOutput.close }
    shutDown := true }

def withInputs (inputs : List (CountedInput I D)) : OperatorShell I T D L :=
  { shell with ports := { shell.ports with inputs := inputs } }

def withOutputs (outputs : List (CountedOutput T D)) : OperatorShell I T D L :=
  { shell with ports := { shell.ports with outputs := outputs } }

/-- Nothing may reach an operator that has shut down. -/
def checkAfterShutdown : Except RunError Unit × OperatorShell I T D L :=
  let pulled := pullInputs shell.ports.inputs
  match pulled.1 with
  | .error error => (.error error, shell.withInputs pulled.2)
  | .ok true => (.error (.recordAfterShutdown shell.name "(any)"), shell.withInputs pulled.2)
  | .ok false => (.ok (), shell.withInputs pulled.2)

/-- The end of an activation: the operator notices that it is exhausted and answers what it did. -/
def settle (did : Bool) : Except RunError ActivationOutcome × OperatorShell I T D L :=
  let latched := { shell with
    exhausted := shell.exhausted || (inputsExhausted shell.ports.inputs && shell.holdsNothing logic) }
  if did then (.ok .madeProgress, latched)
  else if logic.blocked shell.state then (.ok .blockedOnBackpressure, latched)
  else if logic.waitingForAsync shell.state || anyRetained shell.ports.outputs then (.ok .waitingForAsync, latched)
  else (.ok .idle, latched)

/-- The logic is called if it wants to be, if its frontier changed under a `Retained`, or for the last time. -/
def callIfDue (did : Bool) : Except RunError ActivationOutcome × OperatorShell I T D L :=
  let frontierCall := shell.frontierChanged && logic.callsOnFrontier && anyRetained shell.ports.outputs
  let finalCall := shell.finalCallDue logic && frontiersEmpty shell.ports.inputs
  if logic.wantsCall shell.state shell.ports.inputs || frontierCall || finalCall then
    let called := runCall logic { shell with
      frontierChanged := false
      finalCalled := shell.finalCalled || frontiersEmpty shell.ports.inputs }
    match called.1 with
    | .error error => (.error error, called.2)
    | .ok more =>
      let flushed := flushOutputs called.2.ports.outputs
      match flushed.1 with
      | .error error => (.error error, called.2.withOutputs flushed.2)
      | .ok false => (.ok .blockedOnBackpressure, called.2.withOutputs flushed.2)
      | .ok true => (called.2.withOutputs flushed.2).settle logic (did || more)
  else shell.settle logic did

/-- The inputs are pulled, then the logic is called if it is due. -/
def pullAndCall (did : Bool) : Except RunError ActivationOutcome × OperatorShell I T D L :=
  let pulled := pullInputs shell.ports.inputs
  match pulled.1 with
  | .error error => (.error error, shell.withInputs pulled.2)
  | .ok _ => (shell.withInputs pulled.2).callIfDue logic did

/-- A logic that is blocked on an external consumer retries before any more input is pulled. -/
def retryBlocked : Except RunError ActivationOutcome × OperatorShell I T D L :=
  if logic.blocked shell.state then
    let called := runCall logic shell
    match called.1 with
    | .error error => (.error error, called.2)
    | .ok did =>
      if logic.blocked called.2.state then
        (.ok (if did then .madeProgress else .blockedOnBackpressure), called.2)
      else called.2.pullAndCall logic did
  else shell.pullAndCall logic false

/-- One activation; output that did not fit into its channel goes first. -/
def activate : Except RunError ActivationOutcome × OperatorShell I T D L :=
  if shell.shutDown then
    let checked := shell.checkAfterShutdown
    (checked.1.map fun _ => .done, checked.2)
  else if outputsPending shell.ports.outputs then
    let flushed := flushOutputs shell.ports.outputs
    match flushed.1 with
    | .error error => (.error error, shell.withOutputs flushed.2)
    | .ok false => (.ok .blockedOnBackpressure, shell.withOutputs flushed.2)
    | .ok true => (shell.withOutputs flushed.2).retryBlocked logic
  else shell.retryBlocked logic

/-- A frontier of an input arrives from the tracker. -/
def updatePortFrontier (port : Nat) (frontier : Antichain I) : OperatorShell I T D L :=
  match shell.ports.inputs[port]? with
  | none => { shell with frontierKnown := true }
  | some input =>
    if input.handle.frontier.sameElements frontier then { shell with frontierKnown := true }
    else { (shell.withInputs (shell.ports.inputs.set port
      { input with handle := { input.handle with frontier := frontier } })) with
      frontierKnown := true, frontierChanged := true }

end OperatorShell

end Call

end Instancy
