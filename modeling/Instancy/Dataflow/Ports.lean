import Instancy.Dataflow.Channels.Envelope
import Instancy.Progress.Notificator
import Instancy.Progress.Operate

/-
This file models the ports of an operator: `handles.rs` and the counted ports and the justification of `shell/mod.rs`.
A port set of the source (none, one, a pair or a list) is the list of its ports.
-/

namespace Instancy

/-- The errors of an activation. -/
inductive RunError where
  | unjustified (what justified : String)
  | upstreamError (sourceOperator message : String)
  | recordAfterShutdown (operator time : String)
  | residual (residual : String)
  | operator (message : String)
  | push (message : String)
  deriving DecidableEq, Repr

/-- The pull end of a channel: what it has delivered and is not pulled yet, and whether it has ended. The batches
that were pulled are kept for statements only. -/
structure PullEnd (I D : Type) where
  waiting : List (Envelope I D)
  exhausted : Bool
  pulled : List (I × List D)

/-- The answer of a push end to one envelope. -/
inductive PushAnswer where
  | accept
  | backpressure
  | fail (error : RunError)

/-- The push end of a channel: the batches that it accepted and the answers that it will give. -/
structure PushEnd (T D : Type) where
  accepted : List (T × List D)
  answers : Nat → PushAnswer
  asked : Nat

/-- An accepted batch goes into the channel; a refused one stays with the caller. -/
def PushEnd.tryPush {T D : Type} (push : PushEnd T D) (batch : T × List D) : PushAnswer × PushEnd T D :=
  match push.answers push.asked with
  | .accept => (.accept, { push with accepted := push.accepted ++ [batch], asked := push.asked + 1 })
  | answer => (answer, { push with asked := push.asked + 1 })

/-- The logic's view of an input; no pending batch is empty. -/
structure InputHandle (I D : Type) [TimeOrder I] where
  pending : List (I × List D)
  filled : ∀ batch ∈ pending, batch.2 ≠ []
  exhausted : Bool
  frontier : Antichain I
  consumed : ChangeBatch I

/-- The logic's view of an output; no buffered batch is empty. -/
structure OutputHandle (T D : Type) where
  buffer : List (T × List D)
  filled : ∀ batch ∈ buffer, batch.2 ≠ []

theorem append_filled {A D : Type} {batches : List (A × List D)} (filled : ∀ batch ∈ batches, batch.2 ≠ [])
    {time : A} {records : List D} (some : records ≠ []) : ∀ batch ∈ batches ++ [(time, records)], batch.2 ≠ [] := by
  intro batch member
  rcases List.mem_append.mp member with old | new
  · exact filled batch old
  · rw [List.mem_singleton.mp new]
    exact some

namespace InputHandle

variable {I D : Type} [TimeOrder I]

/-- An empty batch is not queued. -/
def pushVec (handle : InputHandle I D) (time : I) : List D → InputHandle I D
  | [] => handle
  | first :: rest => { handle with
      pending := handle.pending ++ [(time, first :: rest)]
      filled := append_filled handle.filled (List.cons_ne_nil first rest) }

/-- The first pending batch leaves the handle; only `next` records it as consumed. -/
def popFront (handle : InputHandle I D) : Option ((I × List D) × InputHandle I D) :=
  match shape : handle.pending with
  | [] => none
  | batch :: rest => some (batch, { handle with
      pending := rest
      filled := fun other member => handle.filled other (shape ▸ List.mem_cons_of_mem batch member) })

def recordConsumed (handle : InputHandle I D) (batch : I × List D) : InputHandle I D :=
  { handle with consumed := handle.consumed.update batch.1 batch.2.length }

theorem popFront_some {handle next : InputHandle I D} {batch : I × List D}
    (popped : handle.popFront = some (batch, next)) :
    handle.pending = batch :: next.pending ∧ next.exhausted = handle.exhausted ∧ next.frontier = handle.frontier ∧
      next.consumed = handle.consumed := by
  unfold popFront at popped
  split at popped
  · cases popped
  · rename_i head rest shape
    cases popped
    exact ⟨shape, rfl, rfl, rfl⟩

theorem popFront_of_cons {handle : InputHandle I D} {batch : I × List D} {rest : List (I × List D)}
    (shape : handle.pending = batch :: rest) : ∃ next, handle.popFront = some (batch, next) ∧ next.pending = rest := by
  unfold popFront
  split
  · rename_i empty
    cases empty.symm.trans shape
  · rename_i head others found
    cases found.symm.trans shape
    exact ⟨_, rfl, rfl⟩

end InputHandle

/-- An empty batch is not buffered. -/
def OutputHandle.pushVec {T D : Type} (handle : OutputHandle T D) (time : T) : List D → OutputHandle T D
  | [] => handle
  | first :: rest => {
      buffer := handle.buffer ++ [(time, first :: rest)]
      filled := append_filled handle.filled (List.cons_ne_nil first rest) }

/-- A counted input port: the pull end of its channel, the handle of the logic and the consumed ledger. -/
structure CountedInput (I D : Type) [TimeOrder I] where
  pull : PullEnd I D
  handle : InputHandle I D
  ledger : PortLedger I

/-- A counted output port: the handle of the logic, the retry queue, the push end, the produced ledger and the
capability reporter, with the number of live `Retained`s. -/
structure CountedOutput (T D : Type) [TimeOrder T] where
  handle : OutputHandle T D
  retry : List (T × List D)
  push : PushEnd T D
  ledger : PortLedger T
  reporter : ProgressReporter T
  retainedLive : Nat
  closed : Bool

/-- The justification of a logic call: the times it consumed and its first violation. The capabilities it held are
answered for by the reporters. -/
structure Justify (T : Type) [TimeOrder T] where
  consumed : Antichain T
  inCall : Bool
  violation : Option RunError

/-- The notifications of a logic: the times for which it holds a capability and the first invalid request. -/
structure NotifyContext (T : Type) [TimeOrder T] where
  capabilities : OrderedSet T
  error : Option RunError

/-- What a logic did at its ports, in order. The code keeps no such record; it is for statements only. -/
inductive PortEvent (I T D : Type) where
  | consumed (input : Nat) (time : I) (count : Nat)
  | credited (input : Nat) (time : I) (count : Nat)
  | redeemed (input : Nat) (time : I) (count : Int)
  | emitted (output : Nat) (time : T) (records : List D)
  | acquired (output : Nat) (time : T)
  | refused (output : Nat) (time : T)
  | released (output : Nat) (time : T)
  deriving DecidableEq

/-- The ports of an operator with the justification of its current call. -/
structure Ports (I T D : Type) [TimeOrder I] [TimeOrder T] where
  inputs : List (CountedInput I D)
  outputs : List (CountedOutput T D)
  justify : Justify T
  notify : NotifyContext T
  events : List (PortEvent I T D)

namespace Justify

variable {T D : Type} [TimeOrder T]

/-- A time is justified by a consumed time, or by a capability of the output held now or released in the call. -/
def justifies (justify : Justify T) (reporter : ProgressReporter T) (time : T) : Bool :=
  justify.consumed.lessEqual time || reporter.justifies time

/-- This is `consumed`: the call took a batch at the time. A time of another type is left out. -/
def noteConsumed {I : Type} (attach : I → Option T) (justify : Justify T) (time : I) : Justify T :=
  match attach time with
  | none => justify
  | some own => if justify.inCall then { justify with consumed := (justify.consumed.insert own).2 } else justify

@[simp] theorem noteConsumed_inCall {I : Type} (justify : Justify T) (attach : I → Option T) (time : I) :
    (justify.noteConsumed attach time).inCall = justify.inCall := by
  unfold noteConsumed
  split
  · rfl
  · split <;> rfl

variable [ToString T]

def describe (justify : Justify T) (reporter : ProgressReporter T) : String :=
  let released := (reporter.releasedInCall.getD Antichain.new).elements
  let held := (reporter.heldFrontier.extend released).elements.map fun time => "held " ++ toString time
  let elements := held ++ justify.consumed.elements.map fun time => "consumed " ++ toString time
  if elements.isEmpty then "nothing" else ", ".intercalate elements

/-- This is the error of an unjustified time. -/
def unjustified (justify : Justify T) (reporter : ProgressReporter T) (what : String) (output : Nat) (time : T) :
    RunError :=
  .unjustified (what ++ " at " ++ toString time ++ " on output " ++ toString output) (justify.describe reporter)

/-- This is `check`: outside of a call every request passes. -/
def check (justify : Justify T) (reporter : ProgressReporter T) (output : Nat) (time : T) (what : String) :
    Except RunError Unit :=
  if !justify.inCall || justify.justifies reporter time then .ok ()
  else .error (justify.unjustified reporter what output time)

/-- This is `acquire`: the first violation of the call is recorded. -/
def acquire (justify : Justify T) (reporter : ProgressReporter T) (output : Nat) (time : T) (what : String) :
    Except RunError Unit × Justify T :=
  match justify.check reporter output time what with
  | .ok () => (.ok (), justify)
  | .error error => (.error error, { justify with violation := justify.violation.or (some error) })

end Justify

namespace Ports

variable {I T D : Type} [TimeOrder I] [TimeOrder T] (ports : Ports I T D)

/-- The batch that the next `next` of an input returns. -/
def peek (input : Nat) : Option (I × List D) :=
  (ports.inputs[input]?).bind fun port => port.handle.pending.head?

/-- The batches that wait at an input. -/
def waiting (input : Nat) : List (I × List D) :=
  match ports.inputs[input]? with
  | none => []
  | some port => port.handle.pending

/-- This is `next`: the first batch of an input is consumed. -/
def consume (attach : I → Option T) (ports : Ports I T D) (input : Nat) : Ports I T D :=
  match ports.inputs[input]? with
  | none => ports
  | some port =>
    match port.handle.popFront with
    | none => ports
    | some (batch, handle) => { ports with
        inputs := ports.inputs.set input { port with handle := handle.recordConsumed batch }
        justify := ports.justify.noteConsumed attach batch.1
        events := ports.events ++ [.consumed input batch.1 batch.2.length] }

/-- This is `next_on_credit`: the batch leaves the handle and nothing is recorded. -/
def credit (input : Nat) : Ports I T D :=
  match ports.inputs[input]? with
  | none => ports
  | some port =>
    match port.handle.popFront with
    | none => ports
    | some (batch, handle) => { ports with
        inputs := ports.inputs.set input { port with handle := handle }
        events := ports.events ++ [.credited input batch.1 batch.2.length] }

def redeem (input : Nat) (time : I) (count : Int) : Ports I T D :=
  match ports.inputs[input]? with
  | none => ports
  | some port => { ports with
      inputs := ports.inputs.set input { port with ledger := port.ledger.update time count }
      events := ports.events ++ [.redeemed input time count] }

/-- The batch joins the session of the output. -/
def emit (output : Nat) (time : T) (records : List D) : Ports I T D :=
  match ports.outputs[output]? with
  | none => ports
  | some port => { ports with
      outputs := ports.outputs.set output { port with handle := port.handle.pushVec time records }
      events := ports.events ++ [.emitted output time records] }

/-- A new capability of the output is counted by its reporter. -/
def acquire (output : Nat) (time : T) : Ports I T D :=
  match ports.outputs[output]? with
  | none => ports
  | some port => { ports with
      outputs := ports.outputs.set output { port with reporter := port.reporter.update time 1 }
      events := ports.events ++ [.acquired output time] }

/-- A capability object of the output is dropped; there is one for each held count. -/
def release (output : Nat) (time : T) : Ports I T D :=
  match ports.outputs[output]? with
  | none => ports
  | some port =>
    if port.reporter.heldAt time > 0 then { ports with
      outputs := ports.outputs.set output { port with reporter := port.reporter.release time }
      events := ports.events ++ [.released output time] }
    else ports

/-- The number of live `Retained`s of an output. -/
def setRetained (output : Nat) (change : Nat → Nat) : Ports I T D :=
  match ports.outputs[output]? with
  | none => ports
  | some port => { ports with
      outputs := ports.outputs.set output { port with retainedLive := change port.retainedLive } }

/-- This is the drop of a `Retained`, on any task. -/
def dropRetained (output : Nat) (time : T) : Ports I T D :=
  match ports.outputs[output]? with
  | none => ports
  | some port =>
    if port.retainedLive > 0 ∧ port.reporter.heldAt time > 0 then
      (ports.release output time).setRetained output (· - 1)
    else ports

/-- Whether a capability at the earlier time can be delayed to the later one. -/
def canDelay (output : Nat) (earlier later : T) : Bool :=
  match ports.outputs[output]? with
  | none => false
  | some port => port.reporter.heldAt earlier > 0 ∧ earlier ≤ later

/-- This is the drop of `next_notification`: the capability of the time leaves the map. -/
def dropNotified (time : T) : Ports I T D :=
  if ports.notify.capabilities.contains time then
    { ports.release 0 time with
      notify := { ports.notify with capabilities := ports.notify.capabilities.remove time } }
  else ports

/-- A refused request is remembered for statements. -/
def refuse (output : Nat) (time : T) : Ports I T D :=
  { ports with events := ports.events ++ [.refused output time] }

variable [ToString T]

/-- This is `retain`: an unjustified request is recorded as a violation and holds nothing. -/
def retain (output : Nat) (time : T) : Ports I T D :=
  match ports.outputs[output]? with
  | none => ports
  | some port =>
    match ports.justify.acquire port.reporter output time "retain" with
    | (.ok _, _) => (ports.acquire output time).setRetained output (· + 1)
    | (.error _, justify) => ({ ports with justify := justify } : Ports I T D).refuse output time

/-- This is `try_notify_at`: one capability per time is enough. -/
def tryNotifyAt (time : T) : Except RunError Unit × Ports I T D :=
  match ports.outputs[0]? with
  | none => (.ok (), ports)
  | some port =>
    match ports.justify.check port.reporter 0 time "notify_at" with
    | .error error => (.error error, ports)
    | .ok _ =>
      if ports.notify.capabilities.contains time then (.ok (), ports)
      else (.ok (), { ports.acquire 0 time with
        notify := { ports.notify with capabilities := ports.notify.capabilities.insert time } })

/-- This is `notify_at`: the first invalid request fails the operator once its logic returns. -/
def notifyAt (time : T) : Ports I T D :=
  match ports.tryNotifyAt time with
  | (.ok _, next) => next
  | (.error error, next) =>
    ({ next with notify := { next.notify with error := next.notify.error.or (some error) } } : Ports I T D).refuse 0
      time

end Ports

/-- What a logic can do at its ports. -/
inductive PortOp (I T D : Type) where
  | next (input : Nat)
  | nextOnCredit (input : Nat)
  | redeem (input : Nat) (time : I) (count : Int)
  | pushVec (output : Nat) (time : T) (records : List D)
  | retain (output : Nat) (time : T)
  | dropRetained (output : Nat) (time : T)
  | notifyAt (time : T)
  | tryNotifyAt (time : T)
  | nextNotification (time : T)
  | capture (input output : Nat)
  | dropCapability (output : Nat) (time : T)
  | delayed (output : Nat) (earlier later : T)
  | downgrade (output : Nat) (earlier later : T)

section Logic

variable {I T D : Type} [TimeOrder I] [TimeOrder T] [ToString T]

/-- One operation of a logic. A `Retained` that another task drops during the call is an operation as well. -/
def Ports.perform (attach : I → Option T) (ports : Ports I T D) : PortOp I T D → Ports I T D
  | .next input => ports.consume attach input
  | .nextOnCredit input => ports.credit input
  | .redeem input time count => ports.redeem input time count
  | .pushVec output time records => ports.emit output time records
  | .retain output time => ports.retain output time
  | .dropRetained output time => ports.dropRetained output time
  | .notifyAt time => ports.notifyAt time
  | .tryNotifyAt time => (ports.tryNotifyAt time).2
  | .nextNotification time => ports.dropNotified time
  | .capture input output =>
    -- The batch of an asynchronous task: it is consumed and held at its time until its result is emitted.
    match (ports.peek input).bind fun batch => attach batch.1 with
    | none => ports
    | some time => (ports.consume attach input).acquire output time
  | .dropCapability output time => ports.release output time
  | .delayed output earlier later => if ports.canDelay output earlier later then ports.acquire output later else ports
  | .downgrade output earlier later =>
    if ports.canDelay output earlier later then (ports.release output earlier).acquire output later else ports

/-- One call of a logic: it reads its ports and acts on them until it returns. -/
inductive Program (I T D R : Type) [TimeOrder I] [TimeOrder T] where
  | done (result : R)
  | observe (next : Ports I T D → Program I T D R)
  | act (op : PortOp I T D) (next : Program I T D R)

def Program.run {R : Type} (attach : I → Option T) : Program I T D R → Ports I T D → R × Ports I T D
  | .done result, ports => (result, ports)
  | .observe next, ports => (next ports).run attach ports
  | .act op next, ports => next.run attach (ports.perform attach op)

/-- What an operator does without any port input and output. -/
structure OperatorLogic (I T D L : Type) [TimeOrder I] [TimeOrder T] where
  call : L → Program I T D (Except RunError Bool × L)
  wantsCall : L → List (CountedInput I D) → Bool
  holdsWork : L → NotifyContext T → Bool
  waitingForAsync : L → Bool
  blocked : L → Bool
  updateFrontier : L → Antichain I → L
  closeExternalInput : L → L
  checksJustification : Bool
  callsOnFrontier : Bool
  attach : I → Option T

end Logic

end Instancy
