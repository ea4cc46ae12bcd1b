import Instancy.Dataflow.Steps
import Instancy.Library.Pointwise

namespace Instancy

open Relation Library

section Events

variable {I T D : Type}

namespace PortEvent

/-- The records that the event takes from an input, on credit or not. -/
def taken (input : Nat) : PortEvent I T D → Option (I × Int)
  | .consumed index time count => if index = input then some (time, count) else none
  | .credited index time count => if index = input then some (time, count) else none
  | _ => none

/-- The records that the event consumes from an input. -/
def consumption (input : Nat) : PortEvent I T D → Option (I × Int)
  | .consumed index time count => if index = input then some (time, count) else none
  | _ => none

/-- The records that the event takes from an input on credit. -/
def credit (input : Nat) : PortEvent I T D → Option (I × Int)
  | .credited index time count => if index = input then some (time, count) else none
  | _ => none

/-- The credit of an input that the event redeems. -/
def redemption (input : Nat) : PortEvent I T D → Option (I × Int)
  | .redeemed index time count => if index = input then some (time, count) else none
  | _ => none

/-- The batch that the event emits on an output; an empty one is none. -/
def emission (output : Nat) : PortEvent I T D → Option (T × List D)
  | .emitted index time (first :: rest) => if index = output then some (time, first :: rest) else none
  | _ => none

/-- The capability of an output that the event acquires or releases. -/
def capabilityChange (output : Nat) : PortEvent I T D → Option (T × Int)
  | .acquired index time => if index = output then some (time, 1) else none
  | .released index time => if index = output then some (time, -1) else none
  | _ => none

end PortEvent

/-- The records that the events take from an input. -/
def takenOf (input : Nat) (events : List (PortEvent I T D)) : List (I × Int) := events.filterMap (PortEvent.taken input)

def consumedOf (input : Nat) (events : List (PortEvent I T D)) : List (I × Int) :=
  events.filterMap (PortEvent.consumption input)

def creditedOf (input : Nat) (events : List (PortEvent I T D)) : List (I × Int) :=
  events.filterMap (PortEvent.credit input)

def redeemedOf (input : Nat) (events : List (PortEvent I T D)) : List (I × Int) :=
  events.filterMap (PortEvent.redemption input)

def emittedOf (output : Nat) (events : List (PortEvent I T D)) : List (T × List D) :=
  events.filterMap (PortEvent.emission output)

def capabilityChangesOf (output : Nat) (events : List (PortEvent I T D)) : List (T × Int) :=
  events.filterMap (PortEvent.capabilityChange output)

/-- The number of records of each batch. -/
def sizes {A : Type} (batches : List (A × List D)) : List (A × Int) := batches.map fun batch => (batch.1, (batch.2.length : Int))

@[simp] theorem sizes_append {A : Type} (first second : List (A × List D)) :
    sizes (first ++ second) = sizes first ++ sizes second := List.map_append

/-- What is taken is consumed or on credit. -/
theorem takenOf_net [DecidableEq I] (input : Nat) (events : List (PortEvent I T D)) (time : I) :
    netOf (takenOf input events) time = netOf (consumedOf input events) time + netOf (creditedOf input events) time := by
  induction events with
  | nil => rfl
  | cons event rest ih =>
    have split (view : PortEvent I T D → Option (I × Int)) :
        netOf ((event :: rest).filterMap view) time =
          netOf (view event).toList time + netOf (rest.filterMap view) time := by
      cases shape : view event <;> simp [shape]
    unfold takenOf consumedOf creditedOf at ih ⊢
    rw [split, split, split]
    cases event with
    | consumed index taken count =>
      simp only [PortEvent.taken, PortEvent.consumption, PortEvent.credit, Option.toList_none, netOf_nil]
      omega
    | credited index taken count =>
      simp only [PortEvent.taken, PortEvent.consumption, PortEvent.credit, Option.toList_none, netOf_nil]
      omega
    | redeemed | emitted | acquired | refused | released =>
      simp only [PortEvent.taken, PortEvent.consumption, PortEvent.credit, Option.toList_none, netOf_nil]
      omega

/-- Only an acquired capability is a positive change. -/
theorem acquired_of_changes [DecidableEq T] {output : Nat} {events : List (PortEvent I T D)} {time : T}
    (positive : 0 < netOf (capabilityChangesOf output events) time) : .acquired output time ∈ events := by
  induction events with
  | nil => exact absurd positive (lt_irrefl 0)
  | cons event rest ih =>
    by_contra none
    apply none
    apply List.mem_cons_of_mem
    apply ih
    apply lt_of_lt_of_le positive
    have split : capabilityChangesOf output (event :: rest) =
        (PortEvent.capabilityChange output event).toList ++ capabilityChangesOf output rest := by
      unfold capabilityChangesOf
      cases shape : PortEvent.capabilityChange output event <;> simp [shape]
    have first : netOf (PortEvent.capabilityChange output event).toList time ≤ 0 := by
      cases event with
      | acquired index early =>
        simp only [PortEvent.capabilityChange]
        by_cases same : index = output ∧ early = time
        · obtain ⟨sameIndex, sameTime⟩ := same
          subst sameIndex sameTime
          exact absurd List.mem_cons_self none
        · split
          · rename_i sameIndex
            simp [show early ≠ time from fun sameTime => same ⟨sameIndex, sameTime⟩]
          · simp
      | released index early =>
        simp only [PortEvent.capabilityChange]
        split
        · simp only [Option.toList_some, netOf_cons, netOf_nil]
          split <;> omega
        · simp
      | consumed | credited | redeemed | emitted | refused => exact le_refl 0
    rw [split, netOf_append]
    omega

end Events

section InputEffects

variable {I T D : Type} [TimeOrder I]

/-- What events do to an input. -/
structure InputEffect (events : List (PortEvent I T D)) (index : Nat) (before after : CountedInput I D) : Prop where
  pull : after.pull = before.pull
  exhausted : after.handle.exhausted = before.handle.exhausted
  frontier : after.handle.frontier = before.handle.frontier
  pending : sizes before.handle.pending = takenOf index events ++ sizes after.handle.pending
  consumed : ∀ time, after.handle.consumed.net time = before.handle.consumed.net time + netOf (consumedOf index events) time
  ledger : ∀ time, after.ledger.net time = before.ledger.net time + netOf (redeemedOf index events) time

theorem InputEffect.idle {events : List (PortEvent I T D)} {index : Nat} (taken : takenOf index events = [])
    (consumed : consumedOf index events = []) (redeemed : redeemedOf index events = []) (port : CountedInput I D) :
    InputEffect events index port port where
  pull := rfl
  exhausted := rfl
  frontier := rfl
  pending := by rw [taken, List.nil_append]
  consumed time := by rw [consumed, netOf_nil, Int.add_zero]
  ledger time := by rw [redeemed, netOf_nil, Int.add_zero]

theorem InputEffect.trans {first second : List (PortEvent I T D)} {index : Nat} {before middle after : CountedInput I D}
    (one : InputEffect first index before middle) (two : InputEffect second index middle after) :
    InputEffect (first ++ second) index before after where
  pull := two.pull.trans one.pull
  exhausted := two.exhausted.trans one.exhausted
  frontier := two.frontier.trans one.frontier
  pending := by rw [one.pending, two.pending, takenOf, takenOf, takenOf, List.filterMap_append, List.append_assoc]
  consumed time := by
    rw [two.consumed, one.consumed, consumedOf, consumedOf, consumedOf, List.filterMap_append, netOf_append, Int.add_assoc]
  ledger time := by
    rw [two.ledger, one.ledger, redeemedOf, redeemedOf, redeemedOf, List.filterMap_append, netOf_append, Int.add_assoc]

end InputEffects

section OutputEffects

variable {I T D : Type} [TimeOrder T]

theorem CountedOutput.produced_net (batches : List (T × List D)) (time : T) :
    (CountedOutput.produced batches).net time = netOf (sizes batches) time := by
  have folded (changes : ChangeBatch T) :
      (batches.foldl (fun changes batch => changes.update batch.1 batch.2.length) changes).net time =
        changes.net time + netOf (sizes batches) time := by
    induction batches generalizing changes with
    | nil => exact (Int.add_zero _).symm
    | cons batch rest ih =>
      rw [List.foldl_cons, ih, ChangeBatch.update_net]
      exact Int.add_assoc _ _ _
  exact (folded ChangeBatch.new).trans (Int.zero_add _)

/-- The session is counted as produced. -/
theorem CountedOutput.queueSession_ledger (output : CountedOutput T D) (time : T) :
    output.queueSession.ledger.net time = output.ledger.net time + netOf (sizes output.handle.buffer) time := by
  have all : output.handle.buffer.filter (fun batch => !batch.2.isEmpty) = output.handle.buffer := by
    rw [List.filter_eq_self]
    intro batch member
    rw [Bool.not_eq_true', List.isEmpty_eq_false_iff]
    exact output.handle.filled batch member
  unfold queueSession
  simp only [all, PortLedger.absorb_net, produced_net]

/-- What events do to an output. -/
structure OutputEffect (events : List (PortEvent I T D)) (index : Nat) (before after : CountedOutput T D) : Prop where
  buffer : after.handle.buffer = before.handle.buffer ++ emittedOf index events
  retry : after.retry = before.retry
  push : after.push = before.push
  ledger : after.ledger = before.ledger
  closed : after.closed = before.closed
  held : ∀ time,
    after.reporter.heldAt time = before.reporter.heldAt time + netOf (capabilityChangesOf index events) time
  changes : ∀ time,
    after.reporter.pending.net time = before.reporter.pending.net time + netOf (capabilityChangesOf index events) time

variable {index : Nat}

theorem OutputEffect.idle {events : List (PortEvent I T D)} (emitted : emittedOf index events = [])
    (changes : capabilityChangesOf index events = []) (port : CountedOutput T D) :
    OutputEffect events index port port where
  buffer := by rw [emitted, List.append_nil]
  retry := rfl
  push := rfl
  ledger := rfl
  closed := rfl
  held time := by rw [changes, netOf_nil, Int.add_zero]
  changes time := by rw [changes, netOf_nil, Int.add_zero]

theorem OutputEffect.trans {first second : List (PortEvent I T D)}
    {before middle after : CountedOutput T D} (one : OutputEffect first index before middle)
    (two : OutputEffect second index middle after) : OutputEffect (first ++ second) index before after where
  buffer := by
    rw [two.buffer, one.buffer, emittedOf, emittedOf, emittedOf, List.filterMap_append, List.append_assoc]
  retry := two.retry.trans one.retry
  push := two.push.trans one.push
  ledger := two.ledger.trans one.ledger
  closed := two.closed.trans one.closed
  held time := by
    rw [two.held, one.held, capabilityChangesOf, capabilityChangesOf, capabilityChangesOf, List.filterMap_append,
      netOf_append, Int.add_assoc]
  changes time := by
    rw [two.changes, one.changes, capabilityChangesOf, capabilityChangesOf, capabilityChangesOf, List.filterMap_append,
      netOf_append, Int.add_assoc]

/-- A capability change of the reporter is the effect of its event. -/
theorem OutputEffect.of_update {event : PortEvent I T D} {time : T} {diff : Int}
    (emitted : emittedOf index [event] = []) (change : capabilityChangesOf index [event] = [(time, diff)])
    (port : CountedOutput T D) :
    OutputEffect [event] index port { port with reporter := port.reporter.update time diff } where
  buffer := by rw [emitted, List.append_nil]
  retry := rfl
  push := rfl
  ledger := rfl
  closed := rfl
  held query := by rw [change, ProgressReporter.update_heldAt, netOf_cons, netOf_nil, Int.add_zero]
  changes query := by
    rw [change, netOf_cons, netOf_nil, Int.add_zero]
    exact ChangeBatch.update_net port.reporter.pending time diff query

end OutputEffects

section Effects

variable {I T D : Type} [TimeOrder I] [TimeOrder T]

/-- What events do to the ports. -/
structure Ports.Effect (events : List (PortEvent I T D)) (before after : Ports I T D) : Prop where
  logged : after.events = before.events ++ events
  inputs : Pointwise (InputEffect events) before.inputs after.inputs
  outputs : Pointwise (OutputEffect events) before.outputs after.outputs

namespace Ports.Effect

theorem refl (ports : Ports I T D) : Effect [] ports ports where
  logged := (List.append_nil _).symm
  inputs := Pointwise.refl (fun _ port => InputEffect.idle rfl rfl rfl port) ports.inputs
  outputs := Pointwise.refl (fun _ port => OutputEffect.idle rfl rfl port) ports.outputs

theorem trans {first second : List (PortEvent I T D)} {before middle after : Ports I T D}
    (one : Effect first before middle) (two : Effect second middle after) : Effect (first ++ second) before after where
  logged := by rw [two.logged, one.logged, List.append_assoc]
  inputs := one.inputs.trans (fun _ _ _ _ => InputEffect.trans) two.inputs
  outputs := one.outputs.trans (fun _ _ _ _ => OutputEffect.trans) two.outputs

/-- The event is about one input. -/
theorem of_input {ports next : Ports I T D} {event : PortEvent I T D} {index : Nat} {port changed : CountedInput I D}
    (logged : next.events = ports.events ++ [event]) (outputs : next.outputs = ports.outputs)
    (inputs : next.inputs = ports.inputs.set index changed) (found : ports.inputs[index]? = some port)
    (here : InputEffect [event] index port changed)
    (elsewhere : ∀ other, index ≠ other → takenOf other [event] = [] ∧ consumedOf other [event] = [] ∧
      redeemedOf other [event] = [])
    (silent : ∀ other, emittedOf other [event] = [] ∧ capabilityChangesOf other [event] = []) :
    Effect [event] ports next where
  logged := logged
  inputs := by
    rw [inputs]
    apply Pointwise.set found here
    intro other item apart
    obtain ⟨taken, consumed, redeemed⟩ := elsewhere other apart
    exact InputEffect.idle taken consumed redeemed item
  outputs := by
    rw [outputs]
    exact Pointwise.refl (fun other item => OutputEffect.idle (silent other).1 (silent other).2 item) ports.outputs

/-- The event is about one output. -/
theorem of_output {ports next : Ports I T D} {event : PortEvent I T D} {index : Nat} {port changed : CountedOutput T D}
    (logged : next.events = ports.events ++ [event]) (inputs : next.inputs = ports.inputs)
    (outputs : next.outputs = ports.outputs.set index changed) (found : ports.outputs[index]? = some port)
    (here : OutputEffect [event] index port changed)
    (elsewhere : ∀ other, index ≠ other → emittedOf other [event] = [] ∧ capabilityChangesOf other [event] = [])
    (silent : ∀ other, takenOf other [event] = [] ∧ consumedOf other [event] = [] ∧ redeemedOf other [event] = []) :
    Effect [event] ports next where
  logged := logged
  inputs := by
    rw [inputs]
    apply Pointwise.refl
    intro other item
    obtain ⟨taken, consumed, redeemed⟩ := silent other
    exact InputEffect.idle taken consumed redeemed item
  outputs := by
    rw [outputs]
    apply Pointwise.set found here
    intro other item apart
    exact OutputEffect.idle (elsewhere other apart).1 (elsewhere other apart).2 item

end Ports.Effect

variable {attach : I → Option T}

/-- The effect of a step is the effect of its event. -/
theorem PortStep.effect {ports next : Ports I T D} (step : PortStep attach ports next) :
    ∃ events, Ports.Effect events ports next := by
  cases step with
  | consume found popped =>
    obtain ⟨pending, exhausted, frontier, consumed⟩ := InputHandle.popFront_some popped
    refine ⟨_, Ports.Effect.of_input rfl rfl rfl found ⟨rfl, exhausted, frontier, ?_, fun time => ?_, fun time => ?_⟩
      (fun other apart => ?_) fun _ => ⟨rfl, rfl⟩⟩
    · simp [pending, sizes, takenOf, PortEvent.taken, InputHandle.recordConsumed]
    · simp [InputHandle.recordConsumed, consumed, consumedOf, PortEvent.consumption]
    · exact (Int.add_zero _).symm
    · simp [takenOf, PortEvent.taken, consumedOf, PortEvent.consumption, redeemedOf, PortEvent.redemption, apart]
  | credit found popped =>
    obtain ⟨pending, exhausted, frontier, consumed⟩ := InputHandle.popFront_some popped
    refine ⟨_, Ports.Effect.of_input rfl rfl rfl found ⟨rfl, exhausted, frontier, ?_, fun time => ?_, fun time => ?_⟩
      (fun other apart => ?_) fun _ => ⟨rfl, rfl⟩⟩
    · simp [pending, sizes, takenOf, PortEvent.taken]
    · exact (congrArg (fun changes => ChangeBatch.net changes time) consumed).trans (Int.add_zero _).symm
    · exact (Int.add_zero _).symm
    · simp [takenOf, PortEvent.taken, consumedOf, PortEvent.consumption, redeemedOf, PortEvent.redemption, apart]
  | redeem time count found =>
    refine ⟨_, Ports.Effect.of_input rfl rfl rfl found ⟨rfl, rfl, rfl, rfl, fun query => ?_, fun query => ?_⟩
      (fun other apart => ?_) fun _ => ⟨rfl, rfl⟩⟩
    · exact (Int.add_zero _).symm
    · simp [redeemedOf, PortEvent.redemption]
    · simp [takenOf, PortEvent.taken, consumedOf, PortEvent.consumption, redeemedOf, PortEvent.redemption, apart]
  | emit time records found =>
    refine ⟨_, Ports.Effect.of_output rfl rfl rfl found ⟨?_, rfl, rfl, rfl, rfl, fun query => ?_, fun query => ?_⟩
      (fun other apart => ?_) fun _ => ⟨rfl, rfl, rfl⟩⟩
    · cases records <;> simp [OutputHandle.pushVec, emittedOf, PortEvent.emission]
    · exact (Int.add_zero _).symm
    · exact (Int.add_zero _).symm
    · cases records <;> simp [emittedOf, PortEvent.emission, capabilityChangesOf, PortEvent.capabilityChange, apart]
  | acquire time found justified =>
    refine ⟨_, Ports.Effect.of_output rfl rfl rfl found (OutputEffect.of_update rfl ?_ _)
      (fun other apart => ⟨rfl, ?_⟩) fun _ => ⟨rfl, rfl, rfl⟩⟩
    · simp [capabilityChangesOf, PortEvent.capabilityChange]
    · simp [capabilityChangesOf, PortEvent.capabilityChange, apart]
  | release time found held =>
    refine ⟨_, Ports.Effect.of_output rfl rfl rfl found (OutputEffect.of_update rfl ?_ _)
      (fun other apart => ⟨rfl, ?_⟩) fun _ => ⟨rfl, rfl, rfl⟩⟩
    · simp [capabilityChangesOf, PortEvent.capabilityChange]
    · simp [capabilityChangesOf, PortEvent.capabilityChange, apart]
  | setRetained live found =>
    refine ⟨[], (List.append_nil _).symm, (Ports.Effect.refl ports).inputs, Pointwise.set found ?_ fun _ item _ => ?_⟩
    · exact ⟨(List.append_nil _).symm, rfl, rfl, rfl, rfl, fun _ => (Int.add_zero _).symm, fun _ => (Int.add_zero _).symm⟩
    · exact OutputEffect.idle rfl rfl item
  | hold capabilities =>
    exact ⟨[], (List.append_nil _).symm, (Ports.Effect.refl ports).inputs, (Ports.Effect.refl ports).outputs⟩
  | refuseRetain output time error unjustified =>
    exact ⟨[.refused output time], rfl, Pointwise.refl (fun _ port => InputEffect.idle rfl rfl rfl port) ports.inputs,
      Pointwise.refl (fun _ port => OutputEffect.idle rfl rfl port) ports.outputs⟩
  | refuseNotify time error unjustified =>
    exact ⟨[.refused 0 time], rfl, Pointwise.refl (fun _ port => InputEffect.idle rfl rfl rfl port) ports.inputs,
      Pointwise.refl (fun _ port => OutputEffect.idle rfl rfl port) ports.outputs⟩

theorem PortSteps.effect {ports next : Ports I T D} (steps : PortSteps attach ports next) :
    ∃ events, Ports.Effect events ports next := by
  induction steps with
  | refl => exact ⟨[], Ports.Effect.refl ports⟩
  | tail _ last ih =>
    obtain ⟨first, before⟩ := ih
    obtain ⟨second, after⟩ := last.effect
    exact ⟨first ++ second, before.trans after⟩

end Effects

section Call

variable {I T D L : Type} [TimeOrder I] [TimeOrder T]

theorem Ports.begin_effect (ports : Ports I T D) : Ports.Effect [] ports ports.begin where
  logged := (List.append_nil _).symm
  inputs := (Ports.Effect.refl ports).inputs
  outputs := Pointwise.map fun _ _ => ⟨(List.append_nil _).symm, rfl, rfl, rfl, rfl, fun _ => (Int.add_zero _).symm,
    fun _ => (Int.add_zero _).symm⟩

namespace OperatorShell

variable [ToString T] (logic : OperatorLogic I T D L) (shell : OperatorShell I T D L)

/-- What the logic does at its ports in the call. -/
def callEvents : List (PortEvent I T D) := (shell.callLogic logic).2.events.drop shell.ports.events.length

theorem callLogic_steps : PortSteps logic.attach shell.ports.begin (shell.callLogic logic).2 :=
  @Program.run_steps I T D _ _ logic.attach _ _ _ (logic.call shell.state) shell.ports.begin_inCall

/-- The effect of a call is the effect of what the logic does. -/
theorem callLogic_effect : Ports.Effect (shell.callEvents logic) shell.ports (shell.callLogic logic).2 := by
  obtain ⟨events, effect⟩ := (shell.callLogic_steps logic).effect
  have all := shell.ports.begin_effect.trans effect
  rw [List.nil_append] at all
  have same : shell.callEvents logic = events := by
    rw [callEvents, all.logged, List.drop_left]
  exact same ▸ all

end OperatorShell

end Call

/-- A closure that does the same at every call. -/
def closureOf (ops : List (PortOp Nat Nat Nat)) (result : Except RunError Bool) : OperatorLogic Nat Nat Nat Unit where
  call _ := ops.foldr Program.act (.done (result, ()))
  wantsCall _ _ := true
  holdsWork _ _ := false
  waitingForAsync _ := false
  blocked _ := false
  updateFrontier state _ := state
  closeExternalInput state := state
  checksJustification := true
  callsOnFrontier := true
  attach := some

end Instancy
