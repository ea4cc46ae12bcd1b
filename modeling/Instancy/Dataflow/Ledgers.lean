import Instancy.Dataflow.ShellRun
import Instancy.Library.Fallible

namespace Instancy

open Relation Library

@[simp] theorem sizes_cons {A D : Type} (batch : A × List D) (rest : List (A × List D)) :
    sizes (batch :: rest) = (batch.1, (batch.2.length : Int)) :: sizes rest := rfl

section Pulling

variable {I D : Type} [TimeOrder I]

/-- A pull moves records from the channel into the handle. -/
structure CountedInput.Pulled (before after : CountedInput I D) : Prop where
  ledger : after.ledger = before.ledger
  consumed : after.handle.consumed = before.handle.consumed
  arrived : ∃ batches : List (I × List D), after.pull.pulled = before.pull.pulled ++ batches ∧
    after.handle.pending = before.handle.pending ++ batches.filter fun batch => !batch.2.isEmpty

theorem sizes_filter_net (batches : List (I × List D)) (time : I) :
    netOf (sizes (batches.filter fun batch => !batch.2.isEmpty)) time = netOf (sizes batches) time := by
  induction batches with
  | nil => rfl
  | cons batch rest ih =>
    obtain ⟨at_time, records⟩ := batch
    cases records with
    | nil => simpa using ih
    | cons first others => simpa using ih

namespace CountedInput.Pulled

theorem refl (input : CountedInput I D) : Pulled input input :=
  ⟨rfl, rfl, [], (List.append_nil _).symm, (List.append_nil _).symm⟩

theorem trans {first second third : CountedInput I D} (one : Pulled first second) (two : Pulled second third) :
    Pulled first third := by
  obtain ⟨early, earlyPulled, earlyPending⟩ := one.arrived
  obtain ⟨late, latePulled, latePending⟩ := two.arrived
  refine ⟨two.ledger.trans one.ledger, two.consumed.trans one.consumed, early ++ late, ?_, ?_⟩
  · rw [latePulled, earlyPulled, List.append_assoc]
  · rw [latePending, earlyPending, List.filter_append, List.append_assoc]

end CountedInput.Pulled

theorem InputHandle.pushVec_pending (handle : InputHandle I D) (time : I) (records : List D) :
    (handle.pushVec time records).pending =
      handle.pending ++ [(time, records)].filter fun batch => !batch.2.isEmpty := by
  cases records with
  | nil => simp [InputHandle.pushVec]
  | cons first rest => rfl

theorem InputHandle.pushVec_consumed (handle : InputHandle I D) (time : I) (records : List D) :
    (handle.pushVec time records).consumed = handle.consumed := by
  cases records <;> rfl

/-- Whatever it returns, the loop moves what it pulls into the handle. -/
theorem CountedInput.pullEnvelopes_pulled (envelopes : List (Envelope I D)) (input : CountedInput I D) (pulled : Bool) :
    CountedInput.Pulled input (pullEnvelopes envelopes input pulled).2 := by
  induction envelopes generalizing input pulled with
  | nil => exact ⟨rfl, rfl, [], (List.append_nil _).symm, (List.append_nil _).symm⟩
  | cons envelope rest ih =>
    cases envelope with
    | data time records =>
      refine Pulled.trans ?_ (ih _ true)
      exact ⟨rfl, input.handle.pushVec_consumed time records, [(time, records)], rfl,
        input.handle.pushVec_pending time records⟩
    | watermark => exact ih input pulled
    | error sourceOperator message => exact ⟨rfl, rfl, [], (List.append_nil _).symm, (List.append_nil _).symm⟩

theorem CountedInput.pullAll_pulled (input : CountedInput I D) : CountedInput.Pulled input input.pullAll.2 := by
  have moved := pullEnvelopes_pulled input.pull.waiting input false
  unfold pullAll
  split
  · rename_i decided
    rwa [decided] at moved
  · rename_i decided
    rw [decided] at moved
    exact ⟨moved.ledger, moved.consumed, moved.arrived⟩

theorem pullInputs_pulled (inputs : List (CountedInput I D)) :
    Pointwise (fun _ => CountedInput.Pulled) inputs (pullInputs inputs).2 := by
  induction inputs with
  | nil => exact Pointwise.refl (fun _ input => CountedInput.Pulled.refl input) []
  | cons input rest ih =>
    have first := input.pullAll_pulled
    unfold pullInputs
    split
    · rename_i decided
      rw [decided] at first
      exact Pointwise.cons first (Pointwise.refl (fun _ other => CountedInput.Pulled.refl other) rest)
    · rename_i decided
      rw [decided] at first
      exact Pointwise.cons first ih

end Pulling

section Flushing

variable {T D : Type} [TimeOrder T]

/-- A flush moves batches from the retry queue into the channel. -/
structure CountedOutput.Flushed (before after : CountedOutput T D) : Prop where
  handle : after.handle = before.handle
  ledger : after.ledger = before.ledger
  moved : after.push.accepted ++ after.retry = before.push.accepted ++ before.retry

theorem CountedOutput.Flushed.refl (output : CountedOutput T D) : Flushed output output := ⟨rfl, rfl, rfl⟩

/-- The batches of the queue are accepted in order, and the rest is kept. -/
theorem CountedOutput.flushQueue_flushed (queue : List (T × List D)) (output : CountedOutput T D) {all : Bool}
    (passed : (flushQueue queue output).1 = .ok all) : Flushed { output with retry := queue } (flushQueue queue output).2 := by
  induction queue generalizing output with
  | nil => exact ⟨rfl, rfl, rfl⟩
  | cons batch rest ih =>
    unfold flushQueue PushEnd.tryPush at passed ⊢
    cases answer : output.push.answers output.push.asked with
    | accept =>
      simp only [answer] at passed ⊢
      have later := ih _ passed
      refine ⟨later.handle, later.ledger, later.moved.trans ?_⟩
      simp
    | backpressure => exact ⟨rfl, rfl, rfl⟩
    | fail error =>
      simp only [answer] at passed
      cases passed

theorem flushOutputs_flushed (outputs : List (CountedOutput T D)) {all : Bool}
    (passed : (flushOutputs outputs).1 = .ok all) :
    Pointwise (fun _ => CountedOutput.Flushed) outputs (flushOutputs outputs).2 := by
  induction outputs generalizing all with
  | nil => exact ⟨rfl, fun _ _ _ impossible _ => by cases impossible⟩
  | cons output rest ih =>
    unfold flushOutputs at passed ⊢
    cases first : output.flush with
    | mk result next =>
      cases result with
      | error error =>
        simp only [first] at passed
        cases passed
      | ok some =>
        have here : CountedOutput.Flushed output next := by
          have flushed := output.flushQueue_flushed output.retry (congrArg Prod.fst first)
          rwa [show output.flushQueue output.retry = (.ok some, next) from first] at flushed
        simp only [first] at passed ⊢
        cases others : (flushOutputs rest).1 with
        | error error =>
          rw [others] at passed
          cases passed
        | ok more => exact Pointwise.cons here (ih others)

end Flushing

section InputLedger

variable {I T D : Type} [TimeOrder I]

/-- The records of an input that the logic took on credit and has not redeemed. -/
def unredeemed (input : Nat) (events : List (PortEvent I T D)) (time : I) : Int :=
  netOf (creditedOf input events) time - netOf (redeemedOf input events) time

/-- The consumed ledger of an input, with what was drained from it before, counts the pulled records that are neither
pending nor on credit. -/
structure InputExact (drained : Nat → List (I × Int)) (events : List (PortEvent I T D)) (index : Nat)
    (input : CountedInput I D) : Prop where
  counted : ∀ time, netOf (drained index) time + input.ledger.net time =
    netOf (sizes input.pull.pulled) time - netOf (sizes input.handle.pending) time - unredeemed index events time
  committed : ∀ time, input.handle.consumed.net time = 0

theorem unredeemed_append (input : Nat) (first second : List (PortEvent I T D)) (time : I) :
    unredeemed input (first ++ second) time = unredeemed input first time + unredeemed input second time := by
  simp only [unredeemed, creditedOf, redeemedOf, List.filterMap_append, netOf_append]
  omega

variable {events : List (PortEvent I T D)} {index : Nat}

theorem InputExact.pulled {drained : Nat → List (I × Int)} {before after : CountedInput I D}
    (balanced : InputExact drained events index before) (pulled : CountedInput.Pulled before after) :
    InputExact drained events index after where
  counted time := by
    obtain ⟨batches, arrived, pending⟩ := pulled.arrived
    have balance := balanced.counted time
    rw [pulled.ledger, arrived, pending, sizes_append, sizes_append, netOf_append, netOf_append, sizes_filter_net]
    omega
  committed time := by
    rw [pulled.consumed]
    exact balanced.committed time

/-- A call that is committed moves what it took into the ledger, except what is on credit. -/
theorem InputExact.called {drained : Nat → List (I × Int)} {before after : CountedInput I D}
    {more : List (PortEvent I T D)} (balanced : InputExact drained events index before)
    (effect : InputEffect more index before after) : InputExact drained (events ++ more) index after.commit where
  counted time := by
    have balance := balanced.counted time
    have settled := balanced.committed time
    have pending := congrArg (netOf · time) effect.pending
    have ledger := effect.ledger time
    have consumed := effect.consumed time
    have taken := takenOf_net index more time
    simp only [netOf_append] at pending
    rw [unredeemed_append]
    simp only [unredeemed] at balance ⊢
    simp only [CountedInput.commit, PortLedger.absorb_net, effect.pull]
    omega
  committed time := PortLedger.absorb_rest _ _ time

end InputLedger

section OutputLedger

variable {I T D : Type} [TimeOrder T]

/-- The produced ledger of an output, with what was drained from it before, counts the records of the batches that
the channel accepted or that wait for it: these are the emitted ones in order. -/
structure OutputExact (drained : Nat → List (T × Int)) (events : List (PortEvent I T D)) (index : Nat)
    (output : CountedOutput T D) : Prop where
  counted : ∀ time, netOf (drained index) time + output.ledger.net time =
    netOf (sizes output.push.accepted) time + netOf (sizes output.retry) time
  ordered : output.push.accepted ++ output.retry = emittedOf index events
  taken : output.handle.buffer = []

variable {events : List (PortEvent I T D)} {index : Nat}

theorem OutputExact.flushed {drained : Nat → List (T × Int)} {before after : CountedOutput T D}
    (balanced : OutputExact drained events index before) (flushed : CountedOutput.Flushed before after) :
    OutputExact drained events index after where
  counted time := by
    have balance := balanced.counted time
    have moved := congrArg (fun batches => netOf (sizes batches) time) flushed.moved
    simp only [sizes_append, netOf_append] at moved
    rw [flushed.ledger]
    omega
  ordered := flushed.moved.trans balanced.ordered
  taken := flushed.handle ▸ balanced.taken

/-- The session of a call that is committed is counted and queued as a whole. -/
theorem OutputExact.called {drained : Nat → List (T × Int)} {before after : CountedOutput T D}
    {more : List (PortEvent I T D)} (balanced : OutputExact drained events index before)
    (effect : OutputEffect more index before after) : OutputExact drained (events ++ more) index after.queueSession where
  counted time := by
    have balance := balanced.counted time
    rw [CountedOutput.queueSession_ledger, CountedOutput.queueSession_retry, sizes_append, netOf_append, effect.ledger,
      effect.retry]
    change _ = netOf (sizes after.push.accepted) time + _
    rw [effect.push]
    omega
  ordered := by
    rw [CountedOutput.queueSession_retry, effect.retry, effect.buffer, balanced.taken]
    change after.push.accepted ++ _ = _
    rw [effect.push, ← List.append_assoc, balanced.ordered]
    exact List.filterMap_append.symm
  taken := rfl

end OutputLedger

section Run

variable {I T D L : Type} [TimeOrder I] [TimeOrder T]

/-- A change that takes, redeems and emits nothing: inputs are pulled, outputs are flushed. -/
structure Ports.Quiet (before after : Ports I T D) : Prop where
  inputs : Pointwise (fun _ => CountedInput.Pulled) before.inputs after.inputs
  outputs : Pointwise (fun _ => CountedOutput.Flushed) before.outputs after.outputs
  unredeemed : ∀ index, unredeemed index after.events = unredeemed index before.events
  emitted : ∀ index, emittedOf index after.events = emittedOf index before.events

namespace Ports.Quiet

theorem of_inputs {before after : Ports I T D}
    (inputs : Pointwise (fun _ => CountedInput.Pulled) before.inputs after.inputs)
    (outputs : after.outputs = before.outputs) (events : after.events = before.events) : Quiet before after where
  inputs := inputs
  outputs := outputs ▸ Pointwise.refl (fun _ output => CountedOutput.Flushed.refl output) before.outputs
  unredeemed _ := by rw [events]
  emitted _ := by rw [events]

theorem of_outputs {before after : Ports I T D}
    (outputs : Pointwise (fun _ => CountedOutput.Flushed) before.outputs after.outputs)
    (inputs : after.inputs = before.inputs) (events : after.events = before.events) : Quiet before after where
  inputs := inputs ▸ Pointwise.refl (fun _ input => CountedInput.Pulled.refl input) before.inputs
  outputs := outputs
  unredeemed _ := by rw [events]
  emitted _ := by rw [events]

theorem refl (ports : Ports I T D) : Quiet ports ports :=
  of_inputs (Pointwise.refl (fun _ input => CountedInput.Pulled.refl input) ports.inputs) rfl rfl

theorem trans {first second third : Ports I T D} (one : Quiet first second) (two : Quiet second third) :
    Quiet first third where
  inputs := one.inputs.trans (fun _ _ _ _ early late => early.trans late) two.inputs
  outputs := one.outputs.trans (fun _ _ _ _ early late => ⟨late.handle.trans early.handle, late.ledger.trans early.ledger,
    late.moved.trans early.moved⟩) two.outputs
  unredeemed index := (two.unredeemed index).trans (one.unredeemed index)
  emitted index := (two.emitted index).trans (one.emitted index)

end Ports.Quiet

namespace Ports

variable (ports : Ports I T D)

/-- One input is changed and keeps its counts. -/
theorem modify_quiet {index : Nat} {change : CountedInput I D → CountedInput I D}
    (keeps : ∀ input, CountedInput.Pulled input (change input)) :
    Quiet ports { ports with inputs := ports.inputs.modify index change } := by
  refine Quiet.of_inputs ⟨(List.length_modify _ _ _).symm, fun place first second left right => ?_⟩ rfl rfl
  rw [List.getElem?_modify, left] at right
  cases right
  split
  · exact keeps first
  · exact CountedInput.Pulled.refl first

theorem release_quiet (output : Nat) (time : T) : Quiet ports (ports.release output time) := by
  unfold release
  split
  · exact Quiet.refl ports
  · rename_i port found
    split
    · refine ⟨(Quiet.refl ports).inputs, ?_, fun index => ?_, fun index => ?_⟩
      · exact Pointwise.set found ⟨rfl, rfl, rfl⟩ fun _ other _ => CountedOutput.Flushed.refl other
      · funext query
        rw [unredeemed_append]
        exact Int.add_zero _
      · simp [emittedOf, PortEvent.emission]
    · exact Quiet.refl ports

theorem setRetained_quiet (output : Nat) (change : Nat → Nat) : Quiet ports (ports.setRetained output change) := by
  unfold setRetained
  split
  · exact Quiet.refl ports
  · rename_i port found
    exact Quiet.of_outputs (Pointwise.set found ⟨rfl, rfl, rfl⟩ fun _ other _ => CountedOutput.Flushed.refl other) rfl rfl

theorem dropRetained_quiet (output : Nat) (time : T) : Quiet ports (ports.dropRetained output time) := by
  unfold dropRetained
  split
  · exact Quiet.refl ports
  · split
    · exact (ports.release_quiet output time).trans (setRetained_quiet _ output _)
    · exact Quiet.refl ports

end Ports

namespace OperatorShell

variable (shell : OperatorShell I T D L)

theorem updatePortFrontier_quiet (port : Nat) (frontier : Antichain I) :
    shell.ports.Quiet (shell.updatePortFrontier port frontier).ports := by
  unfold updatePortFrontier
  split
  · exact Ports.Quiet.refl shell.ports
  · rename_i input found
    split
    · exact Ports.Quiet.refl shell.ports
    · refine Ports.Quiet.of_inputs ?_ rfl rfl
      refine Pointwise.set found ?_ fun _ other _ => CountedInput.Pulled.refl other
      exact ⟨rfl, rfl, [], (List.append_nil _).symm, (List.append_nil _).symm⟩

theorem updatePortFrontier_state (port : Nat) (frontier : Antichain I) :
    (shell.updatePortFrontier port frontier).state = shell.state := by
  unfold updatePortFrontier
  split
  · rfl
  · split <;> rfl

theorem shutDownNow_quiet : shell.ports.Quiet shell.shutDownNow.ports :=
  Ports.Quiet.of_outputs (Pointwise.map fun _ _ => ⟨rfl, rfl, rfl⟩) rfl rfl

end OperatorShell

namespace TrackedShell

/-- An event is an activation, a collection of the ledgers, or takes and emits nothing; what it does to the logic is
told by the logic. -/
theorem event_quiet [ToString T] {logic : OperatorLogic I T D L} {tracked next : TrackedShell I T D L}
    (event : ShellEvent I T D) (passed : tracked.step logic event = .ok next) :
    (∃ shell, next = { tracked with shell := shell } ∧ OperatorShell.Steps logic tracked.shell shell) ∨
    next = tracked.collect ∨
    ∃ shell : OperatorShell I T D L, next = { tracked with shell := shell } ∧
      (shell.state = tracked.shell.state ∨ (∃ frontier, shell.state = logic.updateFrontier tracked.shell.state frontier) ∨
        shell.state = logic.closeExternalInput tracked.shell.state) ∧
      tracked.shell.ports.Quiet shell.ports := by
  have unchanged (input : CountedInput I D) (waiting : List (Envelope I D)) (exhausted : Bool) :
      CountedInput.Pulled input { input with pull := { input.pull with waiting := waiting, exhausted := exhausted } } :=
    ⟨rfl, rfl, [], (List.append_nil _).symm, (List.append_nil _).symm⟩
  cases event with
  | activate => exact Or.inl (step_activate passed)
  | collect =>
    cases passed
    exact Or.inr (Or.inl rfl)
  | deliver input envelope =>
    cases passed
    exact Or.inr (Or.inr ⟨_, rfl, Or.inl rfl, Ports.modify_quiet _ fun _ => unchanged _ _ _⟩)
  | endInput input =>
    cases passed
    exact Or.inr (Or.inr ⟨_, rfl, Or.inl rfl, Ports.modify_quiet _ fun _ => unchanged _ _ _⟩)
  | updatePortFrontier port frontier =>
    cases passed
    exact Or.inr (Or.inr ⟨_, rfl, Or.inl (tracked.shell.updatePortFrontier_state port frontier),
      tracked.shell.updatePortFrontier_quiet port frontier⟩)
  | updateInputFrontier frontier =>
    cases passed
    exact Or.inr (Or.inr ⟨_, rfl, Or.inr (Or.inl ⟨frontier, rfl⟩), Ports.Quiet.refl _⟩)
  | closeExternalInput =>
    cases passed
    exact Or.inr (Or.inr ⟨_, rfl, Or.inr (Or.inr rfl), Ports.Quiet.refl _⟩)
  | dropRetained output time =>
    cases passed
    exact Or.inr (Or.inr ⟨_, rfl, Or.inl rfl, Ports.dropRetained_quiet _ output time⟩)
  | dropCapability output time =>
    cases passed
    exact Or.inr (Or.inr ⟨_, rfl, Or.inl rfl, Ports.release_quiet _ output time⟩)
  | shutDown =>
    cases passed
    exact Or.inr (Or.inr ⟨_, rfl, Or.inl rfl, tracked.shell.shutDownNow_quiet⟩)

/-- The ledgers of all ports are exact. -/
structure Exact (tracked : TrackedShell I T D L) : Prop where
  inputs : AtEach (InputExact tracked.consumed tracked.shell.ports.events) tracked.shell.ports.inputs
  outputs : AtEach (OutputExact tracked.produced tracked.shell.ports.events) tracked.shell.ports.outputs

namespace Exact

variable {tracked : TrackedShell I T D L}

theorem quiet (precise : tracked.Exact) {shell : OperatorShell I T D L}
    (quiet : tracked.shell.ports.Quiet shell.ports) :
    Exact { tracked with shell := shell } where
  inputs := by
    refine quiet.inputs.atEach (fun index _ _ pulled balanced => ?_) precise.inputs
    have after := balanced.pulled pulled
    exact ⟨fun time => (quiet.unredeemed index) ▸ after.counted time, after.committed⟩
  outputs := by
    refine quiet.outputs.atEach (fun index _ _ flushed balanced => ?_) precise.outputs
    have after := balanced.flushed flushed
    exact ⟨after.counted, after.ordered.trans (quiet.emitted index).symm, after.taken⟩

/-- Drained changes stay counted. -/
theorem collect (precise : tracked.Exact) : tracked.collect.Exact where
  inputs index after found := by
    simp only [TrackedShell.collect, OperatorShell.collect, List.getElem?_map, Option.map_eq_some_iff] at found
    obtain ⟨before, here, rfl⟩ := found
    have balanced := precise.inputs index before here
    refine ⟨fun time => ?_, balanced.committed⟩
    have counted := balanced.counted time
    simpa [TrackedShell.collect, OperatorShell.collect, CountedInput.drain, here] using counted
  outputs index after found := by
    simp only [TrackedShell.collect, OperatorShell.collect, List.getElem?_map, Option.map_eq_some_iff] at found
    obtain ⟨before, here, rfl⟩ := found
    have balanced := precise.outputs index before here
    refine ⟨fun time => ?_, balanced.ordered, balanced.taken⟩
    have counted := balanced.counted time
    simpa [TrackedShell.collect, OperatorShell.collect, CountedOutput.drain, here] using counted

variable [ToString T] {logic : OperatorLogic I T D L}

/-- A call that returns no error is counted as a whole. -/
theorem call (precise : tracked.Exact) {did : Bool} (passed : (tracked.shell.runCall logic).1 = .ok did) :
    Exact { tracked with shell := (tracked.shell.runCall logic).2 } := by
  have effect := tracked.shell.callLogic_effect logic
  rcases tracked.shell.runCall_cases logic with ⟨_, _, ran⟩ | ⟨_, _, ⟨_, _, _, _, _, ran⟩ | ⟨_, ran⟩⟩
  · rw [ran] at passed
    cases passed
  · rw [ran] at passed
    cases passed
  · rw [ran]
    constructor
    · apply AtEach.map
      refine effect.inputs.atEach (fun index _ _ moved balanced => ?_) precise.inputs
      change InputExact _ (tracked.shell.callLogic logic).2.events index _
      rw [effect.logged]
      exact balanced.called moved
    · apply AtEach.map
      apply AtEach.map
      refine effect.outputs.atEach (fun index _ _ moved balanced => ?_) precise.outputs
      change OutputExact _ (tracked.shell.callLogic logic).2.events index _
      rw [effect.logged]
      exact (balanced.called moved).flushed ⟨rfl, rfl, rfl⟩

theorem step (precise : tracked.Exact) {next : OperatorShell I T D L}
    (step : OperatorShell.Step logic tracked.shell next) :
    Exact { tracked with shell := next } := by
  cases step with
  | flush alive passed =>
    exact precise.quiet (Ports.Quiet.of_outputs (flushOutputs_flushed _ passed) rfl rfl)
  | pull passed => exact precise.quiet (Ports.Quiet.of_inputs (pullInputs_pulled _) rfl rfl)
  | call alive passed => exact precise.call passed
  | latch ended nothing => exact precise.quiet (Ports.Quiet.refl _)
  | note frontierChanged finalCalled => exact precise.quiet (Ports.Quiet.refl _)

theorem steps (precise : tracked.Exact) {next : OperatorShell I T D L}
    (steps : OperatorShell.Steps logic tracked.shell next) : Exact { tracked with shell := next } := by
  induction steps with
  | refl => exact precise
  | tail _ last ih => exact ih.step last

theorem event (precise : tracked.Exact) {next : TrackedShell I T D L} (event : ShellEvent I T D)
    (passed : tracked.step logic event = .ok next) : next.Exact := by
  rcases event_quiet event passed with ⟨shell, rfl, steps⟩ | rfl | ⟨shell, rfl, _, quiet⟩
  · exact precise.steps steps
  · exact precise.collect
  · exact precise.quiet quiet

end Exact

/-- The ledgers of a new operator are exact. -/
theorem new_exact (name : String) (state : L) (minimum : I) (inputs : Nat)
    (outputs : List ((Nat → PushAnswer) × ProgressReporter T)) :
    (new (OperatorShell.new name state minimum inputs outputs : OperatorShell I T D L)).Exact where
  inputs index input found := by
    obtain rfl := List.eq_of_mem_replicate (List.mem_of_getElem? found)
    exact ⟨fun _ => rfl, fun _ => rfl⟩
  outputs := by
    apply AtEach.map
    exact fun _ _ _ => ⟨fun _ => rfl, rfl, rfl⟩

variable [ToString T] {logic : OperatorLogic I T D L}

/-- The ledgers stay exact as long as no activation returns an error. -/
theorem run_exact {start tracked : TrackedShell I T D L} (precise : start.Exact) {events : List (ShellEvent I T D)}
    (ran : start.run logic events = .ok tracked) : tracked.Exact :=
  foldlM_ok_invariant Exact events (fun event _ _ _ before passed => before.event event passed) precise ran

end TrackedShell

end Run

end Instancy
