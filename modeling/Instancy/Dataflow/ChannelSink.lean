import Instancy.Dataflow.Ledgers

namespace Instancy

open Relation Library

/-- The answer of an external channel to one event. -/
inductive SendAnswer where
  | sent
  | full
  | disconnected

/-- The sending end of an external channel: the events that it took and the answers that it will give. -/
structure OutputSend (E : Type) where
  sent : List E
  answers : Nat → SendAnswer
  asked : Nat

def OutputSend.trySend {E : Type} (sender : OutputSend E) (event : E) : SendAnswer × OutputSend E :=
  match sender.answers sender.asked with
  | .sent => (.sent, { sender with sent := sender.sent ++ [event], asked := sender.asked + 1 })
  | answer => (answer, { sender with asked := sender.asked + 1 })

/-- A sink keeps the event that the full channel did not accept yet, with the credit of its batch. -/
structure ChannelSinkLogic (I E : Type) where
  sender : OutputSend E
  pendingSend : Option (E × (I × Int))
  receiverDropped : Bool
  blocked : Bool

namespace ChannelSinkLogic

variable {I D E : Type} [TimeOrder I]

def new (sender : OutputSend E) : ChannelSinkLogic I E := ⟨sender, none, false, false⟩

/-- The credit of an event is redeemed once the channel accepts it or it is discarded. The continuation is told
whether it was; the event is kept if the channel is full. -/
def forward {R : Type} (sink : ChannelSinkLogic I E) (event : E) (credit : I × Int)
    (next : Bool → ChannelSinkLogic I E → Program I I D R) : Program I I D R :=
  if sink.receiverDropped then .act (.redeem 0 credit.1 credit.2) (next true sink)
  else
    match sink.sender.trySend event with
    | (.sent, sender) => .act (.redeem 0 credit.1 credit.2) (next true { sink with sender := sender })
    | (.full, sender) => next false { sink with sender := sender, pendingSend := some (event, credit) }
    | (.disconnected, sender) =>
      .act (.redeem 0 credit.1 credit.2) (next true { sink with sender := sender, receiverDropped := true })

/-- This is the loop over the waiting batches; a full channel ends it. -/
def forwardAll (makeEvent : I → List D → E) :
    List (I × List D) → ChannelSinkLogic I E → Bool → Program I I D (Except RunError Bool × ChannelSinkLogic I E)
  | [], sink, did => .done (.ok did, sink)
  | batch :: rest, sink, _ =>
    .act (.nextOnCredit 0) (sink.forward (makeEvent batch.1 batch.2) (batch.1, (batch.2.length : Int))
      fun forwarded sink =>
        if forwarded then forwardAll makeEvent rest sink true
        else .done (.ok true, { sink with blocked := true }))

/-- The event that was kept goes first. -/
def call (makeEvent : I → List D → E) (sink : ChannelSinkLogic I E) :
    Program I I D (Except RunError Bool × ChannelSinkLogic I E) :=
  match sink.pendingSend with
  | none => .observe fun ports => forwardAll makeEvent (ports.waiting 0) { sink with blocked := false } false
  | some (event, credit) =>
    forward { sink with blocked := false, pendingSend := none } event credit fun forwarded sink =>
      if forwarded then .observe fun ports => forwardAll makeEvent (ports.waiting 0) sink true
      else .done (.ok false, { sink with blocked := true })

def logic (makeEvent : I → List D → E) : OperatorLogic I I D (ChannelSinkLogic I E) where
  call := call makeEvent
  wantsCall sink inputs := buffered inputs || sink.pendingSend.isSome
  holdsWork sink _ := sink.pendingSend.isSome
  waitingForAsync _ := false
  blocked sink := sink.blocked
  updateFrontier sink _ := sink
  closeExternalInput sink := sink
  checksJustification := true
  callsOnFrontier := false
  attach := some

/-- The credit of the event that the sink keeps. -/
def credits (sink : ChannelSinkLogic I E) : List (I × Int) := sink.pendingSend.toList.map Prod.snd

end ChannelSinkLogic

section Operations

variable {I D : Type} [TimeOrder I] {attach : I → Option I} {ports : Ports I I D}

/-- The ports of a sink: its input, and what its logic owes there. -/
structure Ports.Owing (ports : Ports I I D) (credits : List (I × Int)) : Prop where
  connected : ∃ input, ports.inputs[0]? = some input
  owed : ∀ time, unredeemed 0 ports.events time = netOf credits time

theorem Ports.Owing.redeem {credits : List (I × Int)} {credit : I × Int} (owing : ports.Owing (credit :: credits)) :
    (ports.redeem 0 credit.1 credit.2).Owing credits ∧
      (ports.redeem 0 credit.1 credit.2).waiting 0 = ports.waiting 0 := by
  obtain ⟨input, found⟩ := owing.connected
  obtain ⟨bound, _⟩ := List.getElem?_eq_some_iff.mp found
  unfold Ports.redeem
  rw [found]
  refine ⟨⟨⟨_, List.getElem?_set_self bound⟩, fun time => ?_⟩, ?_⟩
  · have redeemed : unredeemed 0 [(.redeemed 0 credit.1 credit.2 : PortEvent I I D)] time = 0 - netOf [credit] time := rfl
    rw [unredeemed_append, owing.owed time, redeemed]
    simp only [netOf_cons, netOf_nil]
    omega
  · simp only [Ports.waiting, found, List.getElem?_set_self bound]

theorem Ports.Owing.credit {credits : List (I × Int)} (owing : ports.Owing credits) {batch : I × List D}
    {rest : List (I × List D)} (first : ports.waiting 0 = batch :: rest) :
    (ports.credit 0).Owing ((batch.1, (batch.2.length : Int)) :: credits) ∧
      (ports.credit 0).waiting 0 = rest := by
  obtain ⟨input, found⟩ := owing.connected
  obtain ⟨bound, _⟩ := List.getElem?_eq_some_iff.mp found
  simp only [Ports.waiting, found] at first
  obtain ⟨handle, popped, pending⟩ := InputHandle.popFront_of_cons first
  simp only [Ports.credit, found, popped]
  refine ⟨⟨⟨_, List.getElem?_set_self bound⟩, fun time => ?_⟩, ?_⟩
  · have credited : unredeemed 0 [(.credited 0 batch.1 batch.2.length : PortEvent I I D)] time =
        netOf [(batch.1, (batch.2.length : Int))] time - 0 := rfl
    rw [unredeemed_append, owing.owed time, credited]
    simp only [netOf_cons, netOf_nil]
    omega
  · simp only [Ports.waiting, List.getElem?_set_self bound]
    exact pending

end Operations

namespace ChannelSinkLogic

variable {I D E : Type} [TimeOrder I] [ToString I] {attach : I → Option I}

/-- An event that is forwarded owes nothing more, and one that is kept owes its credit. -/
theorem forward_run {R : Type} {sink : ChannelSinkLogic I E} {ports : Ports I I D} {event : E} {credit : I × Int}
    (next : Bool → ChannelSinkLogic I E → Program I I D R) (free : sink.pendingSend = none)
    (owing : ports.Owing [credit]) :
    ∃ forwarded after finish, (sink.forward event credit next).run attach ports = (next forwarded after).run attach finish ∧
      finish.waiting 0 = ports.waiting 0 ∧ finish.Owing after.credits ∧ (forwarded = true → after.pendingSend = none) := by
  obtain ⟨settled, kept⟩ := owing.redeem
  have none : ([] : List (I × Int)) = sink.credits := by simp [credits, free]
  unfold forward
  split
  · exact ⟨true, sink, _, rfl, kept, none ▸ settled, fun _ => free⟩
  · split
    · exact ⟨true, { sink with sender := _ }, _, rfl, kept, none ▸ settled, fun _ => free⟩
    · exact ⟨false, { sink with sender := _, pendingSend := some (event, credit) }, ports, rfl, rfl, owing,
        fun impossible => by cases impossible⟩
    · exact ⟨true, { sink with sender := _, receiverDropped := true }, _, rfl, kept, none ▸ settled, fun _ => free⟩

/-- The loop takes the waiting batches one by one. -/
theorem forwardAll_run (makeEvent : I → List D → E) (batches : List (I × List D)) (sink : ChannelSinkLogic I E)
    (did : Bool) {ports : Ports I I D} (shape : ports.waiting 0 = batches) (free : sink.pendingSend = none)
    (owing : ports.Owing []) :
    ((forwardAll makeEvent batches sink did).run attach ports).2.Owing
      ((forwardAll makeEvent batches sink did).run attach ports).1.2.credits := by
  induction batches generalizing sink did ports with
  | nil => simpa [forwardAll, Program.run, credits, free] using owing
  | cons batch rest ih =>
    obtain ⟨taken, remaining⟩ := owing.credit shape
    unfold forwardAll
    obtain ⟨forwarded, after, finish, ran, kept, owes, freed⟩ := forward_run (fun forwarded sink =>
      if forwarded then forwardAll makeEvent rest sink true else .done (.ok true, { sink with blocked := true })) free taken
    rw [Program.run, show ports.perform attach (.nextOnCredit 0) = ports.credit 0 from rfl, ran]
    cases forwarded with
    | false => exact owes
    | true =>
      have none : after.credits = [] := by simp [credits, freed rfl]
      exact ih after true (kept.trans remaining) (freed rfl) (none ▸ owes)

/-- A call of the sink owes the credit of the event that it keeps. -/
theorem call_run (makeEvent : I → List D → E) (sink : ChannelSinkLogic I E) {ports : Ports I I D}
    (owing : ports.Owing sink.credits) :
    ((call makeEvent sink).run attach ports).2.Owing ((call makeEvent sink).run attach ports).1.2.credits := by
  unfold call
  cases kept : sink.pendingSend with
  | none =>
    have none : sink.credits = [] := by simp [credits, kept]
    exact forwardAll_run makeEvent _ { sink with blocked := false, pendingSend := .none } false rfl rfl (none ▸ owing)
  | some pending =>
    obtain ⟨event, credit⟩ := pending
    have one : sink.credits = [credit] := by simp [credits, kept]
    obtain ⟨forwarded, after, finish, ran, _, owes, freed⟩ := @forward_run I D E _ _ attach _
      { sink with blocked := false, pendingSend := none } ports event credit (fun forwarded sink =>
        if forwarded then .observe fun ports => forwardAll makeEvent (ports.waiting 0) sink true
        else .done (.ok false, { sink with blocked := true })) rfl (one ▸ owing)
    rw [ran]
    cases forwarded with
    | false => exact owes
    | true =>
      have none : after.credits = [] := by simp [credits, freed rfl]
      exact forwardAll_run makeEvent _ after true rfl (freed rfl) (none ▸ owes)

end ChannelSinkLogic

section Run

variable {I D E : Type} [TimeOrder I]

theorem Ports.Owing.quiet {before after : Ports I I D} {credits : List (I × Int)} (owing : before.Owing credits)
    (quiet : before.Quiet after) : after.Owing credits where
  connected := by
    obtain ⟨input, found⟩ := owing.connected
    obtain ⟨next, there, _⟩ := quiet.inputs.right_of_left found
    exact ⟨next, there⟩
  owed time := by
    rw [quiet.unredeemed]
    exact owing.owed time

/-- The inputs are changed in place and nothing is taken or redeemed. -/
theorem Ports.Owing.map {ports next : Ports I I D} {credits : List (I × Int)} (owing : ports.Owing credits)
    {change : CountedInput I D → CountedInput I D} (inputs : next.inputs = ports.inputs.map change)
    (events : next.events = ports.events) : next.Owing credits where
  connected := by
    obtain ⟨input, found⟩ := owing.connected
    refine ⟨change input, ?_⟩
    rw [inputs, List.getElem?_map, found]
    rfl
  owed time := by
    rw [events]
    exact owing.owed time

namespace OperatorShell

variable [ToString I] {makeEvent : I → List D → E}

/-- The logic of the sink owes at the ports exactly the credit of the event it keeps. -/
def Owing (shell : OperatorShell I I D (ChannelSinkLogic I E)) : Prop := shell.ports.Owing shell.state.credits

theorem Owing.call {shell : OperatorShell I I D (ChannelSinkLogic I E)} (owing : shell.Owing) {did : Bool}
    (passed : (shell.runCall (ChannelSinkLogic.logic makeEvent)).1 = .ok did) :
    (shell.runCall (ChannelSinkLogic.logic makeEvent)).2.Owing := by
  have began : shell.ports.begin.Owing shell.state.credits := ⟨owing.connected, owing.owed⟩
  have called : (shell.callLogic (ChannelSinkLogic.logic makeEvent)).2.Owing
      (shell.callLogic (ChannelSinkLogic.logic makeEvent)).1.2.credits :=
    ChannelSinkLogic.call_run makeEvent shell.state began
  rcases shell.runCall_cases (ChannelSinkLogic.logic makeEvent) with
    ⟨_, _, ran⟩ | ⟨_, _, ⟨_, _, _, _, _, ran⟩ | ⟨_, ran⟩⟩
  · rw [ran] at passed
    cases passed
  · rw [ran] at passed
    cases passed
  · rw [ran]
    exact called.map rfl rfl

theorem Owing.steps {shell next : OperatorShell I I D (ChannelSinkLogic I E)} (owing : shell.Owing)
    (steps : Steps (ChannelSinkLogic.logic makeEvent) shell next) : next.Owing := by
  induction steps with
  | refl => exact owing
  | tail _ last before =>
    cases last with
    | flush alive passed => exact before.quiet (Ports.Quiet.of_outputs (flushOutputs_flushed _ passed) rfl rfl)
    | pull passed => exact before.quiet (Ports.Quiet.of_inputs (pullInputs_pulled _) rfl rfl)
    | call alive passed => exact before.call passed
    | latch ended nothing => exact before
    | note frontierChanged finalCalled => exact before

end OperatorShell

namespace TrackedShell

variable [ToString I] {makeEvent : I → List D → E}

theorem owing_event {before after : TrackedShell I I D (ChannelSinkLogic I E)} (owing : before.shell.Owing)
    (event : ShellEvent I I D) (passed : before.step (ChannelSinkLogic.logic makeEvent) event = .ok after) :
    after.shell.Owing := by
  rcases event_quiet event passed with ⟨shell, rfl, steps⟩ | rfl | ⟨shell, rfl, state, quiet⟩
  · exact owing.steps steps
  · exact owing.map rfl rfl
  · have same : shell.state.credits = before.shell.state.credits := by
      rcases state with same | ⟨_, same⟩ | same <;> rw [same] <;> rfl
    unfold OperatorShell.Owing
    rw [same]
    exact owing.quiet quiet

theorem run_owing {start tracked : TrackedShell I I D (ChannelSinkLogic I E)} (owing : start.shell.Owing)
    {events : List (ShellEvent I I D)} (ran : start.run (ChannelSinkLogic.logic makeEvent) events = .ok tracked) :
    tracked.shell.Owing :=
  foldlM_ok_invariant (fun tracked => tracked.shell.Owing) events
    (fun event _ _ _ before passed => owing_event before event passed) owing ran

end TrackedShell

end Run

section Main

variable {I T D : Type} [TimeOrder I] [TimeOrder T]

/-- An empty batch does not join a session. -/
theorem Ports.emit_empty (ports : Ports I T D) (output : Nat) (time : T) :
    (ports.emit output time []).inputs = ports.inputs ∧ (ports.emit output time []).outputs = ports.outputs := by
  unfold emit
  split
  · exact ⟨rfl, rfl⟩
  · rename_i port found
    refine ⟨rfl, ?_⟩
    apply List.ext_getElem?
    intro place
    rw [getElem?_set_of_some found]
    split
    · rename_i same
      exact same ▸ found.symm
    · rfl

/-- In every run of a shell whose activations return no error, the produced ledger counts what the channel accepted
or has still to accept, in the order of emission, and the consumed ledger counts what was pulled and is neither
pending nor on credit. The credit of a sink is that of the event it keeps. -/
theorem TrackedShell.run_ledgers_exact [ToString I] [ToString T] :
    (∀ (L : Type) (logic : OperatorLogic I T D L) (name : String) (state : L) (minimum : I) (inputs : Nat)
        (outputs : List ((Nat → PushAnswer) × ProgressReporter T)) (events : List (ShellEvent I T D))
        (tracked : TrackedShell I T D L),
      (new (OperatorShell.new name state minimum inputs outputs)).run logic events = .ok tracked →
      (∀ index output, tracked.shell.ports.outputs[index]? = some output →
        (∀ time, netOf (tracked.produced index) time + output.ledger.net time =
          netOf (sizes output.push.accepted) time + netOf (sizes output.retry) time) ∧
        output.push.accepted ++ output.retry = emittedOf index tracked.shell.ports.events) ∧
      ∀ index input, tracked.shell.ports.inputs[index]? = some input → ∀ time,
        netOf (tracked.consumed index) time + input.ledger.net time =
          netOf (sizes input.pull.pulled) time - netOf (sizes input.handle.pending) time -
            unredeemed index tracked.shell.ports.events time) ∧
    (∀ (E : Type) (makeEvent : I → List D → E) (sender : OutputSend E) (name : String) (minimum : I)
        (events : List (ShellEvent I I D)) (tracked : TrackedShell I I D (ChannelSinkLogic I E)),
      (new (OperatorShell.new name (ChannelSinkLogic.new sender) minimum 1 [])).run (ChannelSinkLogic.logic makeEvent)
        events = .ok tracked →
      ∀ input, tracked.shell.ports.inputs[0]? = some input → ∀ time,
        netOf (tracked.consumed 0) time + input.ledger.net time =
          netOf (sizes input.pull.pulled) time - netOf (sizes input.handle.pending) time -
            netOf tracked.shell.state.credits time) ∧
    (∀ (ports : Ports I T D) (output : Nat) (time : T),
      (ports.emit output time []).inputs = ports.inputs ∧ (ports.emit output time []).outputs = ports.outputs) ∧
    ∀ (handle : InputHandle I D) (time : I), handle.pushVec time [] = handle := by
  refine ⟨?_, ?_, Ports.emit_empty, fun _ _ => rfl⟩
  · intro L logic name state minimum inputs outputs events tracked ran
    have precise := run_exact (new_exact name state minimum inputs outputs) ran
    constructor
    · intro index output found
      have balanced := precise.outputs index output found
      exact ⟨balanced.counted, balanced.ordered⟩
    · intro index input found
      exact (precise.inputs index input found).counted
  · intro E makeEvent sender name minimum events tracked ran input found time
    have precise := run_exact (new_exact name (ChannelSinkLogic.new sender) minimum 1 []) ran
    have owing : tracked.shell.Owing := run_owing ⟨⟨_, rfl⟩, fun _ => rfl⟩ ran
    rw [(precise.inputs 0 input found).counted time, owing.owed time]

end Main

def forwarding : Except RunError (TrackedShell Nat Nat Nat Unit) :=
  (TrackedShell.new (OperatorShell.new "forward" () 0 1 [(fun _ => .accept, ProgressReporter.new)])).run
    (closureOf [.next 0, .pushVec 0 5 [7, 8]] (.ok true)) [.deliver 0 (.data 5 [7, 8]), .activate, .collect]

/-- Two records are consumed and emitted, and the tracker has drained both ledgers. -/
theorem forwarding_ledgers_exact : ∃ tracked output, forwarding = .ok tracked ∧
    tracked.shell.ports.outputs[0]? = some output ∧ output.push.accepted = [(5, [7, 8])] ∧
    netOf (tracked.produced 0) 5 + output.ledger.net 5 = 2 ∧
    output.push.accepted ++ output.retry = emittedOf 0 tracked.shell.ports.events := by
  obtain ⟨tracked, output, ran, found, accepted, counted⟩ : ∃ tracked output, forwarding = .ok tracked ∧
      tracked.shell.ports.outputs[0]? = some output ∧ output.push.accepted = [(5, [7, 8])] ∧ output.retry = [] :=
    ⟨_, _, rfl, rfl, rfl, rfl⟩
  obtain ⟨produced, ordered⟩ := (TrackedShell.run_ledgers_exact.1 _ _ _ _ _ _ _ _ _ ran).1 0 output found
  refine ⟨tracked, output, ran, found, accepted, ?_, ordered⟩
  rw [produced, accepted, counted]
  rfl

end Instancy
