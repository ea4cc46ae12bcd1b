import Instancy.Dataflow.Shell

namespace Instancy

open Relation

section Steps

variable {I T D : Type} [TimeOrder I] [TimeOrder T]

/-- An unjustified error. -/
def RunError.IsUnjustified (error : RunError) : Prop := ∃ what justified, error = .unjustified what justified

/-- The elementary steps of a call. A capability is acquired only at a justified time, and a refused request leaves
an error behind. -/
inductive PortStep (attach : I → Option T) (ports : Ports I T D) : Ports I T D → Prop where
  | consume {input : Nat} {port : CountedInput I D} {batch : I × List D} {handle : InputHandle I D}
      (found : ports.inputs[input]? = some port) (popped : port.handle.popFront = some (batch, handle)) :
      PortStep attach ports { ports with
        inputs := ports.inputs.set input { port with handle := handle.recordConsumed batch }
        justify := ports.justify.noteConsumed attach batch.1
        events := ports.events ++ [.consumed input batch.1 batch.2.length] }
  | credit {input : Nat} {port : CountedInput I D} {batch : I × List D} {handle : InputHandle I D}
      (found : ports.inputs[input]? = some port) (popped : port.handle.popFront = some (batch, handle)) :
      PortStep attach ports { ports with
        inputs := ports.inputs.set input { port with handle := handle }
        events := ports.events ++ [.credited input batch.1 batch.2.length] }
  | redeem {input : Nat} {port : CountedInput I D} (time : I) (count : Int)
      (found : ports.inputs[input]? = some port) :
      PortStep attach ports { ports with
        inputs := ports.inputs.set input { port with ledger := port.ledger.update time count }
        events := ports.events ++ [.redeemed input time count] }
  | emit {output : Nat} {port : CountedOutput T D} (time : T) (records : List D)
      (found : ports.outputs[output]? = some port) :
      PortStep attach ports { ports with
        outputs := ports.outputs.set output { port with handle := port.handle.pushVec time records }
        events := ports.events ++ [.emitted output time records] }
  | acquire {output : Nat} {port : CountedOutput T D} (time : T) (found : ports.outputs[output]? = some port)
      (justified : ports.justify.justifies port.reporter time = true) :
      PortStep attach ports { ports with
        outputs := ports.outputs.set output { port with reporter := port.reporter.update time 1 }
        events := ports.events ++ [.acquired output time] }
  | release {output : Nat} {port : CountedOutput T D} (time : T) (found : ports.outputs[output]? = some port)
      (held : 0 < port.reporter.heldAt time) :
      PortStep attach ports { ports with
        outputs := ports.outputs.set output { port with reporter := port.reporter.release time }
        events := ports.events ++ [.released output time] }
  | setRetained {output : Nat} {port : CountedOutput T D} (live : Nat) (found : ports.outputs[output]? = some port) :
      PortStep attach ports { ports with outputs := ports.outputs.set output { port with retainedLive := live } }
  | hold (capabilities : OrderedSet T) :
      PortStep attach ports { ports with notify := { ports.notify with capabilities := capabilities } }
  | refuseRetain (output : Nat) (time : T) (error : RunError) (unjustified : error.IsUnjustified) :
      PortStep attach ports { ports with
        justify := { ports.justify with violation := ports.justify.violation.or (some error) }
        events := ports.events ++ [.refused output time] }
  | refuseNotify (time : T) (error : RunError) (unjustified : error.IsUnjustified) :
      PortStep attach ports { ports with
        notify := { ports.notify with error := ports.notify.error.or (some error) }
        events := ports.events ++ [.refused 0 time] }

/-- The steps of a call. -/
abbrev PortSteps (attach : I → Option T) : Ports I T D → Ports I T D → Prop := ReflTransGen (PortStep attach)

/-- A call is running: releases are remembered by every reporter. -/
structure Ports.InCall (ports : Ports I T D) : Prop where
  inCall : ports.justify.inCall = true
  remembers : ∀ output ∈ ports.outputs, output.reporter.releasedInCall.isSome = true

theorem ProgressReporter.update_remembers {reporter : ProgressReporter T}
    (remembers : reporter.releasedInCall.isSome = true) (time : T) (diff : Int) :
    (reporter.update time diff).releasedInCall.isSome = true := by
  unfold update hold
  split
  · rw [Option.isSome_map]
    exact remembers
  · exact remembers

namespace Ports

theorem begin_inCall (ports : Ports I T D) : ports.begin.InCall where
  inCall := rfl
  remembers output member := by
    obtain ⟨before, _, same⟩ := List.mem_map.mp member
    exact same ▸ rfl

theorem InCall.of_outputs {ports next : Ports I T D} (inCall : ports.InCall)
    (justify : next.justify.inCall = ports.justify.inCall) (outputs : next.outputs = ports.outputs) : next.InCall where
  inCall := justify.trans inCall.inCall
  remembers output member := inCall.remembers output (outputs ▸ member)

theorem InCall.set {ports next : Ports I T D} (inCall : ports.InCall) {index : Nat} {port : CountedOutput T D}
    (justify : next.justify.inCall = ports.justify.inCall) (outputs : next.outputs = ports.outputs.set index port)
    (remembers : port.reporter.releasedInCall.isSome = true) : next.InCall where
  inCall := justify.trans inCall.inCall
  remembers output member := by
    rw [outputs] at member
    rcases List.mem_or_eq_of_mem_set member with old | same
    · exact inCall.remembers output old
    · exact same ▸ remembers

theorem InCall.remembers_at {ports : Ports I T D} (inCall : ports.InCall) {output : Nat} {port : CountedOutput T D}
    (found : ports.outputs[output]? = some port) : port.reporter.releasedInCall.isSome = true :=
  inCall.remembers port (List.mem_of_getElem? found)

/-- Every step stays in the call. -/
theorem InCall.step {attach : I → Option T} {ports next : Ports I T D} (inCall : ports.InCall)
    (step : PortStep attach ports next) : next.InCall := by
  cases step with
  | consume found popped => exact inCall.of_outputs (ports.justify.noteConsumed_inCall attach _) rfl
  | credit found popped => exact inCall.of_outputs rfl rfl
  | redeem time count found => exact inCall.of_outputs rfl rfl
  | emit time records found =>
    have remembers := inCall.remembers_at found
    exact inCall.set rfl rfl remembers
  | acquire time found justified =>
    exact inCall.set rfl rfl (ProgressReporter.update_remembers (inCall.remembers_at found) time 1)
  | release time found held =>
    exact inCall.set rfl rfl (ProgressReporter.update_remembers (inCall.remembers_at found) time (-1))
  | setRetained live found =>
    have remembers := inCall.remembers_at found
    exact inCall.set rfl rfl remembers
  | hold capabilities => exact inCall.of_outputs rfl rfl
  | refuseRetain output time error unjustified => exact inCall.of_outputs rfl rfl
  | refuseNotify time error unjustified => exact inCall.of_outputs rfl rfl

theorem InCall.steps {attach : I → Option T} {ports next : Ports I T D} (inCall : ports.InCall)
    (steps : PortSteps attach ports next) : next.InCall := by
  induction steps with
  | refl => exact inCall
  | tail _ last ih => exact ih.step last

end Ports

variable {time : T}

section Operations

variable {attach : I → Option T} {ports : Ports I T D}

namespace Ports

theorem consume_steps (input : Nat) : PortSteps attach ports (ports.consume attach input) := by
  unfold consume
  split
  · exact ReflTransGen.refl
  · rename_i port found
    split
    · exact ReflTransGen.refl
    · rename_i popped
      exact ReflTransGen.single (PortStep.consume found popped)

theorem credit_steps (input : Nat) : PortSteps attach ports (ports.credit input) := by
  unfold credit
  split
  · exact ReflTransGen.refl
  · rename_i port found
    split
    · exact ReflTransGen.refl
    · rename_i popped
      exact ReflTransGen.single (PortStep.credit found popped)

theorem redeem_steps (input : Nat) (time : I) (count : Int) :
    PortSteps attach ports (ports.redeem input time count) := by
  unfold redeem
  split
  · exact ReflTransGen.refl
  · rename_i port found
    exact ReflTransGen.single (PortStep.redeem time count found)

theorem emit_steps (output : Nat) (time : T) (records : List D) :
    PortSteps attach ports (ports.emit output time records) := by
  unfold emit
  split
  · exact ReflTransGen.refl
  · rename_i port found
    exact ReflTransGen.single (PortStep.emit time records found)

variable {output : Nat}

theorem acquire_steps
    (justified : ∀ port, ports.outputs[output]? = some port → ports.justify.justifies port.reporter time = true) :
    PortSteps attach ports (ports.acquire output time) := by
  unfold acquire
  split
  · exact ReflTransGen.refl
  · rename_i port found
    exact ReflTransGen.single (PortStep.acquire time found (justified port found))

theorem release_steps (output : Nat) (time : T) : PortSteps attach ports (ports.release output time) := by
  unfold release
  split
  · exact ReflTransGen.refl
  · rename_i port found
    split
    · rename_i held
      exact ReflTransGen.single (PortStep.release time found held)
    · exact ReflTransGen.refl

theorem setRetained_steps (output : Nat) (change : Nat → Nat) :
    PortSteps attach ports (ports.setRetained output change) := by
  unfold setRetained
  split
  · exact ReflTransGen.refl
  · rename_i port found
    exact ReflTransGen.single (PortStep.setRetained _ found)

theorem canDelay_spec {earlier later : T} (can : ports.canDelay output earlier later = true) :
    ∃ port, ports.outputs[output]? = some port ∧ 0 < port.reporter.heldAt earlier ∧ earlier ≤ later := by
  unfold canDelay at can
  split at can
  · cases can
  · rename_i port found
    exact ⟨port, found, (of_decide_eq_true can).1, (of_decide_eq_true can).2⟩

/-- A held capability justifies a delayed one. -/
theorem delayed_steps {earlier later : T} (can : ports.canDelay output earlier later = true) :
    PortSteps attach ports (ports.acquire output later) := by
  obtain ⟨port, found, positive, below⟩ := canDelay_spec can
  apply acquire_steps
  intro other same
  cases found.symm.trans same
  have answered : port.reporter.justifies later = true :=
    (ProgressReporter.justifies_iff _ later).mpr (Or.inr ⟨earlier, positive, below⟩)
  simp [Justify.justifies, answered]

end Ports

/-- What is released in a call still justifies its time. -/
theorem ProgressReporter.release_justifies {reporter : ProgressReporter T}
    (remembers : reporter.releasedInCall.isSome = true) {earlier later : T} (below : earlier ≤ later) :
    (reporter.release earlier).justifies later = true := by
  obtain ⟨released, isReleased⟩ := Option.isSome_iff_exists.mp remembers
  refine (justifies_iff _ later).mpr (Or.inl ⟨(released.insert earlier).2, ?_, ?_⟩)
  · change (if (-1 : Int) < 0 then reporter.releasedInCall.map (fun times => (times.insert earlier).2)
      else reporter.releasedInCall) = _
    rw [isReleased]
    rfl
  · exact (released.insert_lessEqual earlier later).mpr (Or.inr below)

namespace Ports

theorem downgrade_steps (inCall : ports.InCall) {output : Nat} {earlier later : T}
    (can : ports.canDelay output earlier later = true) :
    PortSteps attach ports ((ports.release output earlier).acquire output later) := by
  obtain ⟨port, found, positive, below⟩ := canDelay_spec can
  apply (release_steps output earlier).trans
  apply acquire_steps
  intro other same
  obtain ⟨bound, _⟩ := List.getElem?_eq_some_iff.mp found
  simp only [release, found, positive, if_true, List.getElem?_set_self bound] at same
  cases same
  have answered := ProgressReporter.release_justifies (inCall.remembers_at found) below
  simp [Justify.justifies, answered]

/-- The time of a captured batch is justified, because the call consumed the batch. -/
theorem capture_steps (inCall : ports.InCall) {input output : Nat}
    (captured : ((ports.peek input).bind fun batch => attach batch.1) = some time) :
    PortSteps attach ports ((ports.consume attach input).acquire output time) := by
  apply (consume_steps input).trans
  apply acquire_steps
  intro other _
  obtain ⟨batch, peeked, attached⟩ := Option.bind_eq_some_iff.mp captured
  obtain ⟨port, found, first⟩ := Option.bind_eq_some_iff.mp peeked
  have noted : (ports.consume attach input).justify.consumed = (ports.justify.consumed.insert time).2 := by
    unfold consume
    rw [found]
    dsimp only
    split
    · rename_i shape
      unfold InputHandle.popFront at shape
      split at shape
      · rename_i empty
        rw [empty] at first
        cases first
      · cases shape
    · rename_i popped
      rw [(InputHandle.popFront_some popped).1] at first
      cases first
      simp only [Justify.noteConsumed, attached, inCall.inCall, if_true]
  have answered : (ports.justify.consumed.insert time).2.lessEqual time = true :=
    (ports.justify.consumed.insert_lessEqual time time).mpr (Or.inr (le_refl time))
  simp [Justify.justifies, noted, answered]

end Ports

variable [ToString T]

variable {reporter : ProgressReporter T}

theorem Justify.check_ok {justify : Justify T} {output : Nat} {what : String}
    (inCall : justify.inCall = true) (passed : justify.check reporter output time what = .ok ()) :
    justify.justifies reporter time = true := by
  unfold check at passed
  split at passed
  · rename_i either
    rwa [inCall, Bool.not_true, Bool.false_or] at either
  · cases passed

theorem Justify.check_error {justify : Justify T} {output : Nat}
    {what : String} {error : RunError} (failed : justify.check reporter output time what = .error error) :
    error.IsUnjustified := by
  unfold check at failed
  split at failed
  · cases failed
  · cases failed
    exact ⟨_, _, rfl⟩

namespace Ports

variable (inCall : ports.InCall)

include inCall

theorem retain_steps (output : Nat) (time : T) :
    PortSteps attach ports (ports.retain output time) := by
  unfold retain
  split
  · exact ReflTransGen.refl
  · rename_i port found
    unfold Justify.acquire
    split
    · rename_i decided
      split at decided
      · rename_i passed
        cases decided
        have justified := Justify.check_ok inCall.inCall passed
        apply ReflTransGen.trans (acquire_steps _) (setRetained_steps output (· + 1))
        intro other same
        exact Option.some.inj (found.symm.trans same) ▸ justified
      · cases decided
    · rename_i decided
      split at decided
      · cases decided
      · rename_i failed
        cases decided
        exact ReflTransGen.single (PortStep.refuseRetain output time _ (Justify.check_error failed))

theorem tryNotifyAt_steps (time : T) :
    PortSteps attach ports (ports.tryNotifyAt time).2 ∧
      ∀ error, (ports.tryNotifyAt time).1 = .error error →
        error.IsUnjustified ∧ (ports.tryNotifyAt time).2 = ports := by
  unfold tryNotifyAt
  split
  · exact ⟨ReflTransGen.refl, fun _ impossible => by cases impossible⟩
  · rename_i port found
    split
    · rename_i error failed
      refine ⟨ReflTransGen.refl, fun other same => ?_⟩
      cases same
      exact ⟨Justify.check_error failed, rfl⟩
    · rename_i passed
      split
      · exact ⟨ReflTransGen.refl, fun _ impossible => by cases impossible⟩
      · refine ⟨?_, fun _ impossible => by cases impossible⟩
        have justified := Justify.check_ok inCall.inCall passed
        have acquired : PortSteps attach ports (ports.acquire 0 time) := by
          apply acquire_steps
          intro other same
          exact Option.some.inj (found.symm.trans same) ▸ justified
        have same : (ports.acquire 0 time).notify = ports.notify := by
          simp only [acquire, found]
        rw [← same]
        exact acquired.tail (PortStep.hold ((ports.acquire 0 time).notify.capabilities.insert time))

theorem notifyAt_steps (time : T) : PortSteps attach ports (ports.notifyAt time) := by
  obtain ⟨steps, refused⟩ := @tryNotifyAt_steps I T D _ _ attach ports _ inCall time
  unfold notifyAt
  split
  · rename_i decided
    rwa [decided] at steps
  · rename_i error next decided
    rw [decided] at steps refused
    obtain ⟨unjustified, same⟩ := refused error rfl
    exact steps.tail (PortStep.refuseNotify time error unjustified)

/-- Every operation of a running call is a few elementary steps. -/
theorem perform_steps (op : PortOp I T D) :
    PortSteps attach ports (ports.perform attach op) := by
  cases op with
  | next input => exact consume_steps input
  | nextOnCredit input => exact credit_steps input
  | redeem input time count => exact redeem_steps input time count
  | pushVec output time records => exact emit_steps output time records
  | retain output time => exact retain_steps inCall output time
  | dropRetained output time =>
    change PortSteps attach ports (ports.dropRetained output time)
    unfold dropRetained
    split
    · exact ReflTransGen.refl
    · split
      · exact (release_steps output time).trans (setRetained_steps output (· - 1))
      · exact ReflTransGen.refl
  | notifyAt time => exact notifyAt_steps inCall time
  | tryNotifyAt time => exact (tryNotifyAt_steps inCall time).1
  | nextNotification time =>
    simp only [perform, dropNotified]
    split
    · have same : (ports.release 0 time).notify = ports.notify := by
        unfold release
        split
        · rfl
        · split <;> rfl
      rw [← same]
      exact (release_steps 0 time).tail (PortStep.hold _)
    · exact ReflTransGen.refl
  | capture input output =>
    simp only [perform]
    split
    · exact ReflTransGen.refl
    · rename_i time captured
      exact capture_steps inCall captured
  | dropCapability output time => exact release_steps output time
  | delayed output earlier later =>
    simp only [perform]
    split
    · rename_i can
      exact delayed_steps can
    · exact ReflTransGen.refl
  | downgrade output earlier later =>
    simp only [perform]
    split
    · rename_i can
      exact downgrade_steps inCall can
    · exact ReflTransGen.refl

end Ports

/-- A whole call of a logic is a sequence of elementary steps. -/
theorem Program.run_steps {R : Type} (program : Program I T D R) (inCall : ports.InCall) :
    PortSteps attach ports (program.run attach ports).2 := by
  induction program generalizing ports with
  | done result => exact ReflTransGen.refl
  | observe next ih => exact ih ports inCall
  | act op next ih =>
    have first := @Ports.perform_steps I T D _ _ attach ports _ inCall op
    exact first.trans (ih (inCall.steps first))

end Operations

section Sessions

namespace CountedOutput

/-- The session of the output has a batch that the call does not justify. -/
def violates (checks : Bool) (justify : Justify T) (output : CountedOutput T D) : Bool :=
  output.handle.buffer.any fun batch => checks && !justify.justifies output.reporter batch.1

theorem queueSession_retry (output : CountedOutput T D) :
    output.queueSession.retry = output.retry ++ output.handle.buffer := by
  change output.retry ++ output.handle.buffer.filter _ = _
  rw [List.filter_eq_self.mpr]
  intro batch member
  rw [Bool.not_eq_true', List.isEmpty_eq_false_iff]
  exact output.handle.filled batch member

/-- Nothing is queued from an empty session. -/
theorem queueSession_of_empty {output : CountedOutput T D} (empty : output.handle.buffer = []) :
    output.queueSession = output := by
  obtain ⟨⟨buffer, filled⟩, retry, push, ledger, reporter, retainedLive, closed⟩ := output
  subst empty
  unfold queueSession
  simp only [List.filter_nil, List.append_nil]
  rfl

variable [ToString T]

/-- The session is refused for an unjustified batch or queued. -/
theorem takeSession_cases (checks : Bool) (justify : Justify T) (index : Nat) (output : CountedOutput T D) :
    (output.violates checks justify = true ∧ ∃ error, output.takeSession checks justify index = .error error ∧
        error.IsUnjustified) ∨
      (output.violates checks justify = false ∧ output.takeSession checks justify index = .ok output.queueSession) := by
  unfold takeSession violates
  by_cases empty : output.handle.buffer = []
  · right
    rw [queueSession_of_empty empty, empty]
    exact ⟨rfl, rfl⟩
  · rw [if_neg (by rwa [List.isEmpty_iff])]
    cases found : output.handle.buffer.find? fun batch => checks && !justify.justifies output.reporter batch.1 with
    | none =>
      right
      refine ⟨?_, rfl⟩
      rw [List.any_eq_false]
      exact fun batch member => List.find?_eq_none.mp found batch member
    | some batch =>
      left
      have chosen := List.find?_some found
      exact ⟨List.any_eq_true.mpr ⟨batch, List.mem_of_find?_eq_some found, chosen⟩, _, rfl, _, _, rfl⟩

end CountedOutput

variable [ToString T]

/-- The loop fails at an unjustified batch, or every session is queued. -/
theorem takeSessions_cases (checks : Bool) (justify : Justify T) (outputs : List (CountedOutput T D)) (index : Nat) :
    (∃ error next, takeSessions checks justify index outputs = (some error, next) ∧ error.IsUnjustified ∧
        ∃ output ∈ outputs, output.violates checks justify = true) ∨
      (takeSessions checks justify index outputs = (none, outputs.map CountedOutput.queueSession) ∧
        ∀ output ∈ outputs, output.violates checks justify = false) := by
  induction outputs generalizing index with
  | nil => exact Or.inr ⟨rfl, nofun⟩
  | cons output rest ih =>
    rcases output.takeSession_cases checks justify index with ⟨violates, error, failed, unjustified⟩ | ⟨fine, taken⟩
    · left
      refine ⟨error, output :: rest, ?_, unjustified, output, List.mem_cons_self, violates⟩
      simp only [takeSessions, failed]
    · rcases ih (index + 1) with ⟨error, next, failed, unjustified, other, member, violates⟩ | ⟨queued, all⟩
      · left
        refine ⟨error, output.queueSession :: next, ?_, unjustified, other, List.mem_cons_of_mem output member, violates⟩
        simp only [takeSessions, taken, failed]
      · right
        refine ⟨?_, ?_⟩
        · simp only [takeSessions, taken, queued, List.map_cons]
        · simpa [fine] using all

end Sessions

section Call

variable {L : Type} [ToString T]

namespace OperatorShell

variable (logic : OperatorLogic I T D L) (shell : OperatorShell I T D L)

/-- The shell after a failed call with some outputs. -/
def failedWith (outputs : List (CountedOutput T D)) : OperatorShell I T D L :=
  { shell with
    state := (shell.callLogic logic).1.2
    ports := ({ (shell.callLogic logic).2.finishCall with outputs := outputs } : Ports I T D).endCall.discard }

/-- The shell after a successful call with some outputs. -/
def committedWith (outputs : List (CountedOutput T D)) : OperatorShell I T D L :=
  { shell with
    state := (shell.callLogic logic).1.2
    ports := ({ (shell.callLogic logic).2.finishCall with outputs := outputs } : Ports I T D).endCall.commit }

/-- A call fails in the logic, fails on its output or is committed. -/
theorem runCall_cases :
    (∃ error, callError logic (shell.callLogic logic).1.1 (shell.callLogic logic).2 = .error error ∧
      shell.runCall logic = (.error error, shell.failedWith logic (shell.callLogic logic).2.outputs)) ∨
    ∃ did, callError logic (shell.callLogic logic).1.1 (shell.callLogic logic).2 = .ok did ∧
      ((∃ error outputs, takeSessions logic.checksJustification (shell.callLogic logic).2.finishCall.justify 0
          (shell.callLogic logic).2.outputs = (some error, outputs) ∧ error.IsUnjustified ∧
          (∃ output ∈ (shell.callLogic logic).2.outputs,
            output.violates logic.checksJustification (shell.callLogic logic).2.justify = true) ∧
          shell.runCall logic = (.error error, shell.failedWith logic outputs)) ∨
        ((∀ output ∈ (shell.callLogic logic).2.outputs,
            output.violates logic.checksJustification (shell.callLogic logic).2.justify = false) ∧
          shell.runCall logic = (.ok did, shell.committedWith logic
            ((shell.callLogic logic).2.outputs.map CountedOutput.queueSession)))) := by
  unfold runCall
  dsimp only
  cases outcome : callError logic (shell.callLogic logic).1.1 (shell.callLogic logic).2 with
  | error error => exact Or.inl ⟨error, rfl, rfl⟩
  | ok did =>
    refine Or.inr ⟨did, rfl, ?_⟩
    have outputs : (shell.callLogic logic).2.finishCall.outputs = (shell.callLogic logic).2.outputs := rfl
    rw [outputs]
    rcases takeSessions_cases logic.checksJustification (shell.callLogic logic).2.finishCall.justify
        (shell.callLogic logic).2.outputs 0 with ⟨error, next, taken, unjustified, violates⟩ | ⟨taken, fine⟩
    · left
      refine ⟨error, next, taken, unjustified, violates, ?_⟩
      rw [taken]
      rfl
    · right
      refine ⟨fine, ?_⟩
      rw [taken]
      rfl

end OperatorShell

end Call

end Steps

end Instancy
