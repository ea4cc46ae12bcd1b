import Instancy.Dataflow.Effects

namespace Instancy

open Relation

/-- The consumed ledgers, the produced ledgers and the retry queues. -/
def Ports.committed {I T D : Type} [TimeOrder I] [TimeOrder T] (ports : Ports I T D) :
    List (I → Int) × List ((T → Int) × List (T × List D)) :=
  (ports.inputs.map fun input => input.ledger.net,
    ports.outputs.map fun output => (output.ledger.net, output.retry))

section Sessions

variable {T D : Type} [TimeOrder T]

/-- The ledger and the retry queue of each output. -/
def queues (outputs : List (CountedOutput T D)) : List ((T → Int) × List (T × List D)) :=
  outputs.map fun output => (output.ledger.net, output.retry)

/-- The first output that got any batch got an unjustified one. -/
def firstViolates (checks : Bool) (justify : Justify T) (outputs : List (CountedOutput T D)) : Bool :=
  match outputs.find? fun output => !output.handle.buffer.isEmpty with
  | none => false
  | some output => output.violates checks justify

variable [ToString T]

/-- A failed loop leaves the queues alone exactly if it fails at the first output that got any batch. -/
theorem takeSessions_queues_iff (checks : Bool) (justify : Justify T) (outputs : List (CountedOutput T D)) (index : Nat)
    (fails : ∃ error, (takeSessions checks justify index outputs).1 = some error) :
    queues (takeSessions checks justify index outputs).2 = queues outputs ↔
      firstViolates checks justify outputs = true := by
  induction outputs generalizing index with
  | nil =>
    obtain ⟨error, impossible⟩ := fails
    cases impossible
  | cons output rest ih =>
    rcases output.takeSession_cases checks justify index with ⟨violates, error, failed, _⟩ | ⟨fine, taken⟩
    · have full : output.handle.buffer ≠ [] := by
        intro empty
        rw [CountedOutput.violates, empty] at violates
        cases violates
      simp [takeSessions, failed, firstViolates, full, violates]
    · by_cases empty : output.handle.buffer = []
      · have skipped : firstViolates checks justify (output :: rest) = firstViolates checks justify rest := by
          simp [firstViolates, empty]
        have later : ∃ error, (takeSessions checks justify (index + 1) rest).1 = some error := by
          simpa [takeSessions, taken] using fails
        rw [skipped, ← ih (index + 1) later]
        simp [takeSessions, taken, queues, CountedOutput.queueSession_of_empty empty]
      · have first : firstViolates checks justify (output :: rest) = false := by
          simp [firstViolates, empty, fine]
        rw [first]
        simp only [takeSessions, taken, queues, List.map_cons, List.cons.injEq, Prod.mk.injEq, Bool.false_eq_true,
          iff_false]
        intro same
        have grown := same.1.2
        rw [output.queueSession_retry] at grown
        exact empty (List.append_right_eq_self.mp grown)

end Sessions

section Failure

variable {I T D L : Type} [TimeOrder I] [TimeOrder T] [ToString T]

namespace OperatorShell

variable (logic : OperatorLogic I T D L) (shell : OperatorShell I T D L)

/-- The credits that the logic redeems in the call cancel out. -/
def RedeemsNothing : Prop :=
  ∀ input < shell.ports.inputs.length, ∀ time, netOf (redeemedOf input (shell.callEvents logic)) time = 0

/-- The logic returns an error, or it requests a capability that the call does not justify. -/
def LogicFails : Prop :=
  ∃ error, callError logic (shell.callLogic logic).1.1 (shell.callLogic logic).2 = .error error

/-- The logic emits a batch that the call does not justify. -/
def OutputFails : Prop :=
  ∃ output ∈ (shell.callLogic logic).2.outputs,
    output.violates logic.checksJustification (shell.callLogic logic).2.justify = true

/-- A call that fails redeems nothing, and if it fails on its output, then the first output that got any batch got an
unjustified one. -/
def FailsClean : Prop :=
  (shell.LogicFails logic → shell.RedeemsNothing logic) ∧
    (¬ shell.LogicFails logic → shell.OutputFails logic → shell.RedeemsNothing logic ∧
      firstViolates logic.checksJustification (shell.callLogic logic).2.justify (shell.callLogic logic).2.outputs = true)

/-- The call records nothing in the consumed ledgers but the credits that the logic redeems. -/
theorem inputs_kept_iff :
    ((shell.callLogic logic).2.inputs.map fun input => input.ledger.net) =
        (shell.ports.inputs.map fun input => input.ledger.net) ↔ shell.RedeemsNothing logic := by
  have effect := (shell.callLogic_effect logic).inputs
  rw [eq_comm, effect.map_eq_iff]
  constructor
  · intro same input bound time
    obtain ⟨after, found, counted⟩ := effect.right_of_left (List.getElem?_eq_getElem bound)
    have here := congrFun (same input _ after (List.getElem?_eq_getElem bound) found) time
    have ledger := counted.ledger time
    omega
  · intro nothing input before after found here
    obtain ⟨bound, _⟩ := List.getElem?_eq_some_iff.mp found
    funext time
    rw [(effect.at_place input before after found here).ledger, nothing input bound time, Int.add_zero]

/-- The call leaves the produced ledgers and the retry queues alone. -/
theorem callLogic_queues : queues (shell.callLogic logic).2.outputs = queues shell.ports.outputs := by
  have effect := (shell.callLogic_effect logic).outputs
  apply Eq.symm
  apply effect.map_eq_iff.mpr
  intro output before after found here
  have same := effect.at_place output before after found here
  rw [same.ledger, same.retry]

/-- The end of a failed call touches neither a ledger nor a queue. -/
theorem failedWith_committed (outputs : List (CountedOutput T D)) :
    (shell.failedWith logic outputs).ports.committed =
      ((shell.callLogic logic).2.inputs.map fun input => input.ledger.net, queues outputs) := by
  unfold failedWith Ports.committed Ports.discard Ports.endCall Ports.finishCall queues
  rw [List.map_map, List.map_map, List.map_map]
  rfl

/-- A failed call commits nothing exactly if it fails clean. -/
theorem runCall_commits_nothing_iff :
    ((∃ error, (shell.runCall logic).1 = .error error) →
      (shell.runCall logic).2.ports.committed = shell.ports.committed) ↔ shell.FailsClean logic := by
  have queuesKept := callLogic_queues logic shell
  have inputsKept := inputs_kept_iff logic shell
  have before : shell.ports.committed =
      (shell.ports.inputs.map fun input => input.ledger.net, queues shell.ports.outputs) := rfl
  unfold FailsClean LogicFails OutputFails
  rcases shell.runCall_cases logic with ⟨error, outcome, ran⟩ |
    ⟨did, outcome, ⟨error, outputs, taken, _, fails, ran⟩ | ⟨fine, ran⟩⟩
  · rw [ran, failedWith_committed, before, queuesKept, outcome]
    simp [Prod.ext_iff, inputsKept]
  · have clean := takeSessions_queues_iff logic.checksJustification (shell.callLogic logic).2.finishCall.justify
      (shell.callLogic logic).2.outputs 0 (by rw [taken]; exact ⟨error, rfl⟩)
    have failed : ∃ e, (Except.error error : Except RunError Bool) = .error e := ⟨error, rfl⟩
    have passed : ¬ ∃ e, (Except.ok did : Except RunError Bool) = .error e := by simp
    rw [taken, queuesKept] at clean
    rw [ran, failedWith_committed, before, outcome, Prod.ext_iff, inputsKept, clean]
    constructor
    · intro kept
      exact ⟨fun impossible => absurd impossible passed, fun _ _ => kept failed⟩
    · intro clean _
      exact clean.2 passed fails
  · have none : ¬ ∃ output ∈ (shell.callLogic logic).2.outputs,
        output.violates logic.checksJustification (shell.callLogic logic).2.justify = true := by
      intro violates
      obtain ⟨output, member, violation⟩ := violates
      rw [fine output member] at violation
      cases violation
    rw [ran, outcome]
    simp [none]

end OperatorShell

end Failure

/-- An output that holds nothing and whose channel takes everything. -/
def openOutput : CountedOutput Nat Nat := CountedOutput.new (fun _ => .accept) ProgressReporter.new

/-- An input with one record at time 5. -/
def recordAtFive : CountedInput Nat Nat where
  pull := ⟨[], false, [(5, [7])]⟩
  handle := ⟨[(5, [7])], by decide, false, Antichain.new, ChangeBatch.new⟩
  ledger := PortLedger.new

/-- A logic with two outputs that forwards its batch on the first output and goes back in time on the second one. -/
def backInTime : OperatorLogic Nat Nat Nat Unit where
  call _ := .act (.next 0) (.act (.pushVec 0 5 [7]) (.act (.pushVec 1 3 [7]) (.done (.ok true, ()))))
  wantsCall _ inputs := buffered inputs
  holdsWork _ _ := false
  waitingForAsync _ := false
  blocked _ := false
  updateFrontier state _ := state
  closeExternalInput state := state
  checksJustification := true
  callsOnFrontier := false
  attach := some

def backInTimeShell : OperatorShell Nat Nat Nat Unit where
  name := "back"
  state := ()
  ports := ⟨[recordAtFive], [openOutput, openOutput], ⟨Antichain.new, false, none⟩, ⟨OrderedSet.empty, none⟩, []⟩
  exhausted := false
  frontierChanged := false
  finalCalled := false
  frontierKnown := false
  shutDown := false

/-- The call fails on its second output, and the batch of its first output stays queued and counted. -/
theorem backInTime_runCall_commits :
    (backInTimeShell.runCall backInTime).1 =
        .error (.unjustified "output at 3 on output 1" "consumed 5") ∧
      ((backInTimeShell.runCall backInTime).2.ports.outputs.map fun output => output.retry) = [[(5, [7])], []] ∧
      (backInTimeShell.runCall backInTime).2.ports.committed ≠ backInTimeShell.ports.committed := by
  have queued : ((backInTimeShell.runCall backInTime).2.ports.outputs.map fun output => output.retry) =
      [[(5, [7])], []] := by
    decide
  refine ⟨by decide, queued, fun same => ?_⟩
  have kept := congrArg (fun committed => committed.2.map Prod.snd) same
  unfold Ports.committed at kept
  have impossible := queued.symm.trans kept
  revert impossible
  decide

end Instancy
