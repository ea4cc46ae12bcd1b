import Instancy.Dataflow.Activation

/-
This file models the life of an operator shell between the executor, the tracker, its channels and other tasks: any
sequence of their calls. The tracker drains the ledgers of the ports with `collect`.
-/

namespace Instancy

section Collect

variable {I T D L : Type} [TimeOrder I] [TimeOrder T]

def CountedInput.drain (input : CountedInput I D) : List (I × Int) × CountedInput I D :=
  (input.ledger.drain.1, { input with ledger := input.ledger.drain.2 })

/-- The produced records and the capability changes of an output are drained. -/
def CountedOutput.drain (output : CountedOutput T D) : (List (T × Int) × List (T × Int)) × CountedOutput T D :=
  ((output.ledger.drain.1, output.reporter.drain.1),
    { output with ledger := output.ledger.drain.2, reporter := output.reporter.drain.2 })

/-- What the tracker drains from an operator, port by port. -/
structure Drained (I T : Type) where
  consumed : List (List (I × Int))
  produced : List (List (T × Int))
  internal : List (List (T × Int))

namespace OperatorShell

/-- This is the part of `collect` that drains one operator. -/
def collect (shell : OperatorShell I T D L) : Drained I T × OperatorShell I T D L :=
  ({ consumed := shell.ports.inputs.map fun input => input.drain.1
     produced := shell.ports.outputs.map fun output => output.drain.1.1
     internal := shell.ports.outputs.map fun output => output.drain.1.2 },
    { shell with ports := { shell.ports with
        inputs := shell.ports.inputs.map fun input => input.drain.2
        outputs := shell.ports.outputs.map fun output => output.drain.2 } })

/-- A channel delivers an envelope to an input. -/
def deliver (shell : OperatorShell I T D L) (input : Nat) (envelope : Envelope I D) : OperatorShell I T D L :=
  shell.withInputs (shell.ports.inputs.modify input fun port =>
    { port with pull := { port.pull with waiting := port.pull.waiting ++ [envelope] } })

/-- The channel of an input ends. -/
def endInput (shell : OperatorShell I T D L) (input : Nat) : OperatorShell I T D L :=
  shell.withInputs (shell.ports.inputs.modify input fun port =>
    { port with pull := { port.pull with exhausted := true } })

end OperatorShell

end Collect

/-- What happens to an operator. A capability can be dropped by another task at any time. -/
inductive ShellEvent (I T D : Type) [TimeOrder I] where
  | deliver (input : Nat) (envelope : Envelope I D)
  | endInput (input : Nat)
  | updatePortFrontier (port : Nat) (frontier : Antichain I)
  | updateInputFrontier (frontier : Antichain I)
  | closeExternalInput
  | dropRetained (output : Nat) (time : T)
  | dropCapability (output : Nat) (time : T)
  | activate
  | collect
  | shutDown

/-- An operator with everything that the tracker has drained from its ledgers. -/
structure TrackedShell (I T D L : Type) [TimeOrder I] [TimeOrder T] where
  shell : OperatorShell I T D L
  consumed : Nat → List (I × Int)
  produced : Nat → List (T × Int)

namespace TrackedShell

variable {I T D L : Type} [TimeOrder I] [TimeOrder T] [ToString T]

/-- Nothing is drained yet. -/
def new (shell : OperatorShell I T D L) : TrackedShell I T D L := ⟨shell, fun _ => [], fun _ => []⟩

/-- The drained changes join those of earlier commits. -/
def collect (tracked : TrackedShell I T D L) : TrackedShell I T D L :=
  let collected := tracked.shell.collect
  { shell := collected.2
    consumed := fun index => tracked.consumed index ++ (collected.1.consumed[index]?).getD []
    produced := fun index => tracked.produced index ++ (collected.1.produced[index]?).getD [] }

/-- An activation that returns an error ends the run. -/
def step (logic : OperatorLogic I T D L) (tracked : TrackedShell I T D L) :
    ShellEvent I T D → Except RunError (TrackedShell I T D L)
  | .deliver input envelope => .ok { tracked with shell := tracked.shell.deliver input envelope }
  | .endInput input => .ok { tracked with shell := tracked.shell.endInput input }
  | .updatePortFrontier port frontier => .ok { tracked with shell := tracked.shell.updatePortFrontier port frontier }
  | .updateInputFrontier frontier =>
    .ok { tracked with shell := { tracked.shell with state := logic.updateFrontier tracked.shell.state frontier } }
  | .closeExternalInput =>
    .ok { tracked with shell := { tracked.shell with state := logic.closeExternalInput tracked.shell.state } }
  | .dropRetained output time =>
    .ok { tracked with shell := { tracked.shell with ports := tracked.shell.ports.dropRetained output time } }
  | .dropCapability output time =>
    .ok { tracked with shell := { tracked.shell with ports := tracked.shell.ports.release output time } }
  | .activate =>
    match tracked.shell.activate logic with
    | (.ok _, shell) => .ok { tracked with shell := shell }
    | (.error error, _) => .error error
  | .collect => .ok tracked.collect
  | .shutDown => .ok { tracked with shell := tracked.shell.shutDownNow }

/-- The activation of a step that returns no error is a sequence of its parts. -/
theorem step_activate {logic : OperatorLogic I T D L} {tracked next : TrackedShell I T D L}
    (passed : tracked.step logic .activate = .ok next) :
    ∃ shell, next = { tracked with shell := shell } ∧ OperatorShell.Steps logic tracked.shell shell := by
  simp only [step] at passed
  split at passed
  · rename_i outcome shell activated
    cases passed
    have steps := OperatorShell.activate_steps (congrArg Prod.fst activated)
    rw [activated] at steps
    exact ⟨shell, rfl, steps⟩
  · cases passed

def run (logic : OperatorLogic I T D L) (tracked : TrackedShell I T D L) (events : List (ShellEvent I T D)) :
    Except RunError (TrackedShell I T D L) :=
  events.foldlM (step logic) tracked

end TrackedShell

end Instancy
