import Instancy.Dataflow.Effects

namespace Instancy

open Relation Library

section Activation

variable {I T D L : Type} [TimeOrder I] [TimeOrder T] [ToString T]

namespace OperatorShell

/-- The parts of an activation that returns no error. A shell that has shut down only looks at its inputs. -/
inductive Step (logic : OperatorLogic I T D L) (shell : OperatorShell I T D L) : OperatorShell I T D L → Prop where
  | flush {all : Bool} (alive : shell.shutDown = false) (passed : (flushOutputs shell.ports.outputs).1 = .ok all) :
      Step logic shell (shell.withOutputs (flushOutputs shell.ports.outputs).2)
  | pull {pulled : Bool} (passed : (pullInputs shell.ports.inputs).1 = .ok pulled) :
      Step logic shell (shell.withInputs (pullInputs shell.ports.inputs).2)
  | call {did : Bool} (alive : shell.shutDown = false) (passed : (shell.runCall logic).1 = .ok did) :
      Step logic shell (shell.runCall logic).2
  | latch (ended : inputsExhausted shell.ports.inputs = true) (nothing : shell.holdsNothing logic = true) :
      Step logic shell { shell with exhausted := true }
  | note (frontierChanged finalCalled : Bool) :
      Step logic shell { shell with frontierChanged := frontierChanged, finalCalled := finalCalled }

/-- The parts of an activation in order. -/
abbrev Steps (logic : OperatorLogic I T D L) : OperatorShell I T D L → OperatorShell I T D L → Prop :=
  ReflTransGen (Step logic)

variable {logic : OperatorLogic I T D L} {shell next : OperatorShell I T D L}

theorem runCall_shutDown (logic : OperatorLogic I T D L) (shell : OperatorShell I T D L) :
    (shell.runCall logic).2.shutDown = shell.shutDown := by
  rcases shell.runCall_cases logic with ⟨error, _, ran⟩ | ⟨did, _, ⟨error, outputs, _, _, _, ran⟩ | ⟨_, ran⟩⟩ <;>
    rw [ran] <;> rfl

theorem settle_steps (did : Bool) : Steps logic shell (shell.settle logic did).2 := by
  have latched : (shell.settle logic did).2 = { shell with
      exhausted := shell.exhausted || (inputsExhausted shell.ports.inputs && shell.holdsNothing logic) } := by
    unfold settle
    split
    · rfl
    · split
      · rfl
      · split <;> rfl
  rw [latched]
  cases ended : inputsExhausted shell.ports.inputs && shell.holdsNothing logic with
  | false => rw [Bool.or_false]
  | true =>
    rw [Bool.and_eq_true] at ended
    rw [Bool.or_true]
    exact ReflTransGen.single (Step.latch ended.1 ended.2)

variable {outcome : ActivationOutcome}

theorem callIfDue_steps (alive : shell.shutDown = false) {did : Bool}
    (passed : (shell.callIfDue logic did).1 = .ok outcome) : Steps logic shell (shell.callIfDue logic did).2 := by
  unfold callIfDue at passed ⊢
  dsimp only at passed ⊢
  split at passed
  · rename_i due
    rw [if_pos due]
    -- The shell that the logic is called on.
    generalize prepared : ({ shell with
      frontierChanged := false
      finalCalled := shell.finalCalled || frontiersEmpty shell.ports.inputs } : OperatorShell I T D L) = ready at passed ⊢
    have noted : Steps logic shell ready := by
      rw [← prepared]
      exact ReflTransGen.single (Step.note _ _)
    have awake : ready.shutDown = false := by
      rw [← prepared]
      exact alive
    cases called : (ready.runCall logic).1 with
    | error error =>
      rw [called] at passed
      cases passed
    | ok more =>
      rw [called] at passed
      have afterCall := noted.tail (Step.call awake called)
      have stillAwake : (ready.runCall logic).2.shutDown = false := (runCall_shutDown logic ready).trans awake
      cases flushed : (flushOutputs (ready.runCall logic).2.ports.outputs).1 with
      | error error =>
        rw [flushed] at passed
        cases passed
      | ok all =>
        have afterFlush := afterCall.tail (Step.flush stillAwake flushed)
        cases all with
        | false => exact afterFlush
        | true => exact afterFlush.trans (settle_steps (did || more))
  · rename_i idle
    rw [if_neg idle]
    exact settle_steps did

theorem pullAndCall_steps (alive : shell.shutDown = false) {did : Bool}
    (passed : (shell.pullAndCall logic did).1 = .ok outcome) : Steps logic shell (shell.pullAndCall logic did).2 := by
  unfold pullAndCall at passed ⊢
  dsimp only at passed ⊢
  cases pulled : (pullInputs shell.ports.inputs).1 with
  | error error =>
    rw [pulled] at passed
    cases passed
  | ok some =>
    rw [pulled] at passed
    have awake : (shell.withInputs (pullInputs shell.ports.inputs).2).shutDown = false := alive
    exact (ReflTransGen.single (Step.pull pulled)).trans (callIfDue_steps awake passed)

theorem retryBlocked_steps (alive : shell.shutDown = false)
    (passed : (shell.retryBlocked logic).1 = .ok outcome) : Steps logic shell (shell.retryBlocked logic).2 := by
  unfold retryBlocked at passed ⊢
  dsimp only at passed ⊢
  split at passed
  · rename_i blocked
    rw [if_pos blocked]
    cases called : (shell.runCall logic).1 with
    | error error =>
      rw [called] at passed
      cases passed
    | ok did =>
      rw [called] at passed
      dsimp only at passed ⊢
      have afterCall := ReflTransGen.single (Step.call alive called)
      have awake := (runCall_shutDown logic shell).trans alive
      split at passed
      · rename_i still
        rw [if_pos still]
        exact afterCall
      · rename_i freed
        rw [if_neg freed]
        exact afterCall.trans (pullAndCall_steps awake passed)
  · rename_i free
    rw [if_neg free]
    exact pullAndCall_steps alive passed

/-- An activation that returns no error flushes, pulls, calls the logic, and notices that it is exhausted. -/
theorem activate_steps (passed : (shell.activate logic).1 = .ok outcome) :
    Steps logic shell (shell.activate logic).2 := by
  unfold activate at passed ⊢
  dsimp only at passed ⊢
  split at passed
  · rename_i dead
    rw [if_pos dead]
    unfold checkAfterShutdown at passed ⊢
    dsimp only at passed ⊢
    cases pulled : (pullInputs shell.ports.inputs).1 with
    | error error =>
      rw [pulled] at passed
      cases passed
    | ok some =>
      cases some with
      | false => exact ReflTransGen.single (Step.pull pulled)
      | true =>
        rw [pulled] at passed
        cases passed
  · rename_i dead
    rw [if_neg dead]
    have alive : shell.shutDown = false := Bool.eq_false_iff.mpr dead
    split at passed
    · rename_i pending
      rw [if_pos pending]
      cases flushed : (flushOutputs shell.ports.outputs).1 with
      | error error =>
        rw [flushed] at passed
        cases passed
      | ok all =>
        rw [flushed] at passed
        have afterFlush : Steps logic shell (shell.withOutputs (flushOutputs shell.ports.outputs).2) :=
          ReflTransGen.single (Step.flush alive flushed)
        cases all with
        | false => exact afterFlush
        | true =>
          have awake : (shell.withOutputs (flushOutputs shell.ports.outputs).2).shutDown = false := alive
          exact afterFlush.trans (retryBlocked_steps awake passed)
    · rename_i empty
      rw [if_neg empty]
      exact retryBlocked_steps alive passed

end OperatorShell

end Activation

end Instancy
