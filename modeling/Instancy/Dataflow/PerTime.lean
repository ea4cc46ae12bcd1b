import Instancy.Dataflow.Shell

/-
The closures of the operators of `dataflow_builder.rs` that work on whole times stash records by time, ask to be
notified at that time and emit what they stashed once they are. The records of both ports are of one type.
-/

namespace Instancy

/-- The state of a notifying operator: the stash of its closure and its notificator. The capabilities it holds are
those of its ports. -/
structure NotifyLogic (T D : Type) [TimeOrder T] where
  stash : T → Option (List D)
  notificator : Notificator T

/-- What the closure of an operator does with a batch and with a time that is complete: the records of a batch are
stashed at some times or refused, and the stashed records of a time become its output. -/
structure PerTime (T D : Type) where
  place : T → List D → List (Except RunError (T × List D))
  finish : Option (List D) → Option (List D)

section Operators

variable {T D : Type} [TimeOrder T]

namespace PerTime

/-- The records stay at their time. -/
def keepTime (time : T) (data : List D) : List (Except RunError (T × List D)) := [.ok (time, data)]

def reduce (reducer : D → D → D) : PerTime T D where
  place := keepTime
  finish
    | some (first :: rest) => some [rest.foldl reducer first]
    | some [] => none
    | none => none

/-- The result is made into a record of the output; a time without records has the initial value. -/
def fold {A : Type} (init : A) (folder : A → D → A) (record : A → D) : PerTime T D where
  place := keepTime
  finish stashed := some [record ((stashed.getD []).foldl folder init)]

def count (record : Nat → D) : PerTime T D := fold 0 (fun total _ => total + 1) record

/-- Only the first one of equal records is kept. -/
def unique [DecidableEq D] : List D → List D → List D
  | _, [] => []
  | seen, item :: rest => if item ∈ seen then unique seen rest else item :: unique (item :: seen) rest

def distinct [DecidableEq D] : PerTime T D where
  place := keepTime
  finish
    | none => none
    | some data => if (unique [] data).isEmpty then none else some (unique [] data)

def delayError : RunError := .operator "delay_fn must return a timestamp at or after the input time"

/-- Each record goes to its own time. -/
def delay (delayFn : T → D → T) : PerTime T D where
  place time data := data.map fun item =>
    if time ≤ delayFn time item then .ok (delayFn time item, [item]) else .error delayError
  finish := id

/-- All records of a time go to the same time. -/
def delayBatch (delayFn : T → T) : PerTime T D where
  place time data := [if time ≤ delayFn time then .ok (delayFn time, data) else .error delayError]
  finish := id

end PerTime

namespace NotifyLogic

def new (initialFrontier : Antichain T) : NotifyLogic T D := ⟨fun _ => none, Notificator.new initialFrontier⟩

/-- The records join those of their time. -/
def stashAt (logic : NotifyLogic T D) (time : T) (items : List D) : NotifyLogic T D :=
  { logic with stash := Function.update logic.stash time (some ((logic.stash time).getD [] ++ items)) }

def remove (logic : NotifyLogic T D) (time : T) : NotifyLogic T D :=
  { logic with stash := Function.update logic.stash time none }

variable [ToString T]

/-- This is `notify_at`: a refused request is not registered. -/
def notifyAt {R : Type} (logic : NotifyLogic T D) (time : T) (next : NotifyLogic T D → Program T T D R) :
    Program T T D R :=
  .observe fun ports =>
    match (ports.tryNotifyAt time).1 with
    | .ok _ => .act (.notifyAt time) (next { logic with notificator := logic.notificator.notifyAt time })
    | .error _ => .act (.notifyAt time) (next logic)

/-- The records of a batch are stashed; a refused one ends the call. -/
def stashAll (placed : List (Except RunError (T × List D))) (logic : NotifyLogic T D)
    (next : NotifyLogic T D → Program T T D (Except RunError Bool × NotifyLogic T D)) :
    Program T T D (Except RunError Bool × NotifyLogic T D) :=
  match placed with
  | [] => next logic
  | .error error :: _ => .done (.error error, logic)
  | .ok (time, items) :: rest => (logic.stashAt time items).notifyAt time fun logic => stashAll rest logic next

/-- This is the loop over the waiting batches. -/
def takeAll (operator : PerTime T D) (batches : List (T × List D)) (logic : NotifyLogic T D)
    (next : NotifyLogic T D → Program T T D (Except RunError Bool × NotifyLogic T D)) :
    Program T T D (Except RunError Bool × NotifyLogic T D) :=
  match batches with
  | [] => next logic
  | batch :: rest =>
    .act (.next 0) (stashAll (operator.place batch.1 batch.2) logic fun logic => takeAll operator rest logic next)

/-- This is the loop over the ready notifications, which are at most as many as the fuel. -/
def fireAll (operator : PerTime T D) :
    Nat → NotifyLogic T D → Program T T D (Except RunError Bool × NotifyLogic T D)
  | 0, logic => .done (.ok true, logic)
  | fuel + 1, logic =>
    match logic.notificator.next with
    | none => .done (.ok true, logic)
    | some (time, notificator) =>
      .act (.nextNotification time)
        (match operator.finish (logic.stash time) with
        | none => fireAll operator fuel (({ logic with notificator := notificator } : NotifyLogic T D).remove time)
        | some records =>
          .act (.pushVec 0 time records)
            (fireAll operator fuel (({ logic with notificator := notificator } : NotifyLogic T D).remove time)))

/-- All waiting input is taken before the ready notifications fire. -/
def call (operator : PerTime T D) (logic : NotifyLogic T D) :
    Program T T D (Except RunError Bool × NotifyLogic T D) :=
  .observe fun ports => takeAll operator (ports.waiting 0) logic fun logic =>
    fireAll operator logic.notificator.ready.elements.length logic

def logic (operator : PerTime T D) : OperatorLogic T T D (NotifyLogic T D) where
  call := call operator
  wantsCall state inputs := buffered inputs || state.notificator.hasReady
  holdsWork state notify :=
    state.notificator.hasReady || decide (state.notificator.pendingCount > 0) || !notify.capabilities.elements.isEmpty
  waitingForAsync _ := false
  blocked _ := false
  updateFrontier state frontier := { state with notificator := (state.notificator.updateFrontier frontier).2 }
  closeExternalInput state := state
  checksJustification := true
  callsOnFrontier := true
  attach := some

end NotifyLogic

end Operators

/-- What happens to a notifying operator: a call with some batches at its input, or a new frontier. -/
inductive NotifyEvent (T D : Type) [TimeOrder T] where
  | call (batches : List (T × List D))
  | updateFrontier (frontier : Antichain T)

namespace PerTime

variable {T D : Type} [TimeOrder T] [ToString T]

/-- The batches arrive at the input. -/
def feed (shell : OperatorShell T T D (NotifyLogic T D)) (batches : List (T × List D)) :
    OperatorShell T T D (NotifyLogic T D) :=
  shell.withInputs (shell.ports.inputs.modify 0 fun input =>
    { input with handle := batches.foldl (fun handle batch => handle.pushVec batch.1 batch.2) input.handle })

/-- A call that returns an error ends the run. -/
def step (operator : PerTime T D) (shell : OperatorShell T T D (NotifyLogic T D)) :
    NotifyEvent T D → Except RunError (OperatorShell T T D (NotifyLogic T D))
  | .call batches =>
    match (feed shell batches).runCall (NotifyLogic.logic operator) with
    | (.ok _, shell) => .ok shell
    | (.error error, _) => .error error
  | .updateFrontier frontier =>
    .ok { shell with state := (NotifyLogic.logic operator).updateFrontier shell.state frontier }

def run (operator : PerTime T D) (shell : OperatorShell T T D (NotifyLogic T D)) (events : List (NotifyEvent T D)) :
    Except RunError (OperatorShell T T D (NotifyLogic T D)) :=
  events.foldlM (step operator) shell

end PerTime

end Instancy
