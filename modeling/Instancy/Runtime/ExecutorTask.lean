import Mathlib.Logic.Function.Basic

/-
This file models one task of `executor_task.rs` with the threads that wake it and the threads of the pool that poll it,
in any interleaving of the steps on its state and on the ready queue. A task of a pool that shuts down is left out.
-/

namespace Instancy

inductive TaskState where
  | idle
  | queued
  | polling
  | done
  deriving DecidableEq, Repr

/-- How an executor ends: with its result, by a panic, or because there was no future to poll. -/
inductive TaskOutcome where
  | returned (result : Except String Bool)
  | panicked
  | consumed

/-- The next step of a thread on the task. -/
inductive TaskPlace where
  | idle
  | waking (begun : Nat)
  | rewaking (begun : Nat) (observed : TaskState)
  | enqueueing
  | claiming
  | claimed
  | running
  | pausing
  | finishing (outcome : TaskOutcome)
  | releasing (outcome : TaskOutcome)
  | publishing (outcome : TaskOutcome)

/-- What a thread that is in no call begins, and what a future does next that is being polled. A future that wakes its
own task does so as another thread. -/
inductive TaskChoice where
  | wake
  | dequeue
  | observe
  | pending
  | ready (result : Except String Bool)
  | panic

/-- The task with its entries of the ready queue. The clock, the times at which the future was claimed and last looked
at its inputs, the wakes that have returned with the times at which they began, and the polls of the future are kept for
statements. -/
structure ExecutorTask (Thread : Type) where
  state : TaskState
  executor : Bool
  notifier : Bool
  entries : Nat
  place : Thread → TaskPlace
  published : List TaskOutcome
  clock : Nat
  claims : List Nat
  observed : List Nat
  woken : List Nat
  polls : Nat

namespace ExecutorTask

variable {Thread : Type} [DecidableEq Thread]

/-- The task is created by a thread that goes on to enqueue it. -/
def register (registrar : Thread) : ExecutorTask Thread where
  state := .queued
  executor := true
  notifier := true
  entries := 0
  place := Function.update (fun _ => .idle) registrar .enqueueing
  published := []
  clock := 0
  claims := []
  observed := []
  woken := []
  polls := 0

variable (task : ExecutorTask Thread) (thread : Thread)

def goto (place : TaskPlace) : ExecutorTask Thread :=
  { task with place := Function.update task.place thread place }

def tryStartPoll : ExecutorTask Thread :=
  if task.state = .queued then
    { task with state := .polling, claims := task.claims ++ [task.clock] }.goto thread .claimed
  else task.goto thread .idle

/-- The call of `try_wake` returns; its caller enqueues the task if it has left `IDLE`. -/
def returnWake (begun : Nat) (enqueues : Bool) : ExecutorTask Thread :=
  { task with woken := task.woken ++ [begun] }.goto thread (if enqueues then .enqueueing else .idle)

/-- The fast path of `try_wake`. -/
def tryWake (begun : Nat) : ExecutorTask Thread :=
  if task.state = .idle then { task with state := .queued }.returnWake thread begun true
  else task.goto thread (.rewaking begun task.state)

/-- One turn of the loop of `try_wake`. -/
def retryWake (begun : Nat) (observed : TaskState) : ExecutorTask Thread :=
  if observed ≠ .idle ∧ observed ≠ .polling then task.returnWake thread begun false
  else if task.state = observed then { task with state := .queued }.returnWake thread begun (observed = TaskState.idle)
  else task.goto thread (.rewaking begun task.state)

/-- The future is polled, if it is there. -/
def poll : ExecutorTask Thread :=
  if task.executor then { task with polls := task.polls + 1 }.goto thread .running
  else task.goto thread (.finishing .consumed)

/-- What the future does while it is polled. -/
def resume : TaskChoice → ExecutorTask Thread
  | .observe => { task with observed := task.observed ++ [task.clock] }
  | .pending => task.goto thread .pausing
  | .ready result => task.goto thread (.finishing (.returned result))
  | .panic => task.goto thread (.finishing .panicked)
  | _ => task

/-- The end of a poll that is pending. A failed exchange leaves it to the thread to enqueue the task again. -/
def pause : ExecutorTask Thread :=
  if task.state = .polling then { task with state := .idle }.goto thread .idle
  else task.goto thread .enqueueing

/-- The completion is published if it has not been taken. -/
def publish (outcome : TaskOutcome) : ExecutorTask Thread :=
  if task.notifier then
    { task with notifier := false, published := task.published ++ [outcome] }.goto thread .idle
  else task.goto thread .idle

def advance (choice : TaskChoice) : ExecutorTask Thread :=
  match task.place thread with
  | .idle =>
    match choice with
    | .wake => task.goto thread (.waking task.clock)
    | .dequeue =>
      if task.entries = 0 then task
      else { task with entries := task.entries - 1 }.goto thread .claiming
    | _ => task
  | .waking begun => task.tryWake thread begun
  | .rewaking begun observed => task.retryWake thread begun observed
  | .enqueueing => { task with entries := task.entries + 1 }.goto thread .idle
  | .claiming => task.tryStartPoll thread
  | .claimed => task.poll thread
  | .running => task.resume thread choice
  | .pausing => task.pause thread
  | .finishing outcome => { task with state := .done }.goto thread (.releasing outcome)
  | .releasing outcome => { task with executor := false }.goto thread (.publishing outcome)
  | .publishing outcome => task.publish thread outcome

def step (choice : TaskChoice) : ExecutorTask Thread :=
  { task.advance thread choice with clock := task.clock + 1 }

def run (schedule : List (Thread × TaskChoice)) : ExecutorTask Thread :=
  schedule.foldl (fun task turn => task.step turn.1 turn.2) task

end ExecutorTask

end Instancy
