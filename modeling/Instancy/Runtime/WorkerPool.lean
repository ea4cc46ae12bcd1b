import Mathlib.Data.Fintype.Pi

/-
This file models the worker pool of `worker_pool.rs` and the notifications of `ExecutorRegistry::enqueue`: the threads
of the pool and the threads that submit and enqueue, in any interleaving of their steps on the shared state. Tasks are
counted, not kept. A task that submits or enqueues does so as another thread. No thread fails to be created, and no
mutex is poisoned.
-/

namespace Instancy

structure WorkerPoolConfig where
  minThreads : Nat
  maxThreads : Nat
  spinLimit : Nat
  yieldLimit : Nat

/-- The message of `InvalidConfig`. -/
def WorkerPoolConfig.validate (config : WorkerPoolConfig) : Except String Unit :=
  if config.minThreads = 0 then .error "min_threads must be at least 1"
  else if config.maxThreads < config.minThreads then .error "max_threads must be >= min_threads"
  else if config.spinLimit = 0 then .error "spin_limit must be at least 1"
  else if config.yieldLimit ≤ config.spinLimit then .error "yield_limit must be > spin_limit"
  else .ok ()

/-- The next step of a worker thread outside of the park mutex, with its idle cycles where it keeps them. -/
inductive WorkStage where
  | top (idle : Nat)
  | stealing (idle : Nat)
  | starting
  | executing
  | stopping
  | completing
  | finding (idle : Nat)
  | dequeuing (idle : Nat)
  | claiming (idle : Nat)
  | pollStarting
  | polling
  | pollStopping (again : Bool)
  | idling (idle : Nat)
  | parking
  | locking
  | relocking
  deriving DecidableEq

/-- The next step of a submit between its push and its notification. -/
inductive SubmitStage where
  | readingActive
  | readingCount (active : Nat)
  | reserving
  | exchanging (current : Nat)
  deriving DecidableEq

/-- The next step of a thread. A worker that enqueues goes on as a worker, another thread leaves the pool. The checks
under the park mutex are made before the wait and again when the worker is woken. -/
inductive PoolPlace where
  | outside
  | submitting
  | injecting
  | submitted (stage : SubmitStage)
  | spawning
  | enqueueing (worker : Bool)
  | notifyLocking (worker : Bool)
  | notifying (worker : Bool)
  | unlocking (worker : Bool)
  | closing
  | closingNotify
  | working (stage : WorkStage)
  | checking (woken : Bool)
  | checkingInjector (woken : Bool)
  | checkingRegistry (woken found : Bool)
  | entering
  | waiting (signalled : Bool)
  | testing
  | resuming
  | leaving
  | exiting
  | gone
  deriving DecidableEq

/-- What the schedule decides: the call of a thread outside of the pool, a steal or an exchange that has to be repeated,
a task that is not claimed, a poll that wants its task enqueued again, an idle time that has elapsed, and the thread that
is created or notified. -/
inductive PoolChoice (Thread : Type) where
  | go
  | submit
  | enqueue
  | createRegistry
  | shutdown
  | retry
  | unclaimed
  | again
  | elapsed
  | pick (thread : Thread)

structure WorkerPool (Thread : Type) where
  config : WorkerPoolConfig
  injector : Nat
  registry : Bool
  ready : Nat
  parkMutex : Bool
  activeCount : Nat
  threadCount : Nat
  shutdown : Bool
  tasksSubmitted : Nat
  tasksCompleted : Nat
  place : Thread → PoolPlace

namespace WorkerPool

variable {Thread : Type}

def waits : PoolPlace → Bool
  | .waiting false => true
  | _ => false

def isOutside : PoolPlace → Bool
  | .outside => true
  | _ => false

/-- The notification of all threads that wait. -/
def signal : PoolPlace → PoolPlace
  | .waiting _ => .waiting true
  | place => place

variable [DecidableEq Thread] (pool : WorkerPool Thread) (thread : Thread)

def goto (place : PoolPlace) : WorkerPool Thread :=
  { pool with place := Function.update pool.place thread place }

/-- A pool as its constructor leaves it, with the threads it has created. -/
def new (config : WorkerPoolConfig) (created : Fin config.minThreads ↪ Thread) : Except String (WorkerPool Thread) := do
  config.validate
  return {
    config, injector := 0, registry := false, ready := 0, parkMutex := false, activeCount := 0
    threadCount := config.minThreads, shutdown := false, tasksSubmitted := 0, tasksCompleted := 0
    place := fun thread => if ∃ index, created index = thread then .working (.top 0) else .outside }

/-- A thread takes the park mutex, or waits for it. -/
def lock (next : PoolPlace) : WorkerPool Thread :=
  if pool.parkMutex then pool else { pool with parkMutex := true }.goto thread next

def unlock (next : PoolPlace) : WorkerPool Thread :=
  { pool with parkMutex := false }.goto thread next

/-- A call of a thread outside of the pool begins. Only a registry that has been created enqueues. -/
def call : PoolChoice Thread → WorkerPool Thread
  | .submit => pool.goto thread .submitting
  | .enqueue => if pool.registry then pool.goto thread (.enqueueing false) else pool
  | .createRegistry => { pool with registry := true }
  | .shutdown => { pool with shutdown := true }.goto thread .closing
  | _ => pool

/-- The test of `submit`, and the loop of `try_spawn_thread` that reserves a thread. -/
def trySpawnThread (choice : PoolChoice Thread) : SubmitStage → WorkerPool Thread
  | .readingActive => pool.goto thread (.submitted (.readingCount pool.activeCount))
  | .readingCount active =>
    if pool.threadCount ≤ active ∧ pool.threadCount < pool.config.maxThreads then
      pool.goto thread (.submitted .reserving)
    else pool.goto thread (.notifyLocking false)
  | .reserving =>
    if pool.config.maxThreads ≤ pool.threadCount then pool.goto thread (.notifyLocking false)
    else pool.goto thread (.submitted (.exchanging pool.threadCount))
  | .exchanging current =>
    match choice with
    | .retry => pool.goto thread (.submitted .reserving)
    | _ =>
      if pool.threadCount = current then
        { pool with threadCount := current + 1 }.goto thread .spawning
      else pool.goto thread (.submitted .reserving)

/-- The reserved thread is created. -/
def spawn : PoolChoice Thread → WorkerPool Thread
  | .pick created =>
    if isOutside (pool.place created) then
      (pool.goto created (.working (.top 0))).goto thread (.notifyLocking false)
    else pool
  | _ => pool

/-- One thread that waits is notified, if there is one. -/
def notifyOne (pool : WorkerPool Thread) [Fintype Thread] (thread : Thread) (worker : Bool) :
    PoolChoice Thread → WorkerPool Thread
  | .pick waiter =>
    if waits (pool.place waiter) then (pool.goto waiter (.waiting true)).goto thread (.unlocking worker) else pool
  | _ => if ∃ waiter, waits (pool.place waiter) then pool else pool.goto thread (.unlocking worker)

/-- The loop of a worker thread outside of the park mutex. -/
def workerThreadLoop (choice : PoolChoice Thread) : WorkStage → WorkerPool Thread
  | .top idle => if pool.shutdown then pool.goto thread .exiting else pool.goto thread (.working (.stealing idle))
  | .stealing idle =>
    match choice with
    | .retry => pool.goto thread (.working (.finding idle))
    | _ =>
      if pool.injector = 0 then pool.goto thread (.working (.finding idle))
      else { pool with injector := pool.injector - 1 }.goto thread (.working .starting)
  | .starting => { pool with activeCount := pool.activeCount + 1 }.goto thread (.working .executing)
  | .executing => pool.goto thread (.working .stopping)
  | .stopping => { pool with activeCount := pool.activeCount - 1 }.goto thread (.working .completing)
  | .completing => { pool with tasksCompleted := pool.tasksCompleted + 1 }.goto thread (.working (.top 0))
  | .finding idle =>
    pool.goto thread (.working (if pool.registry then .dequeuing idle else .idling idle))
  | .dequeuing idle =>
    if pool.ready = 0 then pool.goto thread (.working (.idling idle))
    else { pool with ready := pool.ready - 1 }.goto thread (.working (.claiming idle))
  | .claiming idle =>
    match choice with
    | .unclaimed => pool.goto thread (.working (.idling idle))
    | _ => pool.goto thread (.working .pollStarting)
  | .pollStarting => { pool with activeCount := pool.activeCount + 1 }.goto thread (.working .polling)
  | .polling =>
    match choice with
    | .again => pool.goto thread (.working (.pollStopping true))
    | _ => pool.goto thread (.working (.pollStopping false))
  | .pollStopping again =>
    { pool with activeCount := pool.activeCount - 1 }.goto thread
      (if again then .enqueueing true else .working (.top 0))
  | .idling idle =>
    -- the counter of idle cycles saturates
    let cycles := min (idle + 1) (2 ^ 32 - 1)
    if cycles < pool.config.spinLimit then pool.goto thread (.working (.top cycles))
    else if cycles < pool.config.yieldLimit then pool.goto thread (.working (.top cycles))
    else pool.goto thread (.working .parking)
  | .parking => if pool.shutdown then pool.goto thread .exiting else pool.goto thread (.working .locking)
  | .locking => pool.lock thread (.checking false)
  | .relocking => pool.lock thread (.checking true)

/-- The registry is checked last, and a worker that found nothing waits, or when woken tests whether it exits. -/
def checkRegistry (woken found : Bool) : WorkerPool Thread :=
  if found || (pool.registry && pool.ready != 0) then pool.goto thread .resuming
  else pool.goto thread (if woken then .testing else .entering)

/-- The schedule and the thread count let a woken worker exit. -/
def exits : PoolChoice Thread → Bool
  | .elapsed => pool.config.minThreads < pool.threadCount
  | _ => false

def advance [Fintype Thread] (pool : WorkerPool Thread) (thread : Thread) (choice : PoolChoice Thread) :
    WorkerPool Thread :=
  match pool.place thread with
  | .outside => pool.call thread choice
  | .submitting => { pool with tasksSubmitted := pool.tasksSubmitted + 1 }.goto thread .injecting
  | .injecting => { pool with injector := pool.injector + 1 }.goto thread (.submitted .readingActive)
  | .submitted stage => pool.trySpawnThread thread choice stage
  | .spawning => pool.spawn thread choice
  | .enqueueing worker => { pool with ready := pool.ready + 1 }.goto thread (.notifyLocking worker)
  | .notifyLocking worker => pool.lock thread (.notifying worker)
  | .notifying worker => pool.notifyOne thread worker choice
  | .unlocking worker => pool.unlock thread (if worker then .working (.top 0) else .outside)
  | .closing => pool.lock thread .closingNotify
  | .closingNotify => { pool with place := signal ∘ pool.place }.goto thread (.unlocking false)
  | .working stage => pool.workerThreadLoop thread choice stage
  | .checking woken => pool.goto thread (if pool.shutdown then .leaving else .checkingInjector woken)
  | .checkingInjector woken => pool.goto thread (.checkingRegistry woken (pool.injector != 0))
  | .checkingRegistry woken found => pool.checkRegistry thread woken found
  | .entering => pool.unlock thread (.waiting false)
  | .waiting _ => pool.goto thread (.working .relocking)
  | .testing => pool.goto thread (if pool.exits choice then .leaving else .resuming)
  | .resuming => pool.unlock thread (.working (.top 0))
  | .leaving => pool.unlock thread .exiting
  | .exiting => { pool with threadCount := pool.threadCount - 1 }.goto thread .gone
  | .gone => pool

def run [Fintype Thread] (pool : WorkerPool Thread) (schedule : List (Thread × PoolChoice Thread)) :
    WorkerPool Thread :=
  schedule.foldl (fun pool turn => pool.advance turn.1 turn.2) pool

end WorkerPool

end Instancy
