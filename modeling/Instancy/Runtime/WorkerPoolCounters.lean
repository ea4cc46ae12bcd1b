import Instancy.Library.Fallible
import Instancy.Library.ThreadCount
import Instancy.Runtime.WorkerPool

namespace Instancy

open Library

namespace WorkerPool

/-- A worker that has not decided to exit and looks at the queues before it waits again without being notified. -/
def awake : PoolPlace → Nat
  | .working _ | .checking _ | .checkingInjector _ | .checkingRegistry _ _ | .entering | .testing | .resuming => 1
  | .waiting signalled => signalled.toNat
  | .enqueueing worker | .notifyLocking worker | .notifying worker | .unlocking worker => worker.toNat
  | _ => 0

/-- A worker that waits and has not been notified. -/
def asleep : PoolPlace → Nat
  | .waiting signalled => (!signalled).toNat
  | _ => 0

/-- A worker that has not decided to exit. -/
def staying (place : PoolPlace) : Nat := awake place + asleep place

/-- A worker that exits or a thread that is not yet created, which the thread count counts. -/
def counted : PoolPlace → Nat
  | .leaving | .exiting | .spawning => 1
  | place => staying place

/-- A worker that the active count counts. -/
def active : PoolPlace → Nat
  | .working .executing | .working .stopping | .working .polling | .working (.pollStopping _) => 1
  | _ => 0

/-- A thread that holds a task outside of the injector. -/
def carrying : PoolPlace → Nat
  | .injecting | .working .starting | .working .executing | .working .stopping | .working .completing => 1
  | _ => 0

/-- The count that a submit exchanges leaves room for a thread. -/
def Fits (limit : Nat) : PoolPlace → Prop
  | .submitted (.exchanging current) => current < limit
  | _ => True

variable {Thread : Type} [Fintype Thread]

/-- The counters agree with the places of the threads, and the thread count keeps its limit. -/
structure Booked (limit : Nat) (pool : WorkerPool Thread) : Prop where
  config : pool.config.maxThreads = limit
  threads : pool.threadCount = total counted pool.place
  actives : pool.activeCount = total active pool.place
  tasks : pool.tasksSubmitted = pool.tasksCompleted + pool.injector + total carrying pool.place
  within : pool.threadCount ≤ limit
  fits : ∀ thread, Fits limit (pool.place thread)

section

variable {limit : Nat} {pool after : WorkerPool Thread} {thread : Thread} {place next : PoolPlace}
  (booked : pool.Booked limit)
include booked

/-- All threads that wait are notified. -/
theorem Booked.signals : { pool with place := signal ∘ pool.place }.Booked limit := by
  have unmoved (place : PoolPlace) : counted (signal place) = counted place ∧ active (signal place) = active place ∧
      carrying (signal place) = carrying place ∧ (Fits limit place → Fits limit (signal place)) := by
    fun_cases signal
    case case1 signalled => cases signalled <;> exact ⟨rfl, rfl, rfl, id⟩
    case case2 => exact ⟨rfl, rfl, rfl, id⟩
  refine ⟨booked.config, booked.threads.trans ?_, booked.actives.trans ?_, booked.tasks.trans (congrArg _ ?_),
    booked.within, fun thread => (unmoved _).2.2.2 (booked.fits thread)⟩
  · exact Finset.sum_congr rfl fun _ _ => (unmoved _).1.symm
  · exact Finset.sum_congr rfl fun _ _ => (unmoved _).2.1.symm
  · exact Finset.sum_congr rfl fun _ _ => (unmoved _).2.2.1.symm

variable [DecidableEq Thread]

/-- One thread moves, and takes its share of the counters with it. -/
theorem Booked.goes (here : pool.place thread = place) (moved : after.place = Function.update pool.place thread next)
    (config : after.config = pool.config) (threads : after.threadCount + counted place = pool.threadCount + counted next)
    (actives : after.activeCount + active place = pool.activeCount + active next)
    (tasks : after.tasksSubmitted + (pool.tasksCompleted + pool.injector + carrying place) =
      pool.tasksSubmitted + (after.tasksCompleted + after.injector + carrying next))
    (within : after.threadCount ≤ limit) (fits : Fits limit next) : after.Booked limit := by
  have share (weight : PoolPlace → Nat) :
      total weight after.place + weight place = total weight pool.place + weight next := by
    rw [moved, ← here]
    exact total_update thread next
  refine ⟨config ▸ booked.config, ?_, ?_, ?_, within, ?_⟩
  · grind [share counted, booked.threads]
  · grind [share active, booked.actives]
  · grind [share carrying, booked.tasks]
  · rw [moved]
    exact (Function.forall_update_iff _ fun _ => Fits limit).mpr ⟨fits, fun other _ => booked.fits other⟩

/-- The thread that reserved the count of a new thread passes it on. -/
theorem Booked.spawn (here : pool.place thread = .spawning) (choice : PoolChoice Thread) :
    (pool.spawn thread choice).Booked limit := by
  fun_cases WorkerPool.spawn
  case case1 created free =>
    have outside : pool.place created = .outside := by grind [isOutside]
    have different : created ≠ thread := by grind
    have reserved : counted (pool.place thread) ≤ pool.threadCount := booked.threads ▸ weight_le_total thread
    rw [here] at reserved
    have passed : ({ pool with threadCount := pool.threadCount - 1 }.goto thread (.notifyLocking false)).Booked limit :=
      booked.goes here rfl rfl (Nat.sub_add_cancel reserved) rfl rfl ((Nat.sub_le ..).trans booked.within) trivial
    exact passed.goes ((Function.update_of_ne different ..).trans outside) (Function.update_comm different ..) rfl
      (Nat.sub_add_cancel reserved).symm rfl rfl booked.within trivial
  all_goals exact booked

theorem Booked.notifyOne {worker : Bool} (here : pool.place thread = .notifying worker) (choice : PoolChoice Thread) :
    (pool.notifyOne thread worker choice).Booked limit := by
  fun_cases WorkerPool.notifyOne
  case case1 waiter waiting =>
    have asleep : pool.place waiter = .waiting false := by grind [waits]
    have different : thread ≠ waiter := by grind
    have notified : (pool.goto waiter (.waiting true)).Booked limit :=
      booked.goes asleep rfl rfl rfl rfl rfl booked.within trivial
    exact notified.goes ((Function.update_of_ne different ..).trans here) rfl rfl rfl rfl rfl booked.within trivial
  case case4 => exact booked.goes here rfl rfl rfl rfl rfl booked.within trivial
  all_goals exact booked

theorem Booked.lock (locked : ({ pool with parkMutex := true }.goto thread next).Booked limit) :
    (pool.lock thread next).Booked limit := by
  unfold WorkerPool.lock
  split
  · exact booked
  · exact locked

theorem Booked.call (here : pool.place thread = .outside) (choice : PoolChoice Thread) :
    (pool.call thread choice).Booked limit := by
  cases choice with
  | submit | shutdown => exact booked.goes here rfl rfl rfl rfl rfl booked.within trivial
  | enqueue =>
    rw [WorkerPool.call]
    split
    · exact booked.goes here rfl rfl rfl rfl rfl booked.within trivial
    · exact booked
  | createRegistry => exact { booked with }
  | go | retry | unclaimed | again | elapsed | pick target => exact booked

/-- A submit exchanges a count that leaves room for a thread. -/
theorem Booked.trySpawnThread {stage : SubmitStage} (here : pool.place thread = .submitted stage)
    (choice : PoolChoice Thread) : (pool.trySpawnThread thread choice stage).Booked limit := by
  have within := booked.within
  have fits := booked.fits thread
  rw [here] at fits
  cases stage with
  | readingActive => exact booked.goes here rfl rfl rfl rfl rfl within trivial
  | readingCount active =>
    rw [WorkerPool.trySpawnThread]
    split <;> exact booked.goes here rfl rfl rfl rfl rfl within trivial
  | reserving =>
    rw [WorkerPool.trySpawnThread, booked.config]
    split
    · exact booked.goes here rfl rfl rfl rfl rfl within trivial
    · rename_i room
      exact booked.goes here rfl rfl rfl rfl rfl within (Nat.lt_of_not_le room)
  | exchanging current =>
    dsimp only [WorkerPool.trySpawnThread]
    split
    · exact booked.goes here rfl rfl rfl rfl rfl within trivial
    · split
      · rename_i same
        exact booked.goes here rfl rfl (congrArg (· + 1) same.symm) rfl rfl fits trivial
      · exact booked.goes here rfl rfl rfl rfl rfl within trivial

theorem Booked.workerThreadLoop {stage : WorkStage} (here : pool.place thread = .working stage)
    (choice : PoolChoice Thread) : (pool.workerThreadLoop thread choice stage).Booked limit := by
  have within := booked.within
  have acts : active (pool.place thread) ≤ pool.activeCount := booked.actives ▸ weight_le_total thread
  rw [here] at acts
  cases stage with
  | starting | executing | pollStarting => exact booked.goes here rfl rfl rfl rfl rfl within trivial
  | stopping => exact booked.goes here rfl rfl rfl (Nat.sub_add_cancel acts) rfl within trivial
  | pollStopping again =>
    cases again <;> exact booked.goes here rfl rfl rfl (Nat.sub_add_cancel acts) rfl within trivial
  | completing =>
    refine booked.goes here rfl rfl rfl rfl (congrArg (_ + ·) ?_) within trivial
    exact Nat.add_right_comm pool.tasksCompleted pool.injector 1
  | stealing idle =>
    dsimp only [WorkerPool.workerThreadLoop]
    split
    · exact booked.goes here rfl rfl rfl rfl rfl within trivial
    · split
      · exact booked.goes here rfl rfl rfl rfl rfl within trivial
      · rename_i some
        refine booked.goes here rfl rfl rfl rfl (congrArg (_ + ·) ?_) within trivial
        change pool.tasksCompleted + pool.injector = pool.tasksCompleted + (pool.injector - 1) + 1
        omega
  | claiming idle | polling => cases choice <;> exact booked.goes here rfl rfl rfl rfl rfl within trivial
  | top idle | finding idle | dequeuing idle | parking =>
    rw [WorkerPool.workerThreadLoop]
    split <;> exact booked.goes here rfl rfl rfl rfl rfl within trivial
  | idling idle =>
    rw [WorkerPool.workerThreadLoop]
    split
    · exact booked.goes here rfl rfl rfl rfl rfl within trivial
    · split <;> exact booked.goes here rfl rfl rfl rfl rfl within trivial
  | locking | relocking => exact booked.lock (booked.goes here rfl rfl rfl rfl rfl within trivial)

theorem Booked.advance (thread : Thread) (choice : PoolChoice Thread) : (pool.advance thread choice).Booked limit := by
  have within := booked.within
  unfold WorkerPool.advance
  cases here : pool.place thread with
  | outside => exact booked.call here choice
  | submitted stage => exact booked.trySpawnThread here choice
  | spawning => exact booked.spawn here choice
  | notifying worker => exact booked.notifyOne here choice
  | working stage => exact booked.workerThreadLoop here choice
  | notifyLocking worker | closing => exact booked.lock (booked.goes here rfl rfl rfl rfl rfl within trivial)
  | closingNotify => exact booked.signals.goes (congrArg signal here) rfl rfl rfl rfl rfl within trivial
  | submitting => exact booked.goes here rfl rfl rfl rfl (Nat.succ_add_eq_add_succ ..) within trivial
  | injecting | enqueueing worker | entering | resuming | leaving | checkingInjector woken =>
    exact booked.goes here rfl rfl rfl rfl rfl within trivial
  | unlocking flag | waiting flag => cases flag <;> exact booked.goes here rfl rfl rfl rfl rfl within trivial
  | checking woken | testing =>
    dsimp only
    split <;> exact booked.goes here rfl rfl rfl rfl rfl within trivial
  | checkingRegistry woken found =>
    dsimp only [checkRegistry]
    split
    · exact booked.goes here rfl rfl rfl rfl rfl within trivial
    · split <;> exact booked.goes here rfl rfl rfl rfl rfl within trivial
  | exiting =>
    have counts : counted (pool.place thread) ≤ pool.threadCount := booked.threads ▸ weight_le_total thread
    rw [here] at counts
    exact booked.goes here rfl rfl (Nat.sub_add_cancel counts) rfl rfl ((Nat.sub_le ..).trans within) trivial
  | gone => exact booked

theorem Booked.run (schedule : List (Thread × PoolChoice Thread)) : (pool.run schedule).Booked limit :=
  List.foldlRecOn schedule _ booked fun _ booked turn _ => booked.advance turn.1 turn.2

end

variable [DecidableEq Thread]

variable {config : WorkerPoolConfig} {created : Fin config.minThreads ↪ Thread} {pool : WorkerPool Thread}

theorem new_booked (built : new config created = .ok pool) : pool.Booked config.maxThreads := by
  obtain ⟨_, valid, made⟩ := bind_eq_ok.mp built
  cases made
  have bound : config.minThreads ≤ config.maxThreads := by grind [WorkerPoolConfig.validate]
  have counts (weight : PoolPlace → Nat) (outside : weight .outside = 0) : total weight _ = _ :=
    total_range created (.working (.top 0)) _ outside
  refine ⟨rfl, ((counts counted rfl).trans (Nat.mul_one _)).symm, (counts active rfl).symm,
    (congrArg (0 + 0 + ·) (counts carrying rfl)).symm, bound, fun thread => ?_⟩
  dsimp only
  split <;> trivial

/-- In every run of a new pool the thread count is that of the live threads and keeps its maximum, the active count is
that of the threads that run a task, and every submitted task is completed, queued or held by one thread. -/
theorem run_counters (config : WorkerPoolConfig) (created : Fin config.minThreads ↪ Thread) (pool : WorkerPool Thread)
    (built : new config created = .ok pool) (schedule : List (Thread × PoolChoice Thread)) :
    (pool.run schedule).Booked config.maxThreads := (new_booked built).run schedule

/-- A pool of one thread that may grow to two. -/
def smallConfig : WorkerPoolConfig where
  minThreads := 1
  maxThreads := 2
  spinLimit := 1
  yieldLimit := 2

def firstWorker : Fin smallConfig.minThreads ↪ Fin 3 :=
  ⟨fun _ => 0, fun (first second : Fin 1) _ => Subsingleton.elim first second⟩

/-- The second submit finds the first worker busy and creates the second. Both find nothing, wait and wake. The first
exits. -/
def firstExits : List (Fin 3 × PoolChoice (Fin 3)) :=
  (2, .submit) :: List.replicate 7 (2, .go) ++ List.replicate 3 (0, .go) ++
  (2, .submit) :: List.replicate 6 (2, .go) ++ (2, .pick 1) :: List.replicate 3 (2, .go) ++
  List.replicate 23 (0, .go) ++ List.replicate 14 (1, .go) ++ List.replicate 5 (0, .go) ++ [(0, .elapsed), (0, .go)]

/-- The second worker wakes and its time has elapsed. -/
def secondTests : List (Fin 3 × PoolChoice (Fin 3)) := List.replicate 5 (1, .go) ++ [(1, .elapsed), (1, .go)]

/-- A registry is created and a task enqueued. -/
def enqueues : List (Fin 3 × PoolChoice (Fin 3)) :=
  [(2, .createRegistry), (2, .enqueue)] ++ List.replicate 4 (2, .go)

theorem run_counters_small : ∃ pool, new smallConfig firstWorker = .ok pool ∧
    (pool.run firstExits).tasksSubmitted = 2 ∧ (pool.run firstExits).Booked 2 :=
  ⟨_, rfl, by decide +kernel, run_counters smallConfig firstWorker _ rfl firstExits⟩

end WorkerPool

end Instancy
