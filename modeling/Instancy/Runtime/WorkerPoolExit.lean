import Instancy.Runtime.WorkerPoolService

namespace Instancy

open Library

namespace WorkerPool

variable {Thread : Type} [DecidableEq Thread] [Fintype Thread]

/-- Every worker that decides to exit leaves the minimum of workers that have not decided to. -/
def GuardedExits (pool : WorkerPool Thread) : List (Thread × PoolChoice Thread) → Prop
  | [] => True
  | turn :: rest =>
    (pool.place turn.1 = .testing → pool.exits turn.2 → pool.config.minThreads < pool.workers) ∧
      (pool.advance turn.1 turn.2).GuardedExits rest

instance decidableGuardedExits (pool : WorkerPool Thread) :
    (schedule : List (Thread × PoolChoice Thread)) → Decidable (pool.GuardedExits schedule)
  | [] => inferInstanceAs (Decidable True)
  | turn :: rest =>
    have := decidableGuardedExits (pool.advance turn.1 turn.2) rest
    inferInstanceAs (Decidable (_ ∧ _))

/-- A pool keeps its configuration, and one that is shut down stays so. -/
theorem advance_keeps (pool : WorkerPool Thread) (thread : Thread) (choice : PoolChoice Thread) :
    (pool.advance thread choice).config = pool.config ∧
      (pool.shutdown = true → (pool.advance thread choice).shutdown = true) := by
  have locks (next : PoolPlace) : (pool.lock thread next).config = pool.config ∧
      (pool.shutdown = true → (pool.lock thread next).shutdown = true) := by
    fun_cases lock <;> exact ⟨rfl, id⟩
  unfold advance
  cases pool.place thread <;> dsimp only
  case outside => fun_cases call <;> first | exact ⟨rfl, id⟩ | exact ⟨rfl, fun _ => rfl⟩
  case submitted => fun_cases trySpawnThread <;> exact ⟨rfl, id⟩
  case spawning => fun_cases spawn <;> exact ⟨rfl, id⟩
  case notifying => fun_cases notifyOne <;> exact ⟨rfl, id⟩
  case notifyLocking | closing => exact locks _
  case working => fun_cases workerThreadLoop <;> first | exact ⟨rfl, id⟩ | exact locks _
  case checkingRegistry => fun_cases checkRegistry <;> exact ⟨rfl, id⟩
  all_goals exact ⟨rfl, id⟩

/-- A new pool has its minimum of threads and no work. -/
theorem new_steady {config : WorkerPoolConfig} {created : Fin config.minThreads ↪ Thread} {pool : WorkerPool Thread}
    (built : new config created = .ok pool) : pool.Steady ∧ pool.config = config := by
  obtain ⟨_, valid, made⟩ := bind_eq_ok.mp built
  cases made
  have positive : 0 < config.minThreads := by
    unfold WorkerPoolConfig.validate at valid
    split at valid
    · cases valid
    · omega
  have counts (weight : PoolPlace → Nat) (none : weight .outside = 0) : total weight (fun thread =>
      if ∃ index, created index = thread then .working (.top 0) else .outside) =
        config.minThreads * weight (.working (.top 0)) := total_range created _ _ none
  refine ⟨⟨rfl, positive, ?_, ?_, ?_, ?_, ?_, ?_, ?_⟩, rfl⟩
  · exact ((counts staying rfl).trans (Nat.mul_one _)).symm.le
  · rw [counts foundEmpty rfl, counts holding rfl]
    rfl
  · exact (counts closes rfl).trans (Nat.mul_zero _)
  · intro injected
    cases injected
  · intro readied
    cases readied
  · intro queued
    cases queued
  · intro _
    exact ⟨rfl, (counts registered rfl).trans (Nat.mul_zero _)⟩

theorem run_config (pool : WorkerPool Thread) (schedule : List (Thread × PoolChoice Thread)) :
    (pool.run schedule).config = pool.config := by
  induction schedule generalizing pool with
  | nil => rfl
  | cons turn rest later => exact (later _).trans (pool.advance_keeps turn.1 turn.2).1

theorem run_steady {pool : WorkerPool Thread} (steady : pool.shutdown = true ∨ pool.Steady)
    {schedule : List (Thread × PoolChoice Thread)} (guarded : pool.GuardedExits schedule) :
    (pool.run schedule).shutdown = true ∨ (pool.run schedule).Steady := by
  induction schedule generalizing pool with
  | nil => exact steady
  | cons turn rest later =>
    obtain ⟨now, guarded⟩ := guarded
    refine later ?_ guarded
    rcases steady with closed | steady
    · exact .inl ((pool.advance_keeps turn.1 turn.2).2 closed)
    · exact steady.advance turn.1 turn.2 now

/-- In every run in which each worker that decides to exit leaves the minimum of workers that have not decided to, and
until the pool is shut down, the thread count keeps the minimum, and whenever a queue is not empty there is a worker that
has not decided to exit and looks at the queues before it waits again: it is not waiting, or has been notified, or the
thread that queued the work goes on to notify one. -/
theorem run_serves (config : WorkerPoolConfig) (created : Fin config.minThreads ↪ Thread) (pool : WorkerPool Thread)
    (built : new config created = .ok pool) (schedule : List (Thread × PoolChoice Thread))
    (guarded : pool.GuardedExits schedule) (opened : (pool.run schedule).shutdown = false) :
    config.minThreads ≤ (pool.run schedule).threadCount ∧
    (0 < (pool.run schedule).injector + (pool.run schedule).ready →
      ∃ worker, 0 < staying ((pool.run schedule).place worker) ∧
        (0 < awake ((pool.run schedule).place worker) ∨ ∃ caller, 0 < pending ((pool.run schedule).place caller))) := by
  obtain ⟨steady, same⟩ := new_steady built
  have kept : (pool.run schedule).config = config := (pool.run_config schedule).trans same
  have booked := (new_booked built).run schedule
  rcases run_steady (.inr steady) guarded with closed | steady
  · cases opened.symm.trans closed
  · exact ⟨kept ▸ steady.minThreads_le booked, steady.serves⟩

/-- Where the first worker lowers the thread count before the second tests it, the second stays. -/
theorem run_serves_small : ∃ pool, new smallConfig firstWorker = .ok pool ∧
    let later := pool.run (firstExits ++ [(0, .go)] ++ secondTests ++ enqueues)
    later.shutdown = false ∧ later.ready = 1 ∧ smallConfig.minThreads ≤ later.threadCount ∧
      ∃ worker, 0 < staying (later.place worker) ∧
        (0 < awake (later.place worker) ∨ ∃ caller, 0 < pending (later.place caller)) := by
  refine ⟨_, rfl, ?_⟩
  have serves := run_serves smallConfig firstWorker _ rfl (firstExits ++ [(0, .go)] ++ secondTests ++ enqueues)
    (by decide +kernel) (by decide +kernel)
  exact ⟨by decide +kernel, by decide +kernel, serves.1, serves.2 (by decide +kernel)⟩

/-- Where the second worker tests the thread count before the first lowers it, both exit, and no worker is left for a
task that is enqueued. -/
theorem run_strands_small : ∃ pool, new smallConfig firstWorker = .ok pool ∧
    let later := pool.run (firstExits ++ secondTests ++ [(0, .go), (1, .go)] ++ enqueues)
    later.shutdown = false ∧ later.threadCount < smallConfig.minThreads ∧ 0 < later.ready ∧
      ∀ thread, staying (later.place thread) = 0 ∧ pending (later.place thread) = 0 := by
  refine ⟨_, rfl, ?_⟩
  decide +kernel

end WorkerPool

end Instancy
