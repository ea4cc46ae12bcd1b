import Instancy.Runtime.WorkerPoolCounters

namespace Instancy

open Library

namespace WorkerPool

theorem staying_le (place : PoolPlace) : staying place ≤ 1 := by
  cases place with
  | waiting signalled => cases signalled <;> exact le_rfl
  | enqueueing worker | notifyLocking worker | notifying worker | unlocking worker =>
    cases worker <;> first | exact Nat.zero_le 1 | exact le_rfl
  | _ => first | exact Nat.zero_le 1 | exact le_rfl

/-- A thread that has queued work and has not notified a worker. -/
def pending : PoolPlace → Nat
  | .submitted _ | .spawning | .notifyLocking _ | .notifying _ => 1
  | _ => 0

/-- A worker that has found the injector empty, and holds the park mutex since. -/
def foundEmpty : PoolPlace → Nat
  | .checkingRegistry _ found => (!found).toNat
  | .entering | .testing => 1
  | _ => 0

/-- A worker that has found both queues empty, and holds the park mutex since. -/
def foundNothing : PoolPlace → Nat
  | .entering | .testing => 1
  | _ => 0

/-- Another thread that holds the park mutex. -/
def holding : PoolPlace → Nat
  | .checkingRegistry _ found => found.toNat
  | .notifying _ | .unlocking _ | .closingNotify | .checking _ | .checkingInjector _ | .resuming | .leaving => 1
  | _ => 0

/-- A thread that shuts the pool down. -/
def closes : PoolPlace → Nat
  | .closing | .closingNotify => 1
  | _ => 0

/-- A thread that has found the registry. -/
def registered : PoolPlace → Nat
  | .enqueueing _ => 1
  | .working (.dequeuing _) | .working (.claiming _) | .working .pollStarting | .working .polling => 1
  | .working (.pollStopping _) => 1
  | _ => 0

theorem foundNothing_le (place : PoolPlace) : foundNothing place ≤ foundEmpty place := by
  cases place <;> first | exact Nat.zero_le _ | exact le_rfl

variable {Thread : Type} [Fintype Thread]

/-- The workers that have not decided to exit. -/
def workers (pool : WorkerPool Thread) : Nat := total staying pool.place

/-- The invariant of an open pool whose workers have only exited where enough others stayed. -/
structure Steady (pool : WorkerPool Thread) : Prop where
  opened : pool.shutdown = false
  positive : 0 < pool.config.minThreads
  least : pool.config.minThreads ≤ pool.workers
  locked : total foundEmpty pool.place + total holding pool.place = pool.parkMutex.toNat
  closing : total closes pool.place = 0
  injected : 0 < pool.injector → 0 < total foundEmpty pool.place → 0 < total pending pool.place
  readied : 0 < pool.ready → 0 < total foundNothing pool.place → 0 < total pending pool.place
  served : 0 < pool.injector + pool.ready → 0 < total awake pool.place + total pending pool.place
  registry : pool.registry = false → pool.ready = 0 ∧ total registered pool.place = 0

/-- Where no worker waits, one is awake. -/
theorem Steady.awake_pos {pool : WorkerPool Thread} (steady : pool.Steady)
    (none : ∀ waiter, waits (pool.place waiter) = false) : 0 < total awake pool.place := by
  have least := steady.least
  have positive := steady.positive
  have staying : pool.workers = total awake pool.place := by
    refine Finset.sum_congr rfl fun worker _ => ?_
    have awakes := none worker
    cases known : pool.place worker with
    | waiting signalled =>
      rw [known] at awakes
      cases signalled
      · cases awakes
      · rfl
    | _ => rfl
  omega

/-- Queued work has a worker that stays and looks at the queues, or that the thread which queued it goes on to notify. -/
theorem Steady.serves {pool : WorkerPool Thread} (steady : pool.Steady) (queued : 0 < pool.injector + pool.ready) :
    ∃ worker, 0 < staying (pool.place worker) ∧
      (0 < awake (pool.place worker) ∨ ∃ caller, 0 < pending (pool.place caller)) := by
  have served := steady.served queued
  by_cases awakes : 0 < total awake pool.place
  · obtain ⟨worker, looks⟩ := exists_of_total_pos awakes
    exact ⟨worker, Nat.add_pos_left looks _, .inl looks⟩
  · have pends : 0 < total pending pool.place := by omega
    have stays : 0 < total staying pool.place := Nat.lt_of_lt_of_le steady.positive steady.least
    obtain ⟨worker, stays⟩ := exists_of_total_pos stays
    exact ⟨worker, stays, .inr (exists_of_total_pos pends)⟩

theorem Steady.minThreads_le {limit : Nat} {pool : WorkerPool Thread} (steady : pool.Steady) (booked : pool.Booked limit) :
    pool.config.minThreads ≤ pool.threadCount := by
  rw [booked.threads]
  refine steady.least.trans (total_le_total fun place => ?_)
  cases place <;> first | exact le_rfl | exact Nat.zero_le 1

section Moves

variable [DecidableEq Thread] {before after : WorkerPool Thread} {thread : Thread} {place next : PoolPlace}

/-- What one thread may do without another: it keeps its share of the mutex, leaves the workers that are needed, does
not forget a notification, and claims to have seen a queue empty only if it is. -/
structure Moves (before after : WorkerPool Thread) (thread : Thread) (place next : PoolPlace) : Prop where
  here : before.place thread = place
  moved : after.place = Function.update before.place thread next
  config : after.config = before.config
  opened : after.shutdown = before.shutdown
  stays : staying place ≤ staying next ∨ before.config.minThreads < before.workers
  locked : after.parkMutex.toNat + (foundEmpty place + holding place) =
    before.parkMutex.toNat + (foundEmpty next + holding next)
  closing : closes next = 0
  pends : pending place ≤ pending next
  injects : after.injector ≤ before.injector ∨ pending next = 1
  readies : after.ready ≤ before.ready ∨ pending next = 1
  empties : foundEmpty next ≤ foundEmpty place ∨ after.injector = 0
  nothings : foundNothing next ≤ foundNothing place ∨ after.ready = 0
  serves : awake place ≤ awake next ∨ foundNothing place = 1
  registry : after.registry = false → before.registry = false ∧ after.ready ≤ before.ready ∧
    registered next ≤ registered place

theorem Moves.total (moves : Moves before after thread place next) (weight : PoolPlace → Nat) :
    total weight after.place + weight place = Library.total weight before.place + weight next ∧
      weight place ≤ Library.total weight before.place := by
  rw [moves.moved, ← moves.here]
  exact ⟨total_update .., weight_le_total thread⟩

theorem Steady.moves (steady : before.Steady) (moves : Moves before after thread place next) : after.Steady := by
  have pendings := moves.total pending
  have pends := moves.pends
  refine ⟨moves.opened.trans steady.opened, moves.config ▸ steady.positive, ?_, ?_, ?_, ?_, ?_, ?_, ?_⟩
  · have moved : after.workers + staying place = before.workers + staying next ∧ staying place ≤ before.workers :=
      moves.total staying
    have least := steady.least
    have one := staying_le place
    rw [moves.config]
    rcases moves.stays with stays | spare <;> omega
  · have empty := moves.total foundEmpty
    have held := moves.total holding
    have locked := moves.locked
    have known := steady.locked
    omega
  · have known := steady.closing
    have moved := moves.total closes
    have closing := moves.closing
    omega
  · intro injected empty
    have known := steady.injected
    have moved := moves.total foundEmpty
    rcases moves.empties with kept | none
    · rcases moves.injects with less | pends
      · have pendsBefore := known (by omega) (by omega)
        omega
      · omega
    · omega
  · intro readied nothing
    have known := steady.readied
    have moved := moves.total foundNothing
    rcases moves.nothings with kept | none
    · rcases moves.readies with less | pends
      · have pendsBefore := known (by omega) (by omega)
        omega
      · omega
    · omega
  · intro queued
    by_cases pended : pending next = 1
    · omega
    · have less : after.injector ≤ before.injector := moves.injects.resolve_right pended
      have fewer : after.ready ≤ before.ready := moves.readies.resolve_right pended
      have known := steady.served (by omega)
      have moved := moves.total awake
      rcases moves.serves with kept | nothing
      · omega
      · -- a worker that found both queues empty leaves a notification behind
        have empty := foundNothing_le place
        have one := (moves.total foundNothing).2
        have also := (moves.total foundEmpty).2
        have injected := steady.injected
        have readied := steady.readied
        omega
  · intro unset
    obtain ⟨unsetBefore, fewer, kept⟩ := moves.registry unset
    have known := steady.registry unsetBefore
    have moved := moves.total registered
    omega

/-- Two places that add to the same counts. -/
structure Alike (place next : PoolPlace) : Prop where
  awake : WorkerPool.awake next = WorkerPool.awake place
  asleep : WorkerPool.asleep next = WorkerPool.asleep place
  pends : pending next = pending place
  empty : foundEmpty next = foundEmpty place
  nothing : foundNothing next = foundNothing place
  holds : holding next = holding place
  closing : closes next = 0

theorem alike_working (stage later : WorkStage) : Alike (.working stage) (.working later) :=
  ⟨rfl, rfl, rfl, rfl, rfl, rfl, rfl⟩

/-- A thread goes on without a change to the counts. -/
theorem Steady.goes (steady : before.Steady) (here : before.place thread = place)
    (moved : after.place = Function.update before.place thread next) (alike : Alike place next)
    (config : after.config = before.config) (opened : after.shutdown = before.shutdown)
    (mutex : after.parkMutex = before.parkMutex)
    (registry : after.registry = before.registry) (injector : after.injector ≤ before.injector)
    (ready : after.ready ≤ before.ready) (uses : before.registry = false → registered next ≤ registered place) :
    after.Steady := by
  refine steady.moves ⟨here, moved, config, opened, .inl ?_, ?_, alike.closing, alike.pends.symm.le, .inl injector,
    .inl ready, .inl alike.empty.le, .inl alike.nothing.le, .inl alike.awake.symm.le, ?_⟩
  · unfold staying
    rw [alike.awake, alike.asleep]
  · rw [mutex, alike.empty, alike.holds]
  · intro unset
    rw [registry] at unset
    exact ⟨unset, ready, uses unset⟩

end Moves

section Steps

variable [DecidableEq Thread] {pool : WorkerPool Thread} {thread : Thread} {place next : PoolPlace}

section

variable (steady : pool.Steady)

include steady

/-- A thread goes on to a place of the same counts and changes nothing else. -/
theorem Steady.goto (here : pool.place thread = place) (alike : Alike place next)
    (uses : pool.registry = false → registered next ≤ registered place) : (pool.goto thread next).Steady :=
  steady.goes here rfl alike rfl rfl rfl rfl le_rfl le_rfl uses

/-- A thread goes on and leaves the queues and the registry as they are. -/
theorem Steady.passes {threadCount : Nat} {parkMutex : Bool} (here : pool.place thread = place)
    (locked : parkMutex.toNat + (foundEmpty place + holding place) =
      pool.parkMutex.toNat + (foundEmpty next + holding next))
    (stays : staying place ≤ staying next ∨ pool.config.minThreads < pool.workers) (closing : closes next = 0)
    (pends : pending place ≤ pending next) (empties : foundEmpty next ≤ foundEmpty place ∨ pool.injector = 0)
    (nothings : foundNothing next ≤ foundNothing place ∨ pool.ready = 0)
    (serves : awake place ≤ awake next ∨ foundNothing place = 1) (uses : registered next ≤ registered place) :
    Steady ({ pool with threadCount, parkMutex }.goto thread next) :=
  steady.moves ⟨here, rfl, rfl, rfl, stays, locked, closing, pends, .inl le_rfl, .inl le_rfl,
    empties, nothings, serves, fun unset => ⟨unset, le_rfl, uses⟩⟩

theorem Steady.call (here : pool.place thread = .outside) (choice : PoolChoice Thread) :
    (pool.call thread choice).shutdown = true ∨ (pool.call thread choice).Steady := by
  cases choice with
  | submit => exact .inr (steady.goto here ⟨rfl, rfl, rfl, rfl, rfl, rfl, rfl⟩ fun _ => le_rfl)
  | enqueue =>
    rw [WorkerPool.call]
    split
    · rename_i set
      refine .inr (steady.goto here ⟨rfl, rfl, rfl, rfl, rfl, rfl, rfl⟩ ?_)
      intro unset
      cases set.symm.trans unset
    · exact .inr steady
  | createRegistry =>
    refine .inr ⟨steady.opened, steady.positive, steady.least, steady.locked, steady.closing,
      steady.injected, steady.readied, steady.served, ?_⟩
    intro unset
    cases unset
  | shutdown => exact .inl rfl
  | go | retry | unclaimed | again | elapsed | pick target => exact .inr steady

/-- The push of a submit. -/
theorem Steady.inject (here : pool.place thread = .injecting) :
    Steady ({ pool with injector := pool.injector + 1 }.goto thread (.submitted .readingActive)) := by
  refine steady.moves ⟨here, rfl, rfl, rfl, .inl le_rfl, rfl, rfl, Nat.zero_le 1, .inr rfl, .inr rfl,
    .inl le_rfl, .inl le_rfl, .inl le_rfl, ?_⟩
  intro unset
  exact ⟨unset, le_rfl, le_rfl⟩

end

variable {worker woken : Bool}

section

variable (steady : pool.Steady)
include steady

/-- The push of an enqueue, by a thread that has found the registry. -/
theorem Steady.enqueue (here : pool.place thread = .enqueueing worker) :
    Steady ({ pool with ready := pool.ready + 1 }.goto thread (.notifyLocking worker)) := by
  refine steady.moves ⟨here, rfl, rfl, rfl, .inl le_rfl, rfl, rfl, Nat.zero_le 1, .inr rfl, .inr rfl,
    .inl le_rfl, .inl le_rfl, .inl le_rfl, ?_⟩
  intro unset
  have used : registered (pool.place thread) ≤ total registered pool.place := weight_le_total thread
  have none := (steady.registry unset).2
  rw [here, none] at used
  cases used

theorem Steady.lock (here : pool.place thread = place)
    (stays : staying next = staying place) (awakes : awake next = awake place)
    (pends : pending next = pending place) (empty : foundEmpty place = 0 ∧ foundEmpty next = 0)
    (nothing : foundNothing next = 0) (holds : holding place = 0 ∧ holding next = 1) (closing : closes next = 0)
    (uses : registered next = 0) : (pool.lock thread next).Steady := by
  unfold WorkerPool.lock
  split
  · exact steady
  · rename_i free
    refine steady.passes here ?_ (.inl stays.symm.le) closing pends.symm.le (.inl (by omega)) (.inl (by omega))
      (.inl awakes.symm.le) (by omega)
    rw [Bool.eq_false_of_not_eq_true free, empty.1, empty.2, holds.1, holds.2]
    rfl

theorem Steady.unlock (here : pool.place thread = place)
    (stays : staying next = staying place) (awakes : awake place ≤ awake next ∨ foundNothing place = 1) (pends : pending place = 0)
    (held : foundEmpty place + holding place = 1) (freed : foundEmpty next = 0 ∧ holding next = 0)
    (nothing : foundNothing next = 0) (closing : closes next = 0) (uses : registered next = 0) :
    (pool.unlock thread next).Steady := by
  have locked : pool.parkMutex.toNat = 1 := by
    have known := steady.locked
    have empty : foundEmpty (pool.place thread) ≤ total foundEmpty pool.place := weight_le_total thread
    have holds : holding (pool.place thread) ≤ total holding pool.place := weight_le_total thread
    have most := Bool.toNat_le pool.parkMutex
    rw [here] at empty holds
    omega
  refine steady.passes here ?_ (.inl stays.symm.le) closing (by omega) (.inl (by omega)) (.inl (by omega)) awakes
    (by omega)
  rw [locked, held, freed.1, freed.2]
  rfl

/-- A submit goes on to its notification, and may reserve a thread before. -/
theorem Steady.trySpawnThread {stage : SubmitStage}
    (here : pool.place thread = .submitted stage) (choice : PoolChoice Thread) :
    (pool.trySpawnThread thread choice stage).Steady := by
  have goes {next : PoolPlace} (alike : Alike (.submitted stage) next) (uses : registered next = 0) :
      (pool.goto thread next).Steady :=
    steady.goto here alike fun _ => uses.le
  have submits (later : SubmitStage) : (pool.goto thread (.submitted later)).Steady :=
    goes ⟨rfl, rfl, rfl, rfl, rfl, rfl, rfl⟩ rfl
  have notifies : (pool.goto thread (.notifyLocking false)).Steady := goes ⟨rfl, rfl, rfl, rfl, rfl, rfl, rfl⟩ rfl
  have reserves (current : Nat) : Steady (if pool.threadCount = current then
      { pool with threadCount := current + 1 }.goto thread .spawning else pool.goto thread (.submitted .reserving)) := by
    split
    · rename_i same
      subst same
      exact steady.passes here rfl (.inl le_rfl) rfl le_rfl (.inl le_rfl)
        (.inl le_rfl) (.inl le_rfl) le_rfl
    · exact submits .reserving
  cases stage with
  | readingActive => exact submits _
  | readingCount active =>
    rw [WorkerPool.trySpawnThread]
    split
    · exact submits _
    · exact notifies
  | reserving =>
    rw [WorkerPool.trySpawnThread]
    split
    · exact notifies
    · exact submits _
  | exchanging current =>
    cases choice with
    | retry => exact submits _
    | go | submit | enqueue | createRegistry | shutdown | unclaimed | again | elapsed | pick target =>
      exact reserves current

/-- The created thread takes over the share of the thread count that was reserved for it. -/
theorem Steady.spawn (here : pool.place thread = .spawning) (choice : PoolChoice Thread) :
    (pool.spawn thread choice).Steady := by
  cases choice with
  | pick created =>
    rw [WorkerPool.spawn]
    split
    · have outside : pool.place created = .outside := by
        cases known : pool.place created <;> simp_all [isOutside]
      have other : thread ≠ created := by
        rintro rfl
        cases here.symm.trans outside
      have joined : Steady ({ pool with threadCount := pool.threadCount + 1 }.goto created (.working (.top 0))) :=
        steady.passes outside rfl (.inl (Nat.zero_le 1)) rfl le_rfl (.inl le_rfl)
          (.inl le_rfl) (.inl (Nat.zero_le 1)) le_rfl
      have still : ({ pool with threadCount := pool.threadCount + 1 }.goto created
          (.working (.top 0))).place thread = .spawning := (Function.update_of_ne other _ _).trans here
      exact joined.passes still rfl (.inl le_rfl) rfl le_rfl (.inl le_rfl)
        (.inl le_rfl) (.inl le_rfl) le_rfl
    · exact steady
  | go | submit | enqueue | createRegistry | shutdown | retry | unclaimed | again | elapsed => exact steady

/-- A notification is done with where a worker is awake: no worker that holds the park mutex has looked before. -/
theorem Steady.notified (here : pool.place thread = .notifying worker)
    (some : 0 < total awake pool.place) : (pool.goto thread (.unlocking worker)).Steady := by
  have moved (weight : PoolPlace → Nat) :
      total weight (pool.goto thread (.unlocking worker)).place + weight (.notifying worker) =
        total weight pool.place + weight (.unlocking worker) := by
    rw [← here]
    exact total_update ..
  have held : holding (pool.place thread) ≤ total holding pool.place := weight_le_total thread
  rw [here] at held
  have locked := steady.locked
  have most := Bool.toNat_le pool.parkMutex
  have one : holding (.notifying worker) = 1 := rfl
  have unseen : total foundEmpty pool.place = 0 := by omega
  have unseenAfter : total foundEmpty (pool.goto thread (.unlocking worker)).place = 0 :=
    (moved foundEmpty).trans unseen
  refine ⟨steady.opened, steady.positive, ?_, ?_, ?_, ?_, ?_, ?_, ?_⟩
  · exact steady.least.trans (Nat.add_right_cancel (moved staying)).symm.le
  · rw [unseenAfter, ← unseen]
    exact (congrArg (_ + ·) (Nat.add_right_cancel (moved holding))).trans locked
  · exact (moved closes).trans steady.closing
  · omega
  · intro _ nothing
    have less : total foundNothing (pool.goto thread (.unlocking worker)).place ≤
        total foundEmpty (pool.goto thread (.unlocking worker)).place :=
      total_le_total foundNothing_le
    omega
  · intro _
    have same := Nat.add_right_cancel (moved awake)
    omega
  · intro unset
    obtain ⟨none, unused⟩ := steady.registry unset
    exact ⟨none, (moved registered).trans unused⟩

/-- A thread that waits is notified. -/
theorem Steady.signalled (here : pool.place thread = .waiting false) : (pool.goto thread (.waiting true)).Steady :=
  steady.passes here rfl (.inl le_rfl) rfl le_rfl (.inl le_rfl) (.inl le_rfl)
    (.inl (Nat.zero_le 1)) le_rfl

theorem Steady.notifyOne (here : pool.place thread = .notifying worker)
    (choice : PoolChoice Thread) : (pool.notifyOne thread worker choice).Steady := by
  have alone : Steady (if ∃ waiter, waits (pool.place waiter) then pool
      else pool.goto thread (.unlocking worker)) := by
    split
    · exact steady
    · rename_i none
      refine steady.notified here (steady.awake_pos fun waiter => ?_)
      exact Bool.eq_false_of_not_eq_true fun waits => none ⟨waiter, waits⟩
  cases choice with
  | pick waiter =>
    rw [WorkerPool.notifyOne]
    split
    · have sleeps : pool.place waiter = .waiting false := by
        cases known : pool.place waiter with
        | waiting signalled => cases signalled <;> simp_all [waits]
        | _ => simp_all [waits]
      have other : thread ≠ waiter := by
        rintro rfl
        cases here.symm.trans sleeps
      have still : (pool.goto waiter (.waiting true)).place thread = .notifying worker :=
        (Function.update_of_ne other _ _).trans here
      refine (steady.signalled sleeps).notified still ?_
      have one : awake ((pool.goto waiter (.waiting true)).place waiter) ≤
          total awake (pool.goto waiter (.waiting true)).place := weight_le_total waiter
      have woken : (pool.goto waiter (.waiting true)).place waiter = .waiting true := Function.update_self ..
      rw [woken] at one
      exact one
    · exact steady
  | go | submit | enqueue | createRegistry | shutdown | retry | unclaimed | again | elapsed => exact alone

theorem Steady.workerThreadLoop {stage : WorkStage} (here : pool.place thread = .working stage)
    (choice : PoolChoice Thread) : (pool.workerThreadLoop thread choice stage).Steady := by
  have passes {later : WorkStage} (uses : pool.registry = false → registered (.working later) ≤
      registered (.working stage)) : (pool.goto thread (.working later)).Steady :=
    steady.goes here rfl (alike_working ..) rfl rfl rfl rfl le_rfl le_rfl uses
  cases stage with
  | top idle =>
    rw [WorkerPool.workerThreadLoop, steady.opened]
    exact passes fun _ => le_rfl
  | stealing idle =>
    have steals : Steady (if pool.injector = 0 then pool.goto thread (.working (.finding idle))
        else { pool with injector := pool.injector - 1 }.goto thread (.working .starting)) := by
      split
      · exact passes fun _ => le_rfl
      · exact steady.goes here rfl (alike_working ..) rfl rfl rfl rfl (Nat.sub_le _ _) le_rfl fun _ => le_rfl
    cases choice with
    | retry => exact passes fun _ => le_rfl
    | go | submit | enqueue | createRegistry | shutdown | unclaimed | again | elapsed | pick target => exact steals
  | starting | executing | stopping | completing =>
    exact steady.goes here rfl (alike_working ..) rfl rfl rfl rfl le_rfl le_rfl fun _ => le_rfl
  | finding idle =>
    rw [WorkerPool.workerThreadLoop]
    split
    · rename_i set
      refine passes fun unset => ?_
      cases set.symm.trans unset
    · exact passes fun _ => le_rfl
  | dequeuing idle =>
    rw [WorkerPool.workerThreadLoop]
    split
    · exact passes fun _ => Nat.zero_le 1
    · exact steady.goes here rfl (alike_working ..) rfl rfl rfl rfl le_rfl (Nat.sub_le _ _) fun _ => le_rfl
  | claiming idle =>
    cases choice with
    | unclaimed => exact passes fun _ => Nat.zero_le 1
    | go | submit | enqueue | createRegistry | shutdown | retry | again | elapsed | pick target =>
      exact passes fun _ => le_rfl
  | pollStarting =>
    exact steady.goes here rfl (alike_working ..) rfl rfl rfl rfl le_rfl le_rfl fun _ => le_rfl
  | polling => cases choice <;> exact passes fun _ => le_rfl
  | pollStopping again =>
    cases again with
    | true =>
      exact steady.goes here rfl ⟨rfl, rfl, rfl, rfl, rfl, rfl, rfl⟩ rfl rfl rfl rfl le_rfl
        le_rfl fun _ => le_rfl
    | false => exact steady.goes here rfl (alike_working ..) rfl rfl rfl rfl le_rfl le_rfl fun _ => Nat.zero_le 1
  | idling idle =>
    rw [WorkerPool.workerThreadLoop]
    split
    · exact passes fun _ => le_rfl
    · split
      · exact passes fun _ => le_rfl
      · exact passes fun _ => le_rfl
  | parking =>
    rw [WorkerPool.workerThreadLoop, steady.opened]
    exact passes fun _ => le_rfl
  | locking | relocking => exact steady.lock here rfl rfl rfl ⟨rfl, rfl⟩ rfl ⟨rfl, rfl⟩ rfl rfl

/-- A worker that has seen the injector empty says so. -/
theorem Steady.checkInjector (here : pool.place thread = .checkingInjector woken) :
    (pool.goto thread (.checkingRegistry woken (pool.injector != 0))).Steady := by
  by_cases empty : pool.injector = 0
  · rw [empty]
    exact steady.passes here rfl (.inl le_rfl) rfl le_rfl (.inr empty) (.inl le_rfl)
      (.inl le_rfl) le_rfl
  · rw [bne_iff_ne.mpr empty]
    exact steady.goto here ⟨rfl, rfl, rfl, rfl, rfl, rfl, rfl⟩ fun _ => le_rfl

/-- A worker that holds the park mutex goes on to release it. -/
theorem Steady.resume (here : pool.place thread = place) (awakes : awake place = 1)
    (sleeps : asleep place = 0) (pends : pending place = 0)
    (held : foundEmpty place + holding place = 1) : (pool.goto thread .resuming).Steady := by
  refine steady.passes here ?_ (.inl ?_) rfl pends.le (.inl (Nat.zero_le _)) (.inl (Nat.zero_le _)) (.inl awakes.le)
    (Nat.zero_le _)
  · rw [held]
    rfl
  · unfold staying
    rw [awakes, sleeps]
    exact le_rfl

/-- A worker that has seen both queues empty says so. -/
theorem Steady.checkRegistry {found : Bool}
    (here : pool.place thread = .checkingRegistry woken found) : (pool.checkRegistry thread woken found).Steady := by
  unfold WorkerPool.checkRegistry
  split
  · cases found <;> exact steady.resume here rfl rfl rfl rfl
  · rename_i none
    have nothing : found = false ∧ pool.ready = 0 := by
      by_cases set : pool.registry = true
      · simpa [set] using none
      · have unset := (steady.registry (Bool.eq_false_of_not_eq_true set)).1
        exact ⟨by simpa [unset] using none, unset⟩
    obtain ⟨rfl, empty⟩ := nothing
    cases woken <;>
      exact steady.passes here rfl (.inl le_rfl) rfl le_rfl (.inl le_rfl) (.inr empty)
        (.inl le_rfl) le_rfl

/-- A worker wakes, because it was notified, timed out or was woken for no reason. -/
theorem Steady.wake {signalled : Bool} (here : pool.place thread = .waiting signalled) :
    (pool.goto thread (.working .relocking)).Steady := by
  cases signalled with
  | true => exact steady.goto here ⟨rfl, rfl, rfl, rfl, rfl, rfl, rfl⟩ fun _ => le_rfl
  | false =>
    exact steady.passes here rfl (.inl le_rfl) rfl le_rfl (.inl le_rfl)
      (.inl le_rfl) (.inl (Nat.zero_le 1)) le_rfl

/-- A worker exits where more workers stay than are needed. -/
theorem Steady.exit (here : pool.place thread = .testing)
    (spare : pool.config.minThreads < pool.workers) : (pool.goto thread .leaving).Steady :=
  steady.passes here rfl (.inr spare) rfl le_rfl (.inl (Nat.zero_le 1)) (.inl (Nat.zero_le 1)) (.inr rfl)
    le_rfl

theorem Steady.depart (here : pool.place thread = .exiting) :
    Steady ({ pool with threadCount := pool.threadCount - 1 }.goto thread .gone) :=
  steady.passes here rfl (.inl le_rfl) rfl le_rfl (.inl le_rfl) (.inl le_rfl) (.inl le_rfl) le_rfl

/-- An open pool stays steady, or is shut down, if every exit leaves the workers that are needed. -/
theorem Steady.advance (thread : Thread) (choice : PoolChoice Thread)
    (guarded : pool.place thread = .testing → pool.exits choice → pool.config.minThreads < pool.workers) :
    (pool.advance thread choice).shutdown = true ∨ (pool.advance thread choice).Steady := by
  unfold WorkerPool.advance
  cases here : pool.place thread with
  | outside => exact steady.call here choice
  | submitting =>
    exact .inr (steady.goes here rfl ⟨rfl, rfl, rfl, rfl, rfl, rfl, rfl⟩ rfl rfl rfl rfl le_rfl
      le_rfl fun _ => le_rfl)
  | injecting => exact .inr (steady.inject here)
  | submitted stage => exact .inr (steady.trySpawnThread here choice)
  | spawning => exact .inr (steady.spawn here choice)
  | enqueueing worker => exact .inr (steady.enqueue here)
  | notifyLocking worker => exact .inr (steady.lock here rfl rfl rfl ⟨rfl, rfl⟩ rfl ⟨rfl, rfl⟩ rfl rfl)
  | notifying worker => exact .inr (steady.notifyOne here choice)
  | unlocking worker =>
    cases worker <;>
      exact .inr (steady.unlock here rfl (.inl le_rfl) rfl rfl ⟨rfl, rfl⟩ rfl rfl rfl)
  | closing | closingNotify =>
    have closing := steady.closing
    have one : closes (pool.place thread) ≤ total closes pool.place := weight_le_total thread
    rw [here, closing] at one
    cases one
  | working stage => exact .inr (steady.workerThreadLoop here choice)
  | checking woken =>
    rw [steady.opened]
    exact .inr (steady.goto here ⟨rfl, rfl, rfl, rfl, rfl, rfl, rfl⟩ fun _ => le_rfl)
  | checkingInjector woken => exact .inr (steady.checkInjector here)
  | checkingRegistry woken found => exact .inr (steady.checkRegistry here)
  | entering => exact .inr (steady.unlock here rfl (.inr rfl) rfl rfl ⟨rfl, rfl⟩ rfl rfl rfl)
  | waiting signalled => exact .inr (steady.wake here)
  | testing =>
    dsimp only
    split
    · rename_i exits
      exact .inr (steady.exit here (guarded here exits))
    · exact .inr (steady.resume here rfl rfl rfl rfl)
  | resuming => exact .inr (steady.unlock here rfl (.inl le_rfl) rfl rfl ⟨rfl, rfl⟩ rfl rfl rfl)
  | leaving => exact .inr (steady.unlock here rfl (.inl le_rfl) rfl rfl ⟨rfl, rfl⟩ rfl rfl rfl)
  | exiting => exact .inr (steady.depart here)
  | gone => exact .inr steady

end

end Steps

end WorkerPool

end Instancy
