import Instancy.Runtime.ExecutorWake

namespace Instancy

open Library

namespace ExecutorTask

variable {Thread : Type} {task : ExecutorTask Thread}

/-- A thread whose poll is pending enqueues a task that was woken meanwhile. -/
theorem step_pausing [DecidableEq Thread] {thread : Thread} (queued : task.state = .queued)
    (here : task.place thread = .pausing) (choice : TaskChoice) : (task.step thread choice).place thread = .enqueueing := by
  simp [step, advance, here, pause, queued, goto]

variable [Fintype Thread]

section

variable (balanced : task.Balanced)

include balanced

theorem Balanced.unique [DecidableEq Thread] {first second : Thread}
    (polls : 0 < inPoll (task.place first)) (also : 0 < inPoll (task.place second)) : first = second := by
  by_contra different
  have both : inPoll (task.place first) + inPoll (task.place second) ≤ total inPoll task.place :=
    two_le_total different
  have one := balanced.inPoll_le
  omega

theorem Balanced.queued (queued : task.state = .queued)
    (unpolled : ∀ thread, inPoll (task.place thread) = 0) : task.load = 1 := by
  have none : total polling task.place = 0 :=
    total_eq_zero fun thread => Nat.eq_zero_of_add_eq_zero_right (unpolled thread)
  unfold Balanced at balanced
  rw [queued] at balanced
  omega

theorem Balanced.idle (idle : task.state = .idle) : task.load = 0 := by
  unfold Balanced at balanced
  rw [idle] at balanced
  exact balanced.1

theorem Balanced.busy {thread : Thread} (alive : task.state ≠ .done)
    (polls : 0 < inPoll (task.place thread)) : task.load = 0 := by
  have counted : ending (task.place thread) ≤ total ending task.place := weight_le_total thread
  have none := (balanced.unreleased alive).ending
  have polled : polling (task.place thread) = 1 := by
    cases here : task.place thread <;> simp_all [inPoll, polling, ending]
  exact (balanced.polled polled).1

/-- A completion has been published once when the task is done and no thread is in its poll, and never before. -/
theorem Balanced.published :
    task.published.length ≤ 1 ∧ (task.state ≠ .done → task.published = []) ∧
      (task.state = .done → (∀ thread, inPoll (task.place thread) = 0) → task.published.length = 1) := by
  by_cases done : task.state = .done
  · unfold Balanced at balanced
    rw [done] at balanced
    refine ⟨by omega, fun alive => absurd done alive, fun _ unpolled => ?_⟩
    have none : total ending task.place = 0 :=
      total_eq_zero fun thread => Nat.eq_zero_of_add_eq_zero_left (unpolled thread)
    omega
  · have published := (balanced.unreleased done).published
    exact ⟨by simp [published], fun _ => published, fun finished => absurd finished done⟩

theorem Balanced.covers {time : Nat} (covered : task.Covered time) :
    task.state = .done ∨ (∃ claim ∈ task.claims, time < claim) ∨ 0 < task.load ∨
      task.state = .queued ∧ ∃ thread, 0 < polling (task.place thread) := by
  rcases covered with done | queued | claimed
  · exact .inl done
  · unfold Balanced at balanced
    rw [queued] at balanced
    by_cases loaded : task.load = 0
    · have polled : 0 < total polling task.place := by omega
      exact .inr (.inr (.inr ⟨queued, exists_of_total_pos polled⟩))
    · exact .inr (.inr (.inl (Nat.pos_of_ne_zero loaded)))
  · exact .inr (.inl claimed)

end

variable [DecidableEq Thread]

/-- A task that is done stays done, and its future is not polled. -/
theorem Owned.step_done (owned : task.Owned) (done : task.state = .done) (thread : Thread) (choice : TaskChoice) :
    (task.step thread choice).state = .done ∧ (task.step thread choice).polls = task.polls := by
  unfold ExecutorTask.step ExecutorTask.advance
  cases here : task.place thread with
  | idle =>
    cases choice with
    | dequeue =>
      dsimp only
      split <;> exact ⟨done, rfl⟩
    | wake | observe | pending | panic | ready result => exact ⟨done, rfl⟩
  | waking begun => simp [ExecutorTask.tryWake, done, goto]
  | rewaking begun observed =>
    dsimp only
    unfold ExecutorTask.retryWake
    split
    · exact ⟨done, rfl⟩
    · rename_i unsettled
      have moved : task.state ≠ observed := by
        rintro rfl
        exact unsettled (by simp [done])
      rw [if_neg moved]
      exact ⟨done, rfl⟩
  | claiming => simp [ExecutorTask.tryStartPoll, done, goto]
  | claimed => exact absurd done (owned.balanced.polled (by rw [here]; rfl)).2.2.1
  | running => cases choice <;> exact ⟨done, rfl⟩
  | pausing => simp [ExecutorTask.pause, done, goto]
  | enqueueing => exact ⟨done, rfl⟩
  | finishing outcome => exact ⟨rfl, rfl⟩
  | releasing outcome => exact ⟨done, rfl⟩
  | publishing outcome =>
    dsimp only
    unfold ExecutorTask.publish
    split <;> exact ⟨done, rfl⟩

theorem Owned.run_done (owned : task.Owned) (done : task.state = .done) (schedule : List (Thread × TaskChoice)) :
    (task.run schedule).state = .done ∧ (task.run schedule).polls = task.polls := by
  have kept : (task.run schedule).Owned ∧ (task.run schedule).state = .done ∧
      (task.run schedule).polls = task.polls := by
    refine List.foldlRecOn (motive := fun later : ExecutorTask Thread =>
        later.Owned ∧ later.state = .done ∧ later.polls = task.polls) schedule _ ⟨owned, done, rfl⟩ ?_
    rintro later ⟨owned, done, polls⟩ turn -
    obtain ⟨stays, same⟩ := owned.step_done done turn.1 turn.2
    exact ⟨owned.step turn.1 turn.2, stays, same.trans polls⟩
  exact kept.2

/-- In every interleaving of wakes and polls, two threads are never in a poll of the task; a task that is not done has
one entry, dequeued entry or obligation when it is queued and not polled, and none when it is idle or polled; a wake that
returned, whenever it began, has been followed by a claim, or the task is done, or it is covered by an entry, an
obligation or the thread that polls the task and enqueues it afterwards; and a task that is done is never polled again
and publishes its completion once. -/
theorem run_owned (registrar : Thread) (schedule : List (Thread × TaskChoice)) :
    let task := (register registrar).run schedule
    (∀ first second, 0 < inPoll (task.place first) → 0 < inPoll (task.place second) → first = second) ∧
    (task.state = .queued → (∀ thread, inPoll (task.place thread) = 0) → task.load = 1) ∧
    (task.state = .idle → task.load = 0) ∧
    (task.state ≠ .done → (∃ thread, 0 < inPoll (task.place thread)) → task.load = 0) ∧
    (∀ begun ∈ task.woken, task.state = .done ∨ (∃ claim ∈ task.claims, begun < claim) ∨ 0 < task.load ∨
      task.state = .queued ∧ ∃ thread, 0 < polling (task.place thread)) ∧
    (∀ thread choice, task.state = .queued → task.place thread = .pausing →
      (task.step thread choice).place thread = .enqueueing) ∧
    (task.state = .done → ∀ later, (task.run later).state = .done ∧ (task.run later).polls = task.polls) ∧
    task.published.length ≤ 1 ∧ (task.state ≠ .done → task.published = []) ∧
    (task.state = .done → (∀ thread, inPoll (task.place thread) = 0) → task.published.length = 1) := by
  intro task
  have owned : task.Owned := (register_owned registrar).run schedule
  have balanced := owned.balanced
  refine ⟨fun _ _ => balanced.unique, balanced.queued, balanced.idle, ?_, ?_, ?_, owned.run_done, balanced.published⟩
  · rintro alive ⟨thread, polls⟩
    exact balanced.busy alive polls
  · intro begun known
    exact balanced.covers (owned.woken begun known).2
  · intro thread choice queued here
    exact step_pausing queued here choice

/-- A wake in the last poll of a task begins after the future looked at its inputs and before the task is done, and is
followed by no claim. -/
theorem run_last_wake :
    let polled := (register false).run [(false, .wake), (false, .dequeue), (false, .wake), (false, .wake),
      (false, .observe), (true, .wake), (true, .wake), (true, .wake)]
    let ended := polled.run [(false, .ready (.ok true)), (false, .wake), (false, .wake), (false, .wake)]
    ∃ begun ∈ polled.woken, (∀ time ∈ ended.observed, time < begun) ∧ polled.state ≠ .done ∧
      (∀ claim ∈ ended.claims, ¬begun < claim) ∧ ended.load = 0 ∧ ∀ thread, inPoll (ended.place thread) = 0 := by
  decide

end ExecutorTask

end Instancy
