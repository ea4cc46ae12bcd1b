import Instancy.Library.ThreadCount
import Instancy.Runtime.ExecutorTask

namespace Instancy

open Library

namespace ExecutorTask

/-- A thread that has dequeued the task and not yet tried to claim it, or that has to enqueue it. -/
def obligation : TaskPlace → Nat
  | .enqueueing | .claiming => 1
  | _ => 0

/-- A thread between its claim and the end of its poll, as far as the task is not done. -/
def polling : TaskPlace → Nat
  | .claimed | .running | .pausing | .finishing _ => 1
  | _ => 0

/-- A thread whose poll has ended the task and not yet returned. -/
def ending : TaskPlace → Nat
  | .releasing _ | .publishing _ => 1
  | _ => 0

/-- A thread between its claim and the end of its poll. -/
def inPoll (place : TaskPlace) : Nat := polling place + ending place

/-- The time at which a wake began that has not returned. -/
def wakeBegun : TaskPlace → Option Nat
  | .waking begun | .rewaking begun _ => some begun
  | _ => none

/-- The time at which a wake began that has seen the task queued or done, and returns. -/
def wakeSeen : TaskPlace → Option Nat
  | .rewaking begun .queued | .rewaking begun .done => some begun
  | _ => none

theorem wakeBegun_of_wakeSeen {place : TaskPlace} {time : Nat} (seen : wakeSeen place = some time) :
    wakeBegun place = some time := by
  unfold wakeSeen at seen
  split at seen
  · exact seen
  · exact seen
  · cases seen

theorem wakeSeen_rewaking {begun time : Nat} {observed : TaskState}
    (seen : wakeSeen (.rewaking begun observed) = some time) : observed = .queued ∨ observed = .done := by
  cases observed with
  | idle | polling => cases seen
  | queued => exact .inl rfl
  | done => exact .inr rfl

variable {Thread : Type}

/-- A wake that returned is followed by a claim or covered by the state of the task. -/
def Covered (task : ExecutorTask Thread) (time : Nat) : Prop :=
  task.state = .done ∨ task.state = .queued ∨ ∃ claim ∈ task.claims, time < claim

/-- A wake stays covered: a queued task is claimed later than the wake began. -/
theorem Covered.step {before after : ExecutorTask Thread} {time : Nat} (covered : before.Covered time)
    (early : time < before.clock)
    (claims : before.claims ⊆ after.claims)
    (state : after.state = before.state ∨ after.state = .queued ∨ after.state = .done ∨ before.state = .polling ∨
      before.clock ∈ after.claims) : after.Covered time := by
  rcases state with same | queued | done | polled | claimed
  · rcases covered with done | queued | ⟨claim, known, later⟩
    · exact .inl (same.trans done)
    · exact .inr (.inl (same.trans queued))
    · exact .inr (.inr ⟨claim, claims known, later⟩)
  · exact .inr (.inl queued)
  · exact .inl done
  · rcases covered with done | queued | ⟨claim, known, later⟩
    · exact TaskState.noConfusion (polled.symm.trans done)
    · exact TaskState.noConfusion (polled.symm.trans queued)
    · exact .inr (.inr ⟨claim, claims known, later⟩)
  · exact .inr (.inr ⟨before.clock, claimed, early⟩)

variable [Fintype Thread]

/-- The entries of the task in the ready queue, the threads that have dequeued it and those that have to enqueue it. -/
def load (task : ExecutorTask Thread) : Nat := task.entries + total obligation task.place

/-- Nothing of the task has been released. -/
structure Unreleased (task : ExecutorTask Thread) : Prop where
  ending : total ending task.place = 0
  executor : task.executor = true
  notifier : task.notifier = true
  published : task.published = []

/-- The state of the task says who owns its next poll. -/
def Balanced (task : ExecutorTask Thread) : Prop :=
  match task.state with
  | .idle => task.load = 0 ∧ total polling task.place = 0 ∧ task.Unreleased
  | .queued => task.load + total polling task.place = 1 ∧ task.Unreleased
  | .polling => task.load = 0 ∧ total polling task.place = 1 ∧ task.Unreleased
  | .done => task.load = 0 ∧ total polling task.place = 0 ∧
      total ending task.place + task.published.length = 1 ∧ task.notifier = decide (task.published.length = 0)

/-- The invariant of all interleavings. -/
structure Owned (task : ExecutorTask Thread) : Prop where
  balanced : task.Balanced
  begun : ∀ thread time, wakeBegun (task.place thread) = some time → time < task.clock
  seen : ∀ thread time, wakeSeen (task.place thread) = some time → task.Covered time
  woken : ∀ time ∈ task.woken, time < task.clock ∧ task.Covered time

section Balance

variable {task after : ExecutorTask Thread} (balanced : task.Balanced)

include balanced

/-- The balance depends on the counts only. -/
theorem Balanced.congr (state : after.state = task.state) (loads : after.load = task.load)
    (polls : total polling after.place = total polling task.place)
    (ends : total ending after.place = total ending task.place)
    (executor : after.executor = task.executor ∨ task.state = .done) (notifier : after.notifier = task.notifier)
    (published : after.published = task.published) : after.Balanced := by
  have unreleased (alive : task.state ≠ .done) (held : task.Unreleased) : after.Unreleased :=
    ⟨ends.trans held.ending, (executor.resolve_right alive).trans held.executor, notifier.trans held.notifier,
      published.trans held.published⟩
  unfold Balanced at balanced ⊢
  rw [state, loads, polls, ends, notifier, published]
  cases known : task.state with
  | idle | polling =>
    rw [known] at balanced unreleased
    exact ⟨balanced.1, balanced.2.1, unreleased nofun balanced.2.2⟩
  | queued =>
    rw [known] at balanced unreleased
    exact ⟨balanced.1, unreleased nofun balanced.2⟩
  | done =>
    rw [known] at balanced
    exact balanced

/-- A task is polled by one thread at most. -/
theorem Balanced.inPoll_le : total inPoll task.place ≤ 1 := by
  have both : total inPoll task.place = total polling task.place + total ending task.place := Finset.sum_add_distrib
  unfold Balanced at balanced
  split at balanced
  · have none := balanced.2.2.ending
    omega
  · have none := balanced.2.ending
    omega
  · have none := balanced.2.2.ending
    omega
  · omega

theorem Balanced.unreleased (alive : task.state ≠ .done) : task.Unreleased := by
  unfold Balanced at balanced
  split at balanced
  · exact balanced.2.2
  · exact balanced.2
  · exact balanced.2.2
  · rename_i done
    exact absurd done alive

variable {thread : Thread}

/-- A thread that polls the task keeps it from being queued elsewhere. -/
theorem Balanced.polled (polls : polling (task.place thread) = 1) :
    task.load = 0 ∧ total polling task.place = 1 ∧ task.state ≠ .done ∧ task.state ≠ .idle := by
  have counted : polling (task.place thread) ≤ total polling task.place := weight_le_total thread
  unfold Balanced at balanced
  split at balanced
  · omega
  · rename_i queued
    exact ⟨by omega, by omega, by simp [queued], by simp [queued]⟩
  · rename_i polled
    exact ⟨balanced.1, balanced.2.1, by simp [polled], by simp [polled]⟩
  · omega

theorem Balanced.ended (ends : ending (task.place thread) = 1) : task.state = .done := by
  by_contra alive
  have counted : ending (task.place thread) ≤ total ending task.place := weight_le_total thread
  have none := (balanced.unreleased alive).ending
  omega

theorem Balanced.unpublished (ends : ending (task.place thread) = 1) : task.notifier = true := by
  have done := balanced.ended ends
  have counted : ending (task.place thread) ≤ total ending task.place := weight_le_total thread
  unfold Balanced at balanced
  rw [done] at balanced
  obtain ⟨_, _, _, notifier⟩ := balanced
  rw [notifier, decide_eq_true_iff]
  omega

/-- A thread that has dequeued the task, or has to enqueue it, finds it queued. -/
theorem Balanced.obliged (obliged : obligation (task.place thread) = 1) :
    task.state = .queued ∧ task.load = 1 ∧ total polling task.place = 0 := by
  have counted : obligation (task.place thread) ≤ total obligation task.place := weight_le_total thread
  have loaded : task.load = task.entries + total obligation task.place := rfl
  unfold Balanced at balanced
  split at balanced
  · omega
  · rename_i queued
    exact ⟨queued, by omega, by omega⟩
  · omega
  · omega

end Balance

section Moves

variable [DecidableEq Thread] {before after : ExecutorTask Thread} {thread : Thread} {next : TaskPlace}

/-- One thread goes on to another place, and nothing of the task is released. -/
structure Moves (before after : ExecutorTask Thread) (thread : Thread) (next : TaskPlace) : Prop where
  place : after.place = Function.update before.place thread next
  executor : after.executor = before.executor
  notifier : after.notifier = before.notifier
  published : after.published = before.published

/-- The counts to which a thread adds at a place. -/
def Weighs (place : TaskPlace) (obliged polls ends : Nat) : Prop :=
  obligation place = obliged ∧ polling place = polls ∧ ending place = ends

theorem weighs_at {here place : TaskPlace} (same : here = place) :
    Weighs here (obligation place) (polling place) (ending place) := by
  rw [same]
  exact ⟨rfl, rfl, rfl⟩

theorem total_moved (weight : TaskPlace → Nat) (place : after.place = Function.update before.place thread next) :
    total weight after.place + weight (before.place thread) = total weight before.place + weight next := by
  rw [place]
  exact total_update ..

theorem load_moved (place : after.place = Function.update before.place thread next) :
    after.load + before.entries + obligation (before.place thread) = before.load + after.entries + obligation next := by
  have moved := total_moved obligation place
  unfold load
  omega

/-- How the counts move with a thread between two places. -/
theorem counts_moved {obliged polls ends nextObliged nextPolls nextEnds : Nat}
    (place : after.place = Function.update before.place thread next) (entries : after.entries = before.entries)
    (here : Weighs (before.place thread) obliged polls ends) (there : Weighs next nextObliged nextPolls nextEnds) :
    after.load + obliged = before.load + nextObliged ∧
      total polling after.place + polls = total polling before.place + nextPolls ∧
      total ending after.place + ends = total ending before.place + nextEnds := by
  obtain ⟨rfl, rfl, rfl⟩ := here
  obtain ⟨rfl, rfl, rfl⟩ := there
  have loads := load_moved place
  exact ⟨by omega, total_moved polling place, total_moved ending place⟩

theorem Moves.unreleased (moves : Moves before after thread next) (unreleased : before.Unreleased)
    (ends : ending next = 0) : after.Unreleased := by
  have none := unreleased.ending
  have moved := total_moved ending moves.place
  exact ⟨by omega, moves.executor.trans unreleased.executor, moves.notifier.trans unreleased.notifier,
    moves.published.trans unreleased.published⟩

section

variable (balanced : before.Balanced) (moves : Moves before after thread next)
include balanced moves

/-- A thread goes on without changing who owns the task. -/
theorem Moves.stays {obliged nextObliged polls ends : Nat} (state : after.state = before.state)
    (here : Weighs (before.place thread) obliged polls ends) (there : Weighs next nextObliged polls ends)
    (loads : after.entries + nextObliged = before.entries + obliged) : after.Balanced := by
  obtain ⟨rfl, rfl, rfl⟩ := here
  obtain ⟨rfl, polls, ends⟩ := there
  have obliged := load_moved moves.place
  have polled := total_moved polling moves.place
  have ended := total_moved ending moves.place
  exact balanced.congr state (by omega) (by omega) (by omega) (.inl moves.executor) moves.notifier moves.published

variable (entries : after.entries = before.entries)
include entries

/-- A wake takes the task out of the idle state, and its thread has to enqueue it. -/
theorem Moves.wakesIdle (idle : before.state = .idle) (queued : after.state = .queued)
    (here : Weighs (before.place thread) 0 0 0) (there : Weighs next 1 0 0) : after.Balanced := by
  obtain ⟨obliged, polled, _⟩ := counts_moved moves.place entries here there
  unfold Balanced at balanced ⊢
  rw [idle] at balanced
  rw [queued]
  obtain ⟨_, _, unreleased⟩ := balanced
  exact ⟨by omega, moves.unreleased unreleased there.2.2⟩

/-- A wake that finds the task being polled leaves the entry to the thread that polls it. -/
theorem Moves.wakesPolled (polled : before.state = .polling) (queued : after.state = .queued)
    (here : Weighs (before.place thread) 0 0 0) (there : Weighs next 0 0 0) : after.Balanced := by
  obtain ⟨obliged, polls, _⟩ := counts_moved moves.place entries here there
  unfold Balanced at balanced ⊢
  rw [polled] at balanced
  rw [queued]
  obtain ⟨_, _, unreleased⟩ := balanced
  exact ⟨by omega, moves.unreleased unreleased there.2.2⟩

/-- The thread that has dequeued the task claims it. -/
theorem Moves.claims (polled : after.state = .polling)
    (here : Weighs (before.place thread) 1 0 0) (there : Weighs next 0 1 0) : after.Balanced := by
  obtain ⟨queued, loads, polls⟩ := balanced.obliged here.1
  obtain ⟨obliged, polls, _⟩ := counts_moved moves.place entries here there
  have unreleased := moves.unreleased (balanced.unreleased (by simp [queued])) there.2.2
  unfold Balanced
  rw [polled]
  exact ⟨by omega, by omega, unreleased⟩

/-- A poll that is pending leaves the task idle if nothing has woken it. -/
theorem Moves.pauses (idle : after.state = .idle)
    (here : Weighs (before.place thread) 0 1 0) (there : Weighs next 0 0 0) : after.Balanced := by
  obtain ⟨loads, polls, alive, _⟩ := balanced.polled here.2.1
  obtain ⟨obliged, polled, _⟩ := counts_moved moves.place entries here there
  have unreleased := moves.unreleased (balanced.unreleased alive) there.2.2
  unfold Balanced
  rw [idle]
  exact ⟨by omega, by omega, unreleased⟩

/-- A thread that polled a task which was woken meanwhile has to enqueue it. -/
theorem Moves.requeues (woken : before.state ≠ .polling) (state : after.state = before.state)
    (here : Weighs (before.place thread) 0 1 0) (there : Weighs next 1 0 0) : after.Balanced := by
  obtain ⟨loads, polls, alive, busy⟩ := balanced.polled here.2.1
  have queued : before.state = .queued := by cases known : before.state <;> simp_all
  obtain ⟨obliged, polled, _⟩ := counts_moved moves.place entries here there
  have unreleased := moves.unreleased (balanced.unreleased alive) there.2.2
  unfold Balanced
  rw [state, queued]
  exact ⟨by omega, unreleased⟩

/-- The thread that polls the task ends it. -/
theorem Moves.finishes (done : after.state = .done)
    (here : Weighs (before.place thread) 0 1 0) (there : Weighs next 0 0 1) : after.Balanced := by
  obtain ⟨loads, polls, alive, _⟩ := balanced.polled here.2.1
  have unreleased := balanced.unreleased alive
  have none := unreleased.ending
  obtain ⟨obliged, polled, ended⟩ := counts_moved moves.place entries here there
  unfold Balanced
  rw [done, moves.notifier, moves.published, unreleased.published, unreleased.notifier]
  exact ⟨by omega, by omega, by simp only [List.length_nil]; omega, rfl⟩

end

section

variable (balanced : before.Balanced) (place : after.place = Function.update before.place thread next)
  (state : after.state = before.state) (entries : after.entries = before.entries)
  (here : Weighs (before.place thread) 0 0 1)
include balanced place state entries here

/-- The thread that has ended the task drops the executor. -/
theorem Balanced.drops (notifier : after.notifier = before.notifier) (published : after.published = before.published)
    (there : Weighs next 0 0 1) : after.Balanced := by
  have done := balanced.ended here.2.2
  obtain ⟨obliged, polled, ended⟩ := counts_moved place entries here there
  exact balanced.congr state (by omega) (by omega) (by omega) (.inr done) notifier published

/-- The thread that has ended the task publishes its completion, which nobody has taken. -/
theorem Balanced.publishes (outcome : TaskOutcome) (notifier : after.notifier = false)
    (published : after.published = before.published ++ [outcome]) (there : Weighs next 0 0 0) : after.Balanced := by
  have done := balanced.ended here.2.2
  obtain ⟨obliged, polled, ended⟩ := counts_moved place entries here there
  unfold Balanced at balanced ⊢
  rw [done] at balanced
  obtain ⟨_, _, _, _⟩ := balanced
  rw [state, done, notifier, published]
  exact ⟨by omega, by omega, by simp only [List.length_append, List.length_singleton]; omega, by simp⟩

end

end Moves

section Wakes

variable {before after task : ExecutorTask Thread} {thread : Thread} {next : TaskPlace}

/-- A step that leaves every thread where it is. -/
theorem Owned.idles (owned : before.Owned) (state : after.state = before.state) (place : after.place = before.place)
    (entries : after.entries = before.entries) (executor : after.executor = before.executor)
    (notifier : after.notifier = before.notifier) (published : after.published = before.published)
    (clock : after.clock = before.clock + 1) (claims : after.claims = before.claims)
    (woken : after.woken = before.woken) : after.Owned := by
  have covers (time : Nat) (covered : before.Covered time) : after.Covered time := by
    unfold Covered at covered ⊢
    rwa [state, claims]
  refine ⟨?_, ?_, ?_, ?_⟩
  · refine owned.balanced.congr state ?_ (by rw [place]) (by rw [place]) (.inl executor) notifier published
    unfold load
    rw [entries, place]
  · intro thread time known
    rw [place] at known
    have early := owned.begun thread time known
    omega
  · intro thread time known
    rw [place] at known
    exact covers time (owned.seen thread time known)
  · intro time known
    rw [woken] at known
    obtain ⟨early, covered⟩ := owned.woken time known
    exact ⟨by omega, covers time covered⟩

theorem Owned.tick (owned : task.Owned) : Owned { task with clock := task.clock + 1 } :=
  owned.idles rfl rfl rfl rfl rfl rfl rfl rfl rfl

variable [DecidableEq Thread]

section

variable (owned : before.Owned) (balanced : after.Balanced)
  (place : after.place = Function.update before.place thread next) (clock : after.clock = before.clock + 1)
  (claims : before.claims ⊆ after.claims)
  (state : after.state = before.state ∨ after.state = .queued ∨ after.state = .done ∨ before.state = .polling ∨
    before.clock ∈ after.claims)
include owned balanced place clock claims state

/-- One thread goes on, and the wakes stay covered. -/
theorem Owned.moves
    (begun : ∀ time, wakeBegun next = some time → time = before.clock ∨ wakeBegun (before.place thread) = some time)
    (seen : ∀ time, wakeSeen next = some time → after.Covered time)
    (woken : ∀ time ∈ after.woken, time ∈ before.woken ∨
      wakeBegun (before.place thread) = some time ∧ after.Covered time) : after.Owned := by
  refine ⟨balanced, ?_, ?_, ?_⟩
  · intro other time known
    rw [clock]
    rw [place, Function.update_apply] at known
    split at known
    · rcases begun time known with now | earlier
      · omega
      · exact (owned.begun thread time earlier).trans (Nat.lt_succ_self _)
    · exact (owned.begun other time known).trans (Nat.lt_succ_self _)
  · intro other time known
    rw [place, Function.update_apply] at known
    split at known
    · exact seen time known
    · have early : time < before.clock := owned.begun other time (wakeBegun_of_wakeSeen known)
      exact (owned.seen other time known).step early claims state
  · intro time known
    rw [clock]
    rcases woken time known with earlier | ⟨returned, covered⟩
    · obtain ⟨early, covered⟩ := owned.woken time earlier
      exact ⟨early.trans (Nat.lt_succ_self _), covered.step early claims state⟩
    · exact ⟨(owned.begun thread time returned).trans (Nat.lt_succ_self _), covered⟩

/-- A thread that does not wake the task. -/
theorem Owned.passes (woken : after.woken = before.woken) (quiet : wakeBegun next = none) : after.Owned := by
  refine owned.moves balanced place clock claims state ?_ ?_ ?_
  · intro time known
    cases quiet.symm.trans known
  · intro time known
    cases quiet.symm.trans (wakeBegun_of_wakeSeen known)
  · intro time known
    exact .inl (woken ▸ known)

end

/-- A thread that goes on without changing who owns the task. -/
theorem Owned.stays {obliged nextObliged polls ends : Nat} (owned : before.Owned) (moves : Moves before after thread next)
    (here : Weighs (before.place thread) obliged polls ends) (there : Weighs next nextObliged polls ends)
    (loads : after.entries + nextObliged = before.entries + obliged) (state : after.state = before.state)
    (clock : after.clock = before.clock + 1) (claims : after.claims = before.claims)
    (woken : after.woken = before.woken) (quiet : wakeBegun next = none) : after.Owned :=
  owned.passes (moves.stays owned.balanced state here there loads) moves.place clock (claims ▸ List.Subset.refl _)
    (.inl state) woken quiet

variable {begun : Nat}

section

variable (owned : task.Owned)
include owned

/-- A call that returns has left the task covered. -/
theorem Owned.returnWake (calling : wakeBegun (task.place thread) = some begun) (state : TaskState) (enqueues : Bool)
    (balanced : Balanced { { task with state }.returnWake thread begun enqueues with clock := task.clock + 1 })
    (covered : ({ task with state } : ExecutorTask Thread).Covered begun)
    (kept : state = task.state ∨ state = .queued) :
    Owned { { task with state }.returnWake thread begun enqueues with clock := task.clock + 1 } := by
  refine owned.moves balanced rfl rfl (List.Subset.refl _) ?_ ?_ ?_ ?_
  · rcases kept with same | queued
    · exact .inl same
    · exact .inr (.inl queued)
  · intro time known
    cases enqueues <;> cases known
  · intro time known
    cases enqueues <;> cases known
  · intro time known
    rcases List.mem_append.mp known with earlier | now
    · exact .inl earlier
    · rw [List.mem_singleton.mp now]
      exact .inr ⟨calling, covered⟩

theorem Owned.beginWake (here : task.place thread = .idle) :
    Owned { task.goto thread (.waking task.clock) with clock := task.clock + 1 } := by
  have weighs := weighs_at here
  refine owned.moves (Moves.stays owned.balanced ⟨rfl, rfl, rfl, rfl⟩ rfl weighs ⟨rfl, rfl, rfl⟩ rfl) rfl rfl
    (List.Subset.refl _) (.inl rfl) ?_ ?_ ?_
  · intro time known
    cases known
    exact .inl rfl
  · intro time known
    cases known
  · intro time known
    exact .inl known

section

variable (calling : wakeBegun (task.place thread) = some begun)
include calling

/-- A wake that finds the task in no state it may leave looks at the state again. -/
theorem Owned.rewake (weighs : Weighs (task.place thread) 0 0 0) :
    Owned { task.goto thread (.rewaking begun task.state) with clock := task.clock + 1 } := by
  refine owned.moves (Moves.stays owned.balanced ⟨rfl, rfl, rfl, rfl⟩ rfl weighs ⟨rfl, rfl, rfl⟩ rfl) rfl rfl
    (List.Subset.refl _) (.inl rfl) ?_ ?_ ?_
  · intro time known
    cases known
    exact .inr calling
  · intro time known
    rcases wakeSeen_rewaking known with queued | done
    · exact .inr (.inl queued)
    · exact .inl done
  · intro time known
    exact .inl known

/-- A wake that finds the task idle has to enqueue it. -/
theorem Owned.wakeIdle (weighs : Weighs (task.place thread) 0 0 0) (idle : task.state = .idle) :
    Owned { { task with state := .queued }.returnWake thread begun true with clock := task.clock + 1 } := by
  refine owned.returnWake calling .queued true ?_ (.inr (.inl rfl)) (.inr rfl)
  exact Moves.wakesIdle owned.balanced ⟨rfl, rfl, rfl, rfl⟩ rfl idle rfl weighs ⟨rfl, rfl, rfl⟩

theorem Owned.wakePolled (weighs : Weighs (task.place thread) 0 0 0) (polled : task.state = .polling) :
    Owned { { task with state := .queued }.returnWake thread begun false with clock := task.clock + 1 } := by
  refine owned.returnWake calling .queued false ?_ (.inr (.inl rfl)) (.inr rfl)
  exact Moves.wakesPolled owned.balanced ⟨rfl, rfl, rfl, rfl⟩ rfl polled rfl weighs ⟨rfl, rfl, rfl⟩

end

theorem Owned.tryWake (here : task.place thread = .waking begun) :
    Owned { task.tryWake thread begun with clock := task.clock + 1 } := by
  have calling : wakeBegun (task.place thread) = some begun := by rw [here]; rfl
  have weighs := weighs_at here
  unfold ExecutorTask.tryWake
  split
  · rename_i idle
    exact owned.wakeIdle calling weighs idle
  · exact owned.rewake calling weighs

theorem Owned.retryWake {observed : TaskState} (here : task.place thread = .rewaking begun observed) :
    Owned { task.retryWake thread begun observed with clock := task.clock + 1 } := by
  have calling : wakeBegun (task.place thread) = some begun := by rw [here]; rfl
  have weighs := weighs_at here
  unfold ExecutorTask.retryWake
  split
  · -- the state that was observed needs no wake
    have seen : wakeSeen (task.place thread) = some begun := by
      cases observed <;> simp_all [wakeSeen]
    refine owned.returnWake calling task.state false ?_ (owned.seen thread begun seen) (.inl rfl)
    exact Moves.stays owned.balanced ⟨rfl, rfl, rfl, rfl⟩ rfl weighs ⟨rfl, rfl, rfl⟩ rfl
  · split
    · rename_i open_ same
      cases observed with
      | idle => exact owned.wakeIdle calling weighs same
      | polling => exact owned.wakePolled calling weighs same
      | queued | done => exact absurd ⟨by simp, by simp⟩ open_
    · exact owned.rewake calling weighs

theorem Owned.enqueue (here : task.place thread = .enqueueing) :
    Owned { { task with entries := task.entries + 1 }.goto thread .idle with clock := task.clock + 1 } := by
  have weighs := weighs_at here
  exact owned.stays ⟨rfl, rfl, rfl, rfl⟩ weighs ⟨rfl, rfl, rfl⟩ rfl rfl rfl rfl rfl rfl

theorem Owned.dequeue (here : task.place thread = .idle) (queued : task.entries ≠ 0) :
    Owned { { task with entries := task.entries - 1 }.goto thread .claiming with clock := task.clock + 1 } := by
  have weighs := weighs_at here
  have taken : task.entries - 1 + 1 = task.entries := by omega
  exact owned.stays ⟨rfl, rfl, rfl, rfl⟩ weighs ⟨rfl, rfl, rfl⟩ taken rfl rfl rfl rfl rfl

theorem Owned.tryStartPoll (here : task.place thread = .claiming) :
    Owned { task.tryStartPoll thread with clock := task.clock + 1 } := by
  have weighs := weighs_at here
  have queued := (owned.balanced.obliged weighs.1).1
  unfold ExecutorTask.tryStartPoll
  rw [if_pos queued]
  exact owned.passes (Moves.claims owned.balanced ⟨rfl, rfl, rfl, rfl⟩ rfl rfl weighs ⟨rfl, rfl, rfl⟩) rfl rfl
    (List.subset_append_left ..) (.inr (.inr (.inr (.inr (List.mem_append_right _ (List.mem_singleton_self _)))))) rfl rfl

theorem Owned.poll (here : task.place thread = .claimed) : Owned { task.poll thread with clock := task.clock + 1 } := by
  have weighs := weighs_at here
  unfold ExecutorTask.poll
  split
  · exact owned.stays ⟨rfl, rfl, rfl, rfl⟩ weighs ⟨rfl, rfl, rfl⟩ rfl rfl rfl rfl rfl rfl
  · exact owned.stays ⟨rfl, rfl, rfl, rfl⟩ weighs ⟨rfl, rfl, rfl⟩ rfl rfl rfl rfl rfl rfl

end

section

variable (owned : task.Owned)

include owned

/-- A thread goes on while it polls the task. -/
theorem Owned.polls (here : task.place thread = .running) {next : TaskPlace}
    (weighs : Weighs next 0 1 0) (quiet : wakeBegun next = none) :
    Owned { task.goto thread next with clock := task.clock + 1 } := by
  have running := weighs_at here
  exact owned.stays ⟨rfl, rfl, rfl, rfl⟩ running weighs rfl rfl rfl rfl rfl quiet

theorem Owned.resume (here : task.place thread = .running) (choice : TaskChoice) :
    Owned { task.resume thread choice with clock := task.clock + 1 } := by
  cases choice with
  | observe => exact owned.idles rfl rfl rfl rfl rfl rfl rfl rfl rfl
  | pending => exact owned.polls here ⟨rfl, rfl, rfl⟩ rfl
  | ready result => exact owned.polls here ⟨rfl, rfl, rfl⟩ rfl
  | panic => exact owned.polls here ⟨rfl, rfl, rfl⟩ rfl
  | wake | dequeue => exact owned.tick

theorem Owned.pause (here : task.place thread = .pausing) :
    Owned { task.pause thread with clock := task.clock + 1 } := by
  have weighs := weighs_at here
  unfold ExecutorTask.pause
  split
  · rename_i polled
    exact owned.passes (Moves.pauses owned.balanced ⟨rfl, rfl, rfl, rfl⟩ rfl rfl weighs ⟨rfl, rfl, rfl⟩) rfl rfl
      (List.Subset.refl _) (.inr (.inr (.inr (.inl polled)))) rfl rfl
  · rename_i woken
    exact owned.passes (Moves.requeues owned.balanced ⟨rfl, rfl, rfl, rfl⟩ rfl woken rfl weighs ⟨rfl, rfl, rfl⟩) rfl rfl
      (List.Subset.refl _) (.inl rfl) rfl rfl

variable {outcome : TaskOutcome}

theorem Owned.finish (here : task.place thread = .finishing outcome) :
    Owned { { task with state := .done }.goto thread (.releasing outcome) with clock := task.clock + 1 } := by
  have weighs := weighs_at here
  exact owned.passes (Moves.finishes owned.balanced ⟨rfl, rfl, rfl, rfl⟩ rfl rfl weighs ⟨rfl, rfl, rfl⟩) rfl rfl
    (List.Subset.refl _) (.inr (.inr (.inl rfl))) rfl rfl

theorem Owned.release (here : task.place thread = .releasing outcome) :
    Owned { { task with executor := false }.goto thread (.publishing outcome) with clock := task.clock + 1 } := by
  have weighs := weighs_at here
  exact owned.passes (owned.balanced.drops rfl rfl rfl weighs rfl rfl ⟨rfl, rfl, rfl⟩) rfl rfl (List.Subset.refl _)
    (.inl rfl) rfl rfl

theorem Owned.publish (here : task.place thread = .publishing outcome) :
    Owned { task.publish thread outcome with clock := task.clock + 1 } := by
  have weighs := weighs_at here
  unfold ExecutorTask.publish
  rw [if_pos (owned.balanced.unpublished weighs.2.2)]
  exact owned.passes (owned.balanced.publishes rfl rfl rfl weighs outcome rfl rfl ⟨rfl, rfl, rfl⟩) rfl rfl
    (List.Subset.refl _) (.inl rfl) rfl rfl

theorem Owned.step (thread : Thread) (choice : TaskChoice) : (task.step thread choice).Owned := by
  unfold ExecutorTask.step ExecutorTask.advance
  cases here : task.place thread with
  | idle =>
    cases choice with
    | wake => exact owned.beginWake here
    | dequeue =>
      dsimp only
      split
      · exact owned.tick
      · rename_i queued
        exact owned.dequeue here queued
    | observe | pending | panic | ready result => exact owned.tick
  | waking begun => exact owned.tryWake here
  | rewaking begun observed => exact owned.retryWake here
  | enqueueing => exact owned.enqueue here
  | claiming => exact owned.tryStartPoll here
  | claimed => exact owned.poll here
  | running => exact owned.resume here choice
  | pausing => exact owned.pause here
  | finishing outcome => exact owned.finish here
  | releasing outcome => exact owned.release here
  | publishing outcome => exact owned.publish here

end

theorem register_owned (registrar : Thread) : (register registrar).Owned := by
  have counted (weight : TaskPlace → Nat) (idle : weight .idle = 0) :
      total weight (register registrar).place = weight .enqueueing := by
    have moved : total weight (Function.update (fun _ => TaskPlace.idle) registrar .enqueueing) + weight .idle =
        total weight (fun _ : Thread => TaskPlace.idle) + weight .enqueueing := total_update ..
    have none : total weight (fun _ : Thread => TaskPlace.idle) = 0 := total_eq_zero fun _ => idle
    rw [none, idle, Nat.zero_add] at moved
    exact moved
  refine ⟨⟨?_, ?_, rfl, rfl, rfl⟩, ?_, ?_, ?_⟩
  · show 0 + total obligation (register registrar).place + total polling (register registrar).place = 1
    rw [counted obligation rfl, counted polling rfl]
    rfl
  · rw [counted ending rfl]
    rfl
  · intro thread time known
    change wakeBegun (Function.update (fun _ => TaskPlace.idle) registrar .enqueueing thread) = some time at known
    rw [Function.update_apply] at known
    split at known <;> cases known
  · intro thread time known
    change wakeSeen (Function.update (fun _ => TaskPlace.idle) registrar .enqueueing thread) = some time at known
    rw [Function.update_apply] at known
    split at known <;> cases known
  · intro time known
    cases known

theorem Owned.run (owned : task.Owned) (schedule : List (Thread × TaskChoice)) : (task.run schedule).Owned :=
  List.foldlRecOn (motive := Owned) schedule _ owned fun _ owned turn _ => owned.step turn.1 turn.2

end Wakes

end ExecutorTask

end Instancy
