import Instancy.Dataflow.Effects
import Instancy.Dataflow.NotifyPairing
import Instancy.Dataflow.PerTime

namespace Instancy

open Library

section Ports

variable {T D : Type} [TimeOrder T]

/-- The ports of a notifying operator in a call: the batches that wait at its input, and its output. -/
structure Ports.Calling (ports : Ports T T D) (batches : List (T × List D)) : Prop where
  input : ∃ port, ports.inputs[0]? = some port ∧ port.handle.pending = batches
  output : ∃ port, ports.outputs[0]? = some port
  inCall : ports.justify.inCall = true

namespace Ports

variable {ports : Ports T T D} {batches : List (T × List D)}

/-- A batch that is taken justifies every time at or after its own. -/
theorem Calling.next {batch : T × List D} {rest : List (T × List D)} (calling : ports.Calling (batch :: rest)) :
    (ports.consume some 0).Calling rest ∧ (ports.consume some 0).justify.consumed.lessEqual batch.1 = true ∧
      (ports.consume some 0).notify = ports.notify ∧
      emittedOf 0 (ports.consume some 0).events = emittedOf 0 ports.events := by
  obtain ⟨port, found, pending⟩ := calling.input
  obtain ⟨bound, _⟩ := List.getElem?_eq_some_iff.mp found
  obtain ⟨handle, popped, left⟩ := InputHandle.popFront_of_cons pending
  have inCall := calling.inCall
  simp only [consume, found, popped]
  refine ⟨⟨⟨_, List.getElem?_set_self bound, left⟩, calling.output, ?_⟩, ?_, trivial, ?_⟩
  · rw [Justify.noteConsumed_inCall]
    exact inCall
  · simp only [Justify.noteConsumed, inCall, if_true]
    exact (Antichain.insert_lessEqual _ _ _).mpr (Or.inr (le_refl batch.1))
  · simp [emittedOf, PortEvent.emission]

variable (calling : ports.Calling batches)

include calling

theorem Calling.remapped {after : Ports T T D} {capabilities : OrderedSet T} (change : ports.Remapped after capabilities) :
    after.Calling batches :=
  ⟨change.inputs ▸ calling.input, change.output, change.justify ▸ calling.inCall⟩

/-- A justified request is granted; it holds one capability for its time. -/
theorem Calling.notifyAt [ToString T] {time : T} (justified : ports.justify.consumed.lessEqual time = true) :
    (ports.tryNotifyAt time).1 = .ok () ∧
      ports.Remapped (ports.notifyAt time) (ports.notify.capabilities.insert time) := by
  obtain ⟨port, found⟩ := calling.output
  rw [Ports.notifyAt]
  obtain ⟨error, failed, _⟩ | ⟨next, same, granted⟩ := tryNotifyAt_cases found time
  · simp [Justify.check, Justify.justifies, justified] at failed
  · rw [same]
    exact ⟨rfl, granted⟩

theorem Calling.push (time : T) {records : List D} (filled : records ≠ []) :
    (ports.emit 0 time records).Calling batches ∧ (ports.emit 0 time records).notify = ports.notify ∧
      emittedOf 0 (ports.emit 0 time records).events = emittedOf 0 ports.events ++ [(time, records)] := by
  obtain ⟨port, found⟩ := calling.output
  obtain ⟨bound, _⟩ := List.getElem?_eq_some_iff.mp found
  simp only [emit, found]
  refine ⟨⟨calling.input, ⟨_, List.getElem?_set_self bound⟩, calling.inCall⟩, trivial, ?_⟩
  cases records with
  | nil => exact absurd rfl filled
  | cons first rest => simp [emittedOf, PortEvent.emission]

end Ports

end Ports

section Tracking

variable {T D : Type} [TimeOrder T]

/-- The records that are placed at a time, in order. -/
def recordsAt (time : T) (placed : List (T × List D)) : List D :=
  (placed.filter fun batch => batch.1 = time).flatMap Prod.snd

@[simp] theorem recordsAt_append (time : T) (first second : List (T × List D)) :
    recordsAt time (first ++ second) = recordsAt time first ++ recordsAt time second := by
  simp [recordsAt]

@[simp] theorem recordsAt_single (time : T) (batch : T × List D) :
    recordsAt time [batch] = if batch.1 = time then batch.2 else [] := by
  unfold recordsAt
  by_cases same : batch.1 = time <;> simp [same]

namespace PerTime

/-- Where the records of some batches are placed. -/
def placed (operator : PerTime T D) (batches : List (T × List D)) : List (T × List D) :=
  batches.flatMap fun batch => (operator.place batch.1 batch.2).filterMap Except.toOption

/-- No record of the batches is refused. -/
def Accepts (operator : PerTime T D) (batches : List (T × List D)) : Prop :=
  ∀ batch ∈ batches, ∀ error, .error error ∉ operator.place batch.1 batch.2

/-- The closure places records at or after their time, none is lost, and every stashed time has an output. -/
structure Lawful (operator : PerTime T D) : Prop where
  later : ∀ time data target items, .ok (target, items) ∈ operator.place time data → time ≤ target
  filled : ∀ time data target items, data ≠ [] → .ok (target, items) ∈ operator.place time data → items ≠ []
  emits : ∀ records, records ≠ [] → ∃ output, operator.finish (some records) = some output ∧ output ≠ []

/-- The state of an operator between two of its steps, given the frontiers delivered so far and where the records it
took so far were placed. What is stashed at a time is all that was placed there, and is requested, held and not yet
emitted; what was emitted is made of all that was placed there, and its time is complete. -/
structure Tracks (operator : PerTime T D) (delivered : List (Antichain T)) (assigned : List (T × List D))
    (logic : NotifyLogic T D) (capabilities : OrderedSet T) (emitted : List (T × List D)) : Prop where
  paired : logic.notificator.Paired capabilities
  requested : ∀ time, logic.notificator.Outstanding time ↔ (logic.stash time).isSome = true
  passed : ∀ time ∈ logic.notificator.ready.elements, ∃ frontier ∈ delivered, frontier.lessEqual time = false
  current : delivered.getLast? = some logic.notificator.frontier
  stashed : ∀ time records, logic.stash time = some records →
    records = recordsAt time assigned ∧ records ≠ [] ∧ time ∉ emitted.map Prod.fst
  whole : ∀ batch ∈ emitted, operator.finish (some (recordsAt batch.1 assigned)) = some batch.2 ∧
    ∃ frontier ∈ delivered, frontier.lessEqual batch.1 = false
  once : (emitted.map Prod.fst).Nodup
  complete : ∀ time, recordsAt time assigned ≠ [] → (logic.stash time).isSome = true ∨ time ∈ emitted.map Prod.fst

variable {operator : PerTime T D} {delivered : List (Antichain T)} {assigned emitted : List (T × List D)}
  {logic : NotifyLogic T D} {capabilities : OrderedSet T}

namespace Tracks

variable {time : T}

section

variable (tracks : Tracks operator delivered assigned logic capabilities emitted)
include tracks

theorem held : time ∈ capabilities.elements ↔ (logic.stash time).isSome = true :=
  (tracks.paired.keys time).trans (tracks.requested time)

section

variable {latest : Antichain T} (none : logic.notificator.ready.elements = []) (last : delivered.getLast? = some latest)
  (complete : latest.lessEqual time = false)
include none last complete

/-- Where no notification is ready, nothing is stashed at a time that the latest frontier has passed. -/
theorem not_stashed : ¬ (logic.stash time).isSome = true := by
  have current : logic.notificator.frontier = latest := Option.some.inj (tracks.current.symm.trans last)
  rw [← tracks.requested]
  rintro (pending | ready)
  · have covered := tracks.paired.sound.covered time pending
    rw [current, complete] at covered
    cases covered
  · rw [none] at ready
    cases ready

theorem emits (some : recordsAt time assigned ≠ []) : ∃ output, (time, output) ∈ emitted := by
  obtain ⟨batch, member, rfl⟩ := List.mem_map.mp
    ((tracks.complete time some).resolve_left (tracks.not_stashed none last complete))
  exact ⟨batch.2, member⟩

end

section

variable (covered : ∀ frontier ∈ delivered, frontier.lessEqual time = true)
include covered

theorem not_emitted : time ∉ emitted.map Prod.fst := by
  intro found
  obtain ⟨batch, member, rfl⟩ := List.mem_map.mp found
  obtain ⟨_, frontier, delivery, passed⟩ := tracks.whole batch member
  rw [covered frontier delivery] at passed
  cases passed

/-- What is stashed at a time that may still get records is all that was placed there. -/
theorem stash_eq : (logic.stash time).getD [] = recordsAt time assigned := by
  cases stashed : logic.stash time with
  | some records => exact (tracks.stashed time records stashed).1
  | none =>
    by_contra missing
    rcases tracks.complete time (Ne.symm missing) with some | output
    · rw [stashed] at some
      cases some
    · exact tracks.not_emitted covered output

/-- Records are stashed and requested at a time that no delivered frontier has passed. -/
theorem stash {items : List D} (filled : items ≠ []) : Tracks operator delivered (assigned ++ [(time, items)])
      { logic.stashAt time items with notificator := logic.notificator.notifyAt time }
      (capabilities.insert time) emitted := by
  have frontier := logic.notificator.notifyAt_frontier time
  have unemitted := tracks.not_emitted covered
  have all := tracks.stash_eq covered
  have isSome (other : T) : ((logic.stashAt time items).stash other).isSome = true ↔
      other = time ∨ (logic.stash other).isSome = true := by
    by_cases same : other = time <;> simp [NotifyLogic.stashAt, Function.update, same]
  have unchanged (other : T) (apart : other ≠ time) :
      recordsAt other (assigned ++ [(time, items)]) = recordsAt other assigned := by
    simp [Ne.symm apart]
  constructor
  · exact tracks.paired.notifyAt time
  · intro other
    rw [isSome, ← tracks.requested]
    exact Notificator.notifyAt_outstanding time other
  · intro other member
    by_cases old : other ∈ logic.notificator.ready.elements
    · exact tracks.passed other old
    · exact ⟨_, List.mem_of_getLast? tracks.current, frontier ▸ Notificator.notifyAt_fired member old⟩
  · rw [frontier]
    exact tracks.current
  · intro other records found
    by_cases same : other = time
    · subst same
      simp only [NotifyLogic.stashAt, Function.update_self, Option.some.injEq] at found
      subst found
      refine ⟨?_, ?_, unemitted⟩
      · simp [all]
      · simp [filled]
    · simp only [NotifyLogic.stashAt, Function.update_of_ne same] at found
      rw [unchanged other same]
      exact tracks.stashed other records found
  · intro batch member
    have apart : batch.1 ≠ time := by
      intro same
      exact unemitted (same ▸ List.mem_map_of_mem member)
    rw [unchanged batch.1 apart]
    exact tracks.whole batch member
  · exact tracks.once
  · intro other some
    rw [isSome]
    by_cases same : other = time
    · exact Or.inl (Or.inl same)
    · rw [unchanged other same] at some
      exact (tracks.complete other some).imp_left Or.inr

end

/-- A notification fires: all that was placed at its time is emitted. -/
theorem fire
    {notificator : Notificator T} (fired : logic.notificator.next = some (time, notificator)) {output : List D}
    (finished : operator.finish (logic.stash time) = some output) : Tracks operator delivered assigned
      (({ logic with notificator := notificator } : NotifyLogic T D).remove time) (capabilities.remove time)
      (emitted ++ [(time, output)]) := by
  obtain ⟨ready, _, frontier⟩ := Notificator.next_some fired
  have first : time ∈ logic.notificator.ready.elements := by
    rw [ready]
    exact List.mem_cons_self
  obtain ⟨records, found⟩ := Option.isSome_iff_exists.mp ((tracks.requested time).mp (Or.inr first))
  obtain ⟨all, _, unemitted⟩ := tracks.stashed time records found
  have isSome (other : T) : ((({ logic with notificator := notificator } : NotifyLogic T D).remove time).stash
      other).isSome = true ↔ other ≠ time ∧ (logic.stash other).isSome = true := by
    by_cases same : other = time <;> simp [NotifyLogic.remove, Function.update, same]
  have times : (emitted ++ [(time, output)]).map Prod.fst = emitted.map Prod.fst ++ [time] := List.map_append
  constructor
  · exact tracks.paired.next fired
  · intro other
    rw [isSome, ← tracks.requested, and_comm]
    exact tracks.paired.sound.next_outstanding fired other
  · intro other member
    apply tracks.passed other
    rw [ready]
    exact List.mem_cons_of_mem time member
  · change delivered.getLast? = some notificator.frontier
    rw [frontier]
    exact tracks.current
  · intro other stashed kept
    have apart : other ≠ time := ((isSome other).mp (Option.isSome_iff_exists.mpr ⟨stashed, kept⟩)).1
    simp only [NotifyLogic.remove, Function.update_of_ne apart] at kept
    obtain ⟨same, filled, fresh⟩ := tracks.stashed other stashed kept
    refine ⟨same, filled, ?_⟩
    simp [fresh, apart]
  · intro batch member
    rcases List.mem_append.mp member with old | new
    · exact tracks.whole batch old
    · rw [List.mem_singleton.mp new]
      refine ⟨?_, tracks.passed time first⟩
      rw [← all, ← found]
      exact finished
  · rw [times, List.nodup_append]
    refine ⟨tracks.once, List.nodup_singleton time, ?_⟩
    intro other member last isLast
    rw [List.mem_singleton.mp isLast]
    exact fun same => unemitted (same ▸ member)
  · intro other some
    rw [isSome, times]
    rcases tracks.complete other some with kept | output
    · by_cases same : other = time
      · exact Or.inr (by simp [same])
      · exact Or.inl ⟨same, kept⟩
    · exact Or.inr (List.mem_append_left _ output)

/-- A frontier is delivered: the pending times it has passed fire. -/
theorem updateFrontier (frontier : Antichain T) : Tracks operator (delivered ++ [frontier]) assigned
      { logic with notificator := (logic.notificator.updateFrontier frontier).2 } capabilities emitted := by
  have earlier {time : T} (found : ∃ frontier ∈ delivered, frontier.lessEqual time = false) :
      ∃ other ∈ delivered ++ [frontier], other.lessEqual time = false := by
    obtain ⟨old, member, passed⟩ := found
    exact ⟨old, List.mem_append_left _ member, passed⟩
  refine ⟨tracks.paired.updateFrontier frontier, fun time => ?_, fun time member => ?_, List.getLast?_concat,
    tracks.stashed, fun batch member => ?_, tracks.once, tracks.complete⟩
  · exact (Notificator.updateFrontier_outstanding frontier time).trans (tracks.requested time)
  · rcases (Notificator.mem_updateFrontier_ready frontier time).mp member with before | ⟨_, passed⟩
    · exact earlier (tracks.passed time before)
    · exact ⟨frontier, List.mem_append_right _ (List.mem_singleton_self frontier), passed⟩
  · obtain ⟨finished, found⟩ := tracks.whole batch member
    exact ⟨finished, earlier found⟩

end

end Tracks

variable (operator delivered assigned) in
/-- What the operator has done by a moment of its call. -/
abbrev Tracked (logic : NotifyLogic T D) (ports : Ports T T D) : Prop :=
  Tracks operator delivered assigned logic ports.notify.capabilities (emittedOf 0 ports.events)

variable [ToString T] {ports : Ports T T D}

/-- The records of one batch are stashed, unless one of them is refused. -/
theorem stashAll_run (post : (Except RunError Bool × NotifyLogic T D) × Ports T T D → Prop)
    (failed : ∀ error logic ports, post ((.error error, logic), ports)) {rest : List (T × List D)}
    (next : NotifyLogic T D → Program T T D (Except RunError Bool × NotifyLogic T D))
    (placed : List (Except RunError (T × List D))) (calling : ports.Calling rest)
    (tracks : operator.Tracked delivered assigned logic ports)
    (fine : ∀ time items, .ok (time, items) ∈ placed → ports.justify.consumed.lessEqual time = true ∧
      (∀ frontier ∈ delivered, frontier.lessEqual time = true) ∧ items ≠ [])
    (continues : ∀ (logic : NotifyLogic T D) (ports : Ports T T D), (∀ error, .error error ∉ placed) → ports.Calling rest →
      Tracked operator delivered (assigned ++ placed.filterMap Except.toOption) logic ports →
        post ((next logic).run some ports)) :
    post ((NotifyLogic.stashAll placed logic next).run some ports) := by
  induction placed generalizing logic ports assigned with
  | nil => exact continues logic ports (fun _ => List.not_mem_nil) calling (by simpa using tracks)
  | cons first others ih =>
    cases first with
    | error error => exact failed error logic ports
    | ok batch =>
      obtain ⟨time, items⟩ := batch
      obtain ⟨justified, covered, filled⟩ := fine time items List.mem_cons_self
      obtain ⟨granted, change⟩ := calling.notifyAt justified
      have stashed := tracks.stash covered filled
      rw [← change.capabilities, ← change.emitted] at stashed
      simp only [NotifyLogic.stashAll, NotifyLogic.notifyAt, Program.run, granted, Ports.perform]
      refine ih (calling.remapped change) stashed (fun other records member => ?_)
        fun logic ports accepted calling tracks => ?_
      · rw [change.justify]
        exact fine other records (List.mem_cons_of_mem _ member)
      · refine continues logic ports (fun error => ?_) calling (by simpa [Except.toOption] using tracks)
        simp [accepted error]

/-- All waiting batches are taken. -/
theorem takeAll_run (lawful : operator.Lawful) (post : (Except RunError Bool × NotifyLogic T D) × Ports T T D → Prop)
    (failed : ∀ error logic ports, post ((.error error, logic), ports))
    (next : NotifyLogic T D → Program T T D (Except RunError Bool × NotifyLogic T D))
    (batches : List (T × List D)) (calling : ports.Calling batches)
    (tracks : operator.Tracked delivered assigned logic ports)
    (fine : ∀ batch ∈ batches, batch.2 ≠ [] ∧ ∀ frontier ∈ delivered, frontier.lessEqual batch.1 = true)
    (continues : ∀ (logic : NotifyLogic T D) (ports : Ports T T D), operator.Accepts batches → ports.Calling [] →
      Tracked operator delivered (assigned ++ operator.placed batches) logic ports → post ((next logic).run some ports)) :
    post ((NotifyLogic.takeAll operator batches logic next).run some ports) := by
  induction batches generalizing logic ports assigned with
  | nil => exact continues logic ports nofun calling (by simpa [placed] using tracks)
  | cons batch rest ih =>
    obtain ⟨filled, covered⟩ := fine batch List.mem_cons_self
    obtain ⟨after, justified, notify, emitted⟩ := calling.next
    apply stashAll_run post failed _ _ after
    · rw [Tracked, notify, emitted]
      exact tracks
    · intro time items member
      have later := lawful.later batch.1 batch.2 time items member
      refine ⟨Antichain.lessEqual_mono justified later, fun frontier delivery => ?_, ?_⟩
      · exact Antichain.lessEqual_mono (covered frontier delivery) later
      · exact lawful.filled batch.1 batch.2 time items filled member
    · intro logic ports accepted calling tracks
      refine ih calling tracks (fun other member => fine other (List.mem_cons_of_mem _ member)) ?_
      intro logic ports accepts calling tracks
      refine continues logic ports ?_ calling (by simpa [placed] using tracks)
      exact List.forall_mem_cons.mpr ⟨accepted, accepts⟩

/-- Every ready notification fires. -/
theorem fireAll_run (lawful : operator.Lawful) (fuel : Nat) (enough : logic.notificator.ready.elements.length = fuel)
    (calling : ports.Calling [])
    (tracks : operator.Tracked delivered assigned logic ports) :
    ∃ after finish, (NotifyLogic.fireAll operator fuel logic).run some ports = ((.ok true, after), finish) ∧
      finish.Calling [] ∧ after.notificator.ready.elements = [] ∧ Tracked operator delivered assigned after finish := by
  induction fuel generalizing logic ports with
  | zero => exact ⟨logic, ports, rfl, calling, List.length_eq_zero_iff.mp enough, tracks⟩
  | succ fuel ih =>
    cases fired : logic.notificator.next with
    | none =>
      have none := Notificator.next_none fired
      rw [none] at enough
      cases enough
    | some first =>
      obtain ⟨time, notificator⟩ := first
      obtain ⟨ready, _, _⟩ := Notificator.next_some fired
      have member : time ∈ logic.notificator.ready.elements := by
        rw [ready]
        exact List.mem_cons_self
      have stashed := (tracks.requested time).mp (Or.inr member)
      obtain ⟨records, found⟩ := Option.isSome_iff_exists.mp stashed
      obtain ⟨_, filled, _⟩ := tracks.stashed time records found
      obtain ⟨output, finished, nonempty⟩ := lawful.emits records filled
      rw [← found] at finished
      obtain ⟨port, there⟩ := calling.output
      have change := Ports.dropNotified_remapped there (tracks.held.mpr stashed)
      obtain ⟨pushed, notify, emitted⟩ := (calling.remapped change).push time nonempty
      have fires := tracks.fire fired finished
      rw [← change.capabilities, ← change.emitted, ← emitted, ← notify] at fires
      simp only [NotifyLogic.fireAll, fired, finished, Program.run, Ports.perform]
      refine ih ?_ pushed fires
      rw [ready] at enough
      exact Nat.succ.inj enough

variable (operator delivered assigned) in
/-- All batches are taken, and no notification is ready. -/
def Finished (batches : List (T × List D)) (result : (Except RunError Bool × NotifyLogic T D) × Ports T T D) : Prop :=
  operator.Accepts batches ∧ result.2.Calling [] ∧ result.1.2.notificator.ready.elements = [] ∧
    Tracked operator delivered (assigned ++ operator.placed batches) result.1.2 result.2

/-- A call that returns no error takes all waiting batches and leaves no notification ready. -/
theorem call_run (lawful : operator.Lawful) {batches : List (T × List D)} (calling : ports.Calling batches)
    (tracks : operator.Tracked delivered assigned logic ports)
    (fine : ∀ batch ∈ batches, batch.2 ≠ [] ∧ ∀ frontier ∈ delivered, frontier.lessEqual batch.1 = true) {did : Bool}
    (passed : ((NotifyLogic.call operator logic).run some ports).1.1 = .ok did) :
    Finished operator delivered assigned batches ((NotifyLogic.call operator logic).run some ports) := by
  have waiting : ports.waiting 0 = batches := by
    obtain ⟨input, there, pending⟩ := calling.input
    simp [Ports.waiting, there, pending]
  revert passed
  simp only [NotifyLogic.call, Program.run, waiting]
  refine takeAll_run lawful (fun result => result.1.1 = .ok did → Finished operator delivered assigned batches result) ?_ _
    batches calling tracks fine ?_
  · intro _ _ _ impossible
    cases impossible
  · intro logic ports accepts calling tracks _
    obtain ⟨after, finish, ran, settled, none, whole⟩ := fireAll_run lawful _ rfl calling tracks
    rw [ran]
    exact ⟨accepts, settled, none, whole⟩

end PerTime

end Tracking

end Instancy
