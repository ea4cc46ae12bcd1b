import Instancy.Dataflow.Effects

namespace Instancy

namespace Notificator

variable {T : Type} [TimeOrder T]

/-- A requested time that was not returned yet. -/
def Outstanding (notificator : Notificator T) (time : T) : Prop :=
  time ∈ notificator.pending.elements ∨ time ∈ notificator.ready.elements

instance (notificator : Notificator T) (time : T) : Decidable (notificator.Outstanding time) :=
  inferInstanceAs (Decidable (_ ∨ _))

/-- A time is not in both sets, and the frontier has not passed a pending one. -/
structure Sound (notificator : Notificator T) : Prop where
  apart : ∀ time ∈ notificator.pending.elements, time ∉ notificator.ready.elements
  covered : ∀ time ∈ notificator.pending.elements, notificator.frontier.lessEqual time = true

variable {notificator : Notificator T}

variable {time : T}

theorem notifyAt_of_outstanding (outstanding : notificator.Outstanding time) :
    notificator.notifyAt time = notificator := by
  unfold notifyAt
  rw [if_pos]
  simpa [OrderedSet.contains, Outstanding] using outstanding

theorem notifyAt_of_fresh (fresh : ¬ notificator.Outstanding time) :
    notificator.notifyAt time =
      if notificator.frontier.lessEqual time then { notificator with pending := notificator.pending.insert time }
      else { notificator with ready := notificator.ready.insert time } := by
  unfold notifyAt
  rw [if_neg]
  · cases notificator.frontier.lessEqual time <;> rfl
  · simpa [OrderedSet.contains, Outstanding] using fresh

theorem notifyAt_outstanding (time other : T) :
    (notificator.notifyAt time).Outstanding other ↔ other = time ∨ notificator.Outstanding other := by
  by_cases outstanding : notificator.Outstanding time
  · rw [notifyAt_of_outstanding outstanding]
    exact (or_iff_right_of_imp fun same => same ▸ outstanding).symm
  · rw [notifyAt_of_fresh outstanding]
    unfold Outstanding
    split <;> simp only [OrderedSet.mem_insert] <;> tauto

theorem Sound.notifyAt (sound : notificator.Sound) (time : T) : (notificator.notifyAt time).Sound := by
  by_cases outstanding : notificator.Outstanding time
  · rw [notifyAt_of_outstanding outstanding]
    exact sound
  · obtain ⟨unpended, unfired⟩ := not_or.mp outstanding
    rw [notifyAt_of_fresh outstanding]
    split
    · rename_i covered
      constructor
      · intro other member
        rcases (OrderedSet.mem_insert _ _ _).mp member with same | old
        · exact same ▸ unfired
        · exact sound.apart other old
      · intro other member
        rcases (OrderedSet.mem_insert _ _ _).mp member with same | old
        · exact same ▸ covered
        · exact sound.covered other old
    · refine ⟨fun other member fired => ?_, sound.covered⟩
      rcases (OrderedSet.mem_insert _ _ _).mp fired with same | old
      · exact unpended (same ▸ member)
      · exact sound.apart other member old

/-- A request fires at once only if the frontier has passed its time. -/
theorem notifyAt_fired {other : T} (fired : other ∈ (notificator.notifyAt time).ready.elements)
    (unfired : other ∉ notificator.ready.elements) :
    (notificator.notifyAt time).frontier.lessEqual other = false := by
  by_cases outstanding : notificator.Outstanding time
  · rw [notifyAt_of_outstanding outstanding] at fired
    exact absurd fired unfired
  · rw [notifyAt_of_fresh outstanding] at fired ⊢
    split at fired
    · exact absurd fired unfired
    · rename_i passed
      rw [if_neg passed]
      rcases (OrderedSet.mem_insert _ _ _).mp fired with same | old
      · subst same
        exact Bool.eq_false_iff.mpr passed
      · exact absurd old unfired

variable (frontier : Antichain T)

theorem mem_updateFrontier_ready (time : T) :
    time ∈ (notificator.updateFrontier frontier).2.ready.elements ↔
      time ∈ notificator.ready.elements ∨ time ∈ notificator.pending.elements ∧ frontier.lessEqual time = false := by
  simp [updateFrontier]

theorem mem_updateFrontier_pending (time : T) :
    time ∈ (notificator.updateFrontier frontier).2.pending.elements ↔
      time ∈ notificator.pending.elements ∧ frontier.lessEqual time = true := by
  simp [updateFrontier]

theorem updateFrontier_outstanding (time : T) :
    (notificator.updateFrontier frontier).2.Outstanding time ↔ notificator.Outstanding time := by
  unfold Outstanding
  rw [mem_updateFrontier_pending, mem_updateFrontier_ready]
  cases frontier.lessEqual time <;> simp [or_comm]

theorem Sound.updateFrontier (sound : notificator.Sound) (frontier : Antichain T) :
    (notificator.updateFrontier frontier).2.Sound := by
  constructor
  · intro time pending fired
    obtain ⟨member, covered⟩ := (mem_updateFrontier_pending frontier time).mp pending
    rcases (mem_updateFrontier_ready frontier time).mp fired with old | ⟨_, passed⟩
    · exact sound.apart time member old
    · rw [covered] at passed
      cases passed
  · exact fun time pending => ((mem_updateFrontier_pending frontier time).mp pending).2

variable {rest : Notificator T}

theorem Sound.next (sound : notificator.Sound) (fired : notificator.next = some (time, rest)) : rest.Sound := by
  obtain ⟨ready, pending, frontier⟩ := next_some fired
  constructor
  · intro other member inRest
    rw [pending] at member
    exact sound.apart other member (ready ▸ List.mem_cons_of_mem time inRest)
  · rw [pending, frontier]
    exact sound.covered

/-- A returned time is no longer outstanding; all others stay. -/
theorem Sound.next_outstanding (sound : notificator.Sound) (fired : notificator.next = some (time, rest)) (other : T) :
    rest.Outstanding other ↔ notificator.Outstanding other ∧ other ≠ time := by
  obtain ⟨ready, pending, _⟩ := next_some fired
  have unfired : time ∉ rest.ready.elements := (List.nodup_cons.mp (ready ▸ notificator.ready.nodup)).1
  have unpended : time ∉ notificator.pending.elements := fun member =>
    sound.apart time member (ready ▸ List.mem_cons_self)
  unfold Outstanding
  rw [pending, ready]
  by_cases same : other = time
  · subst same
    simp [unfired, unpended]
  · simp [same]

/-- The least ready time is returned first, so that none is ready that is before it. -/
theorem next_least (fired : notificator.next = some (time, rest)) :
    time ∈ notificator.ready.elements ∧ ∀ other ∈ notificator.ready.elements, ordLe time other ∧ ¬ other < time := by
  obtain ⟨ready, _, _⟩ := next_some fired
  have sorted := notificator.ready.sorted
  rw [ready] at sorted ⊢
  have least : ∀ other ∈ time :: rest.ready.elements, ordLe time other := by
    intro other member
    rcases List.mem_cons.mp member with same | later
    · exact same ▸ ordLe_refl time
    · exact ((List.pairwise_cons.mp sorted).1 other later).1
  refine ⟨List.mem_cons_self, fun other member => ⟨least other member, fun before => ?_⟩⟩
  have same : other = time :=
    TotalOrd.ordLe_antisymm _ _ (ordLe_of_le before.le) (least other member)
  exact before.ne same

/-- The keys of a capability map are the outstanding times. -/
structure Paired (notificator : Notificator T) (capabilities : OrderedSet T) : Prop where
  sound : notificator.Sound
  keys : ∀ time, time ∈ capabilities.elements ↔ notificator.Outstanding time

theorem new_outstanding (initialFrontier : Antichain T) (time : T) : ¬ (new initialFrontier).Outstanding time := by
  rintro (pending | ready)
  · cases pending
  · cases ready

theorem new_paired (initialFrontier : Antichain T) : (new initialFrontier).Paired OrderedSet.empty :=
  ⟨⟨nofun, nofun⟩, fun time => ⟨nofun, fun outstanding => absurd outstanding (new_outstanding initialFrontier time)⟩⟩

section

variable {capabilities : OrderedSet T} (paired : notificator.Paired capabilities)
include paired

theorem Paired.notifyAt (time : T) : (notificator.notifyAt time).Paired (capabilities.insert time) :=
  ⟨paired.sound.notifyAt time, fun other => by rw [OrderedSet.mem_insert, paired.keys, notifyAt_outstanding]⟩

theorem Paired.next (fired : notificator.next = some (time, rest)) : rest.Paired (capabilities.remove time) :=
  ⟨paired.sound.next fired, fun other => by
    rw [OrderedSet.mem_remove, paired.keys, paired.sound.next_outstanding fired]⟩

theorem Paired.updateFrontier (frontier : Antichain T) : (notificator.updateFrontier frontier).2.Paired capabilities :=
  ⟨paired.sound.updateFrontier frontier, fun other =>
    (paired.keys other).trans (updateFrontier_outstanding frontier other).symm⟩

end

end Notificator

namespace Ports

variable {I T D : Type} [TimeOrder I] [TimeOrder T] {ports : Ports I T D} {port : CountedOutput T D}

/-- The ports after a change of the capability map: the inputs, the justification and what was emitted stay. -/
structure Remapped (before after : Ports I T D) (capabilities : OrderedSet T) : Prop where
  output : ∃ port, after.outputs[0]? = some port
  capabilities : after.notify.capabilities = capabilities
  inputs : after.inputs = before.inputs
  justify : after.justify = before.justify
  emitted : emittedOf 0 after.events = emittedOf 0 before.events

variable (found : ports.outputs[0]? = some port) {time : T}
include found

theorem dropNotified_remapped (held : time ∈ ports.notify.capabilities.elements) :
    ports.Remapped (ports.dropNotified time) (ports.notify.capabilities.remove time) := by
  obtain ⟨bound, _⟩ := List.getElem?_eq_some_iff.mp found
  have taken := (OrderedSet.contains_iff _ _).mpr held
  simp only [dropNotified, taken, if_true, release, found]
  split
  · exact ⟨⟨_, List.getElem?_set_self bound⟩, rfl, rfl, rfl, by simp [emittedOf, PortEvent.emission]⟩
  · exact ⟨⟨port, found⟩, rfl, rfl, rfl, rfl⟩

/-- A request is refused and changes nothing, or is granted and its time is in the map. -/
theorem tryNotifyAt_cases [ToString T] (time : T) :
    (∃ error, ports.justify.check port.reporter 0 time "notify_at" = .error error ∧
      ports.tryNotifyAt time = (.error error, ports)) ∨
    ∃ next, ports.tryNotifyAt time = (.ok (), next) ∧
      ports.Remapped next (ports.notify.capabilities.insert time) := by
  obtain ⟨bound, _⟩ := List.getElem?_eq_some_iff.mp found
  simp only [tryNotifyAt, found]
  cases ports.justify.check port.reporter 0 time "notify_at" with
  | error error => exact Or.inl ⟨error, rfl, rfl⟩
  | ok granted =>
    right
    by_cases held : ports.notify.capabilities.contains time = true
    · have same := ports.notify.capabilities.insert_of_contains held
      simp only [if_pos held]
      exact ⟨ports, rfl, ⟨port, found⟩, same.symm, rfl, rfl, rfl⟩
    · simp only [if_neg held, acquire, found]
      exact ⟨_, rfl, ⟨_, List.getElem?_set_self bound⟩, rfl, rfl, rfl, by simp [emittedOf, PortEvent.emission]⟩

end Ports

/-- A notifying operator: its notificator and its ports, which hold the capability map and the context of a call. -/
structure NotifyOperator (I T D : Type) [TimeOrder I] [TimeOrder T] where
  notificator : Notificator T
  ports : Ports I T D

/-- What can happen next. Each call of the logic has a new context; all else that the logic and other tasks do changes
the ports at any time and in any way, but not the map and the error of the context. -/
inductive NotifyCall (I T D : Type) [TimeOrder I] [TimeOrder T] where
  | context
  | environment (ports : Ports I T D) (output : CountedOutput T D)
  | notifyAt (time : T)
  | tryNotifyAt (time : T)
  | nextNotification
  | updateFrontier (frontier : Antichain T)

namespace NotifyCall

variable {I T D : Type} [TimeOrder I] [TimeOrder T]

def deliver (frontier : Antichain T) : NotifyCall I T D → Antichain T
  | .updateFrontier delivered => delivered
  | .context | .environment _ _ | .notifyAt _ | .tryNotifyAt _ | .nextNotification => frontier

/-- The frontier that the calls delivered last, or the initial one. -/
def lastFrontier (initialFrontier : Antichain T) (calls : List (NotifyCall I T D)) : Antichain T :=
  calls.foldl deliver initialFrontier

end NotifyCall

/-- What a call did, for statements only. A request that finds its time outstanding is coalesced. -/
inductive NoticeEvent (T : Type) where
  | requested (time : T)
  | coalesced (time : T)
  | rejected (time : T)
  | returned (time : T)
  deriving DecidableEq

namespace NotifyOperator

variable {I T D : Type} [TimeOrder I] [TimeOrder T]

/-- The ports get one output and an empty map. -/
def new (initialFrontier : Antichain T) (ports : Ports I T D) (output : CountedOutput T D) : NotifyOperator I T D where
  notificator := Notificator.new initialFrontier
  ports := { ports with outputs := [output], notify := ⟨OrderedSet.empty, none⟩ }

variable (operator : NotifyOperator I T D)

def nextNotification : Option T × NotifyOperator I T D :=
  match operator.notificator.next with
  | none => (none, operator)
  | some (time, notificator) => (some time, { notificator, ports := operator.ports.dropNotified time })

def updateFrontier (frontier : Antichain T) : NotifyOperator I T D :=
  { operator with notificator := (operator.notificator.updateFrontier frontier).2 }

/-- The keys of the map are the outstanding times. -/
structure Paired : Prop where
  output : ∃ port, operator.ports.outputs[0]? = some port
  keys : operator.notificator.Paired operator.ports.notify.capabilities

/-- What a step does to the outstanding times: an event of the step says which one joins and which one leaves. -/
structure Effect (operator next : NotifyOperator I T D) (event : Option (NoticeEvent T)) : Prop where
  paired : next.Paired
  outstanding : ∀ time, next.notificator.Outstanding time ↔
    (operator.notificator.Outstanding time ∨ event = some (.requested time)) ∧ event ≠ some (.returned time)
  fresh : ∀ time, event = some (.requested time) → ¬ operator.notificator.Outstanding time
  due : ∀ time, event = some (.returned time) → operator.notificator.Outstanding time
  fired : ∀ time, time ∈ next.notificator.ready.elements → time ∉ operator.notificator.ready.elements →
    next.notificator.frontier.lessEqual time = false

variable {operator}

section

variable (paired : operator.Paired)
include paired

/-- A step that leaves the notificator and the map alone. -/
theorem Paired.still {next : NotifyOperator I T D} {event : Option (NoticeEvent T)}
    (sameNotificator : next.notificator = operator.notificator)
    (sameKeys : next.ports.notify.capabilities = operator.ports.notify.capabilities)
    (output : ∃ port, next.ports.outputs[0]? = some port)
    (silent : ∀ time, event ≠ some (.requested time) ∧ event ≠ some (.returned time)) : Effect operator next event where
  paired := by
    refine ⟨output, ?_⟩
    rw [sameNotificator, sameKeys]
    exact paired.keys
  outstanding time := by
    obtain ⟨unrequested, unreturned⟩ := silent time
    rw [sameNotificator]
    simp [unrequested, unreturned]
  fresh time requested := absurd requested (silent time).1
  due time returned := absurd returned (silent time).2
  fired time member unfired := absurd (sameNotificator ▸ member) unfired

/-- A request that is granted is registered. -/
theorem Paired.accept {time : T} {ports : Ports I T D}
    (granted : operator.ports.Remapped ports (operator.ports.notify.capabilities.insert time)) :
    Effect operator ⟨operator.notificator.notifyAt time, ports⟩
      (some (if operator.notificator.Outstanding time then .coalesced time else .requested time)) where
  paired := ⟨granted.output, granted.capabilities ▸ paired.keys.notifyAt time⟩
  outstanding other := by
    change (operator.notificator.notifyAt time).Outstanding other ↔ _
    rw [Notificator.notifyAt_outstanding]
    by_cases outstanding : operator.notificator.Outstanding time
    · simp only [if_pos outstanding, Option.some.injEq, reduceCtorEq, or_false, ne_eq, not_false_eq_true, and_true]
      exact or_iff_right_of_imp fun same => same ▸ outstanding
    · simp only [if_neg outstanding, Option.some.injEq, NoticeEvent.requested.injEq, reduceCtorEq, ne_eq,
        not_false_eq_true, and_true]
      rw [or_comm, eq_comm]
  fresh other requested := by
    split at requested
    · cases requested
    · rename_i fresh
      cases requested
      exact fresh
  due other returned := by split at returned <;> cases returned
  fired other := Notificator.notifyAt_fired

theorem Paired.nextNotification :
    Effect operator operator.nextNotification.2 (operator.nextNotification.1.map NoticeEvent.returned) := by
  unfold NotifyOperator.nextNotification
  split
  · exact paired.still rfl rfl paired.output fun time => by simp
  · rename_i time rest fired
    have outstanding := paired.keys.sound.next_outstanding fired
    have due : operator.notificator.Outstanding time := Or.inr (Notificator.next_least fired).1
    obtain ⟨port, found⟩ := paired.output
    have dropped := Ports.dropNotified_remapped found ((paired.keys.keys time).mpr due)
    refine ⟨⟨dropped.output, dropped.capabilities ▸ paired.keys.next fired⟩, fun other => ?_, fun other => ?_,
      fun other => ?_, fun other member unfired => ?_⟩
    · rw [outstanding]
      simp [eq_comm]
    · intro requested
      cases requested
    · intro returned
      cases returned
      exact due
    · rw [(Notificator.next_some fired).1] at unfired
      exact absurd (List.mem_cons_of_mem time member) unfired

theorem Paired.updateFrontier (frontier : Antichain T) :
    Effect operator (operator.updateFrontier frontier) none where
  paired := ⟨paired.output, paired.keys.updateFrontier frontier⟩
  outstanding time := by
    change (operator.notificator.updateFrontier frontier).2.Outstanding time ↔ _
    rw [Notificator.updateFrontier_outstanding]
    simp
  fresh time requested := by cases requested
  due time returned := by cases returned
  fired time member unfired := ((Notificator.mem_updateFrontier_ready frontier time).mp member |>.resolve_left unfired).2

end

/-- Every request that was not coalesced was returned or is outstanding. -/
def Balanced (state : NotifyOperator I T D × List (NoticeEvent T)) : Prop :=
  ∀ time, state.2.count (.requested time) =
    state.2.count (.returned time) + if state.1.notificator.Outstanding time then 1 else 0

theorem Effect.balanced {next : NotifyOperator I T D} {event : Option (NoticeEvent T)} {events : List (NoticeEvent T)}
    (effect : Effect operator next event) (balanced : Balanced (operator, events)) :
    Balanced (next, events ++ event.toList) := by
  intro time
  have before := balanced time
  have outstanding := effect.outstanding time
  have fresh := effect.fresh time
  have due := effect.due time
  simp only [List.count_append] at before ⊢
  by_cases requested : event = some (.requested time)
  · subst requested
    simp only [fresh rfl, if_false] at before
    simp [outstanding, before]
  · by_cases returned : event = some (.returned time)
    · subst returned
      simp only [due rfl, if_true] at before
      simp [outstanding, before]
    · have unheard : ∀ heard, event ≠ some heard → event.toList.count heard = 0 := by
        intro heard apart
        rw [List.count_eq_zero, Option.mem_toList]
        exact apart
      rw [unheard _ requested, unheard _ returned, before]
      simp [outstanding, requested, returned]

variable [ToString T] (operator)

def tryNotifyAt (time : T) : Except RunError Unit × NotifyOperator I T D :=
  match operator.ports.tryNotifyAt time with
  | (.error error, ports) => (.error error, { operator with ports })
  | (.ok _, ports) => (.ok (), ⟨operator.notificator.notifyAt time, ports⟩)

def notifyAt (time : T) : NotifyOperator I T D :=
  { (operator.tryNotifyAt time).2 with ports := operator.ports.notifyAt time }

def step : NotifyCall I T D → NotifyOperator I T D
  | .context => { operator with ports.notify.error := none }
  | .environment ports output =>
    { operator with ports := { ports with outputs := [output], notify := operator.ports.notify } }
  | .notifyAt time => operator.notifyAt time
  | .tryNotifyAt time => (operator.tryNotifyAt time).2
  | .nextNotification => operator.nextNotification.2
  | .updateFrontier frontier => operator.updateFrontier frontier

def request (time : T) : NoticeEvent T :=
  match (operator.tryNotifyAt time).1 with
  | .error _ => .rejected time
  | .ok _ => if operator.notificator.Outstanding time then .coalesced time else .requested time

def event : NotifyCall I T D → Option (NoticeEvent T)
  | .notifyAt time | .tryNotifyAt time => some (operator.request time)
  | .nextNotification => operator.nextNotification.1.map NoticeEvent.returned
  | .context | .environment _ _ | .updateFrontier _ => none

/-- The calls happen one after the other; the events are those so far. -/
def run (calls : List (NotifyCall I T D)) : NotifyOperator I T D × List (NoticeEvent T) :=
  calls.foldl (fun state call => (state.1.step call, state.2 ++ (state.1.event call).toList)) (operator, [])

variable {operator}

/-- A request is accepted or leaves everything but the recorded error as it is. -/
theorem Paired.request (paired : operator.Paired) (time : T) :
    Effect operator (operator.tryNotifyAt time).2 (some (operator.request time)) ∧
      Effect operator (operator.notifyAt time) (some (operator.request time)) := by
  obtain ⟨port, found⟩ := paired.output
  unfold NotifyOperator.request NotifyOperator.notifyAt NotifyOperator.tryNotifyAt Ports.notifyAt
  obtain ⟨error, _, same⟩ | ⟨next, same, granted⟩ := Ports.tryNotifyAt_cases found time
  · simp only [same]
    exact ⟨paired.still rfl rfl paired.output fun _ => by simp, paired.still rfl rfl paired.output fun _ => by simp⟩
  · simp only [same]
    exact ⟨paired.accept granted, paired.accept granted⟩

theorem Paired.rejected (paired : operator.Paired) {time : T} {error : RunError}
    (rejected : (operator.tryNotifyAt time).1 = .error error) :
    (operator.tryNotifyAt time).2 = operator ∧ operator.notifyAt time = { operator with
      ports.notify.error := operator.ports.notify.error.or (some error)
      ports.events := operator.ports.events ++ [.refused 0 time] } := by
  obtain ⟨port, found⟩ := paired.output
  unfold NotifyOperator.notifyAt Ports.notifyAt
  unfold NotifyOperator.tryNotifyAt at rejected ⊢
  obtain ⟨refusal, _, same⟩ | ⟨next, same, _⟩ := Ports.tryNotifyAt_cases found time
  · simp only [same] at rejected ⊢
    cases rejected
    exact ⟨trivial, rfl⟩
  · simp only [same] at rejected
    cases rejected

theorem Paired.step (paired : operator.Paired) (call : NotifyCall I T D) :
    Effect operator (operator.step call) (operator.event call) := by
  cases call with
  | context => exact paired.still rfl rfl paired.output fun _ => by simp [event]
  | environment ports output => exact paired.still rfl rfl ⟨output, rfl⟩ fun _ => by simp [event]
  | notifyAt time => exact (paired.request time).2
  | tryNotifyAt time => exact (paired.request time).1
  | nextNotification => exact paired.nextNotification
  | updateFrontier frontier => exact paired.updateFrontier frontier

/-- Only the call that returns a time has the event for it. -/
theorem event_returned {call : NotifyCall I T D} {time : T} (returned : operator.event call = some (.returned time)) :
    call = .nextNotification ∧ operator.nextNotification.1 = some time := by
  cases call with
  | nextNotification =>
    obtain ⟨found, isFound, same⟩ := Option.map_eq_some_iff.mp returned
    cases same
    exact ⟨rfl, isFound⟩
  | context | environment | updateFrontier => cases returned
  | notifyAt requested | tryNotifyAt requested =>
    have impossible : operator.request requested = .returned time := Option.some.inj returned
    unfold request at impossible
    split at impossible
    · cases impossible
    · split at impossible <;> cases impossible

theorem step_frontier (call : NotifyCall I T D) :
    (operator.step call).notificator.frontier = call.deliver operator.notificator.frontier := by
  have requested (time : T) : (operator.tryNotifyAt time).2.notificator.frontier = operator.notificator.frontier := by
    unfold tryNotifyAt
    split
    · rfl
    · exact Notificator.notifyAt_frontier time
  cases call with
  | context | environment | updateFrontier => rfl
  | tryNotifyAt time | notifyAt time => exact requested time
  | nextNotification =>
    change operator.nextNotification.2.notificator.frontier = _
    unfold nextNotification
    split
    · rfl
    · rename_i fired
      exact (Notificator.next_some fired).2.2

theorem run_frontier (calls : List (NotifyCall I T D)) :
    (operator.run calls).1.notificator.frontier = NotifyCall.lastFrontier operator.notificator.frontier calls :=
  (List.foldl_hom (fun state : NotifyOperator I T D × List (NoticeEvent T) => state.1.notificator.frontier)
    fun _ call => (step_frontier call).symm).symm

theorem run_paired (start : NotifyOperator I T D) (paired : start.Paired)
    (fresh : ∀ time, ¬ start.notificator.Outstanding time) (calls : List (NotifyCall I T D)) :
    (start.run calls).1.Paired ∧ Balanced (start.run calls) := by
  refine List.foldlRecOn (motive := fun state : NotifyOperator I T D × List (NoticeEvent T) =>
    state.1.Paired ∧ Balanced state) calls _ ⟨paired, fun time => by simp [fresh time]⟩ fun state sound call _ => ?_
  have effect := sound.1.step call
  exact ⟨effect.paired, effect.balanced sound.2⟩

/-- In every sequence of calls: the notificator keeps the frontier that was delivered last; the keys of the capability
map are the pending and the ready times, which are disjoint; the last frontier is at or before every pending time; a time
becomes ready only when the frontier of that moment is not at or before it; a request that was not coalesced is returned
once or outstanding, and stays so until its time is returned; the least ready time is returned first; and a rejected
request changes nothing but the error of the context. -/
theorem run_outstanding (initialFrontier : Antichain T) (ports : Ports I T D) (output : CountedOutput T D)
    (calls : List (NotifyCall I T D)) :
    let start := new initialFrontier ports output
    let operator := (start.run calls).1
    let events := (start.run calls).2
    operator.notificator.frontier = NotifyCall.lastFrontier initialFrontier calls ∧
    (∀ time, time ∈ operator.ports.notify.capabilities.elements ↔
      time ∈ operator.notificator.pending.elements ∨ time ∈ operator.notificator.ready.elements) ∧
    (∀ time ∈ operator.notificator.pending.elements, time ∉ operator.notificator.ready.elements) ∧
    (∀ time ∈ operator.notificator.pending.elements,
      ∃ element ∈ (NotifyCall.lastFrontier initialFrontier calls).elements, element ≤ time) ∧
    (∀ call time, time ∈ (operator.step call).notificator.ready.elements → time ∉ operator.notificator.ready.elements →
      ¬ ∃ element ∈ (NotifyCall.lastFrontier initialFrontier (calls ++ [call])).elements, element ≤ time) ∧
    (∀ time, events.count (.requested time) =
      events.count (.returned time) + if operator.notificator.Outstanding time then 1 else 0) ∧
    (∀ time, operator.notificator.Outstanding time → ∀ call, (operator.step call).notificator.Outstanding time ∨
      call = .nextNotification ∧ operator.nextNotification.1 = some time) ∧
    (∀ time, operator.nextNotification.1 = some time → ¬ operator.nextNotification.2.notificator.Outstanding time ∧
      time ∈ operator.notificator.ready.elements ∧
      ∀ other ∈ operator.notificator.ready.elements, ordLe time other ∧ ¬ other < time) ∧
    (operator.nextNotification.1 = none → operator.notificator.ready.elements = []) ∧
    ∀ time error, (operator.tryNotifyAt time).1 = .error error → (operator.tryNotifyAt time).2 = operator ∧
      operator.notifyAt time = { operator with
        ports.notify.error := operator.ports.notify.error.or (some error)
        ports.events := operator.ports.events ++ [.refused 0 time] } := by
  intro start operator events
  obtain ⟨paired, balanced⟩ := run_paired start ⟨⟨output, rfl⟩, Notificator.new_paired initialFrontier⟩
    (Notificator.new_outstanding initialFrontier) calls
  have last : operator.notificator.frontier = NotifyCall.lastFrontier initialFrontier calls := run_frontier calls
  have keys := paired.keys
  refine ⟨last, keys.keys, keys.sound.apart, fun time member => ?_, fun call time fired unfired => ?_, balanced,
    fun time outstanding call => ?_, fun time returned => ?_, fun nothing => ?_, fun time error rejected => ?_⟩
  · exact last ▸ (Antichain.lessEqual_iff _ _).mp (keys.sound.covered time member)
  · have next : (operator.step call).notificator.frontier = NotifyCall.lastFrontier initialFrontier (calls ++ [call]) := by
      rw [step_frontier, last, NotifyCall.lastFrontier, NotifyCall.lastFrontier, List.foldl_concat]
    rw [← Antichain.lessEqual_iff, ← next, (paired.step call).fired time fired unfired]
    exact Bool.false_ne_true
  · by_cases returned : operator.event call = some (.returned time)
    · exact Or.inr (event_returned returned)
    · exact Or.inl (((paired.step call).outstanding time).mpr ⟨Or.inl outstanding, returned⟩)
  · have effect := paired.nextNotification
    rw [returned] at effect
    refine ⟨fun outstanding => ((effect.outstanding time).mp outstanding).2 rfl, ?_⟩
    unfold nextNotification at returned
    split at returned
    · cases returned
    · rename_i fired
      cases returned
      exact Notificator.next_least fired
  · unfold nextNotification at nothing
    split at nothing
    · rename_i unfired
      exact Notificator.next_none unfired
    · cases nothing
  · exact paired.rejected rejected

end NotifyOperator

end Instancy
