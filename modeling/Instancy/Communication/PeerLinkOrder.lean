import Instancy.Communication.PeerLink

namespace Instancy

/-- The push has the admission lock. -/
def PushPlace.holds : PushPlace → Bool
  | .admitted | .checked | .releasing _ => true
  | .idle | .entered _ | .waiting | .sending | .sent _ _ => false

/-- The answer of the transport queue to the records of the call. -/
def PushPlace.answer : PushPlace → Option SendResult
  | .releasing result | .sent true result => some result
  | .idle | .entered _ | .waiting | .admitted | .checked | .sending | .sent false _ => none

/-- The coordinator has the admission lock. -/
def CoordinatorPlace.holds : CoordinatorPlace → Bool
  | .admitted _ | .stored _ => true
  | .idle | .retiring _ | .acking => false

/-- The coordinator has marked the link. -/
def CoordinatorPlace.marked : CoordinatorPlace → Bool
  | .stored _ | .acking => true
  | .idle | .retiring _ | .admitted _ => false

/-- A frame that must not be followed by another one: no record follows the acknowledgement, and no record of a push
follows its sentinel. -/
def LinkFrame.Blocks : LinkFrame → LinkFrame → Prop
  | .ack, .record _ _ => True
  | .sentinel push, .record other _ => push = other
  | _, _ => False

/-- The frame does not carry records. -/
def LinkFrame.Plain (frame : LinkFrame) : Prop := ∀ push call, frame ≠ .record push call

variable {frame : LinkFrame}

theorem LinkFrame.Plain.not_blocks (plain : frame.Plain) (earlier : LinkFrame) :
    ¬ earlier.Blocks frame := by
  cases frame with
  | record push call => exact absurd rfl (plain push call)
  | signal push call => cases earlier <;> exact id
  | sentinel push => cases earlier <;> exact id
  | progress number => cases earlier <;> exact id
  | ack => cases earlier <;> exact id

variable {place : PushPlace}

namespace PeerLink

/-- The frames that are queued and not yet handed to the transport. -/
def queued (link : PeerLink) : List LinkFrame := link.hand.toList ++ link.lane

/-- The admission lock is shared by the pushes that hold it or belongs to the coordinator, and the link is marked only
under it. -/
structure Locked (link : PeerLink) : Prop where
  readers : ∀ push, push ∈ link.readers ↔ (link.pushes push).place.holds = true
  nodup : link.readers.Nodup
  exclusive : link.writer = true → link.readers = []
  writer : link.writer = link.coordinator.holds
  unretired : ∀ push, (link.pushes push).place = .checked → link.retired = false
  marked : link.coordinator.marked = true → link.retired = true
  returned : link.retireReturned = true → link.retired = true

/-- The acknowledgement and the sentinels are queued late enough and keep their place. -/
structure Framed (link : PeerLink) : Prop where
  ack : .ack ∈ link.transport ++ link.queued → link.retired = true
  sentinel : ∀ push, .sentinel push ∈ link.transport ++ link.queued → (link.pushes push).closed = true
  plain : ∀ frame ∈ link.queued, frame.Plain
  ordered : link.transport.Pairwise fun earlier later => ¬ earlier.Blocks later

/-- What holds of one push, for the frames of the transport queue. -/
structure Calling (transport : List LinkFrame) (retireReturned : Bool) (push : Nat) (state : OutPush) : Prop where
  active : state.place ≠ .idle → state.closed = false
  late : state.place ≠ .idle → state.late = true → retireReturned = true
  refused : state.late = true → ∀ result, state.place.answer = some result → result = .closed
  numbered : ∀ call, .record push call ∈ transport →
    call < state.calls ∨ (call = state.calls ∧ state.place.answer = some .ok)
  accepted : state.place.answer = some .ok → .record push state.calls ∈ transport

/-- What holds of one return. A late record push fails and enqueues nothing. -/
structure Returned (link : PeerLink) (entry : PushReturn) : Prop where
  call : entry.call < (link.pushes entry.push).calls
  accepted : entry.isData = true → (entry.outcome = .ok ↔ .record entry.push entry.call ∈ link.transport)
  late : entry.isData = true → entry.late = true →
    (∃ detail, entry.outcome = .dataLoss detail) ∨ entry.hasFrame = false ∧ entry.outcome ≠ .ok

/-- The invariant of the link. -/
structure Invariant (link : PeerLink) : Prop where
  locked : link.Locked
  framed : link.Framed
  calling : ∀ push, Calling link.transport link.retireReturned push (link.pushes push)
  returned : ∀ entry ∈ link.returns, link.Returned entry

variable {link : PeerLink} {push : Nat} {next : OutPush}

theorem setPush_self : (link.setPush push next).pushes push = next := Function.update_self ..

theorem setPush_of_ne {other : Nat} (apart : other ≠ push) :
    (link.setPush push next).pushes other = link.pushes other := Function.update_of_ne apart ..

/-- A fact about every push after a change of one. -/
theorem forall_setPush (fact : Nat → OutPush → Prop) (changed : fact push next)
    (others : ∀ other, other ≠ push → fact other (link.pushes other)) (other : Nat) :
    fact other ((link.setPush push next).pushes other) := by
  by_cases same : other = push
  · rw [same, setPush_self]
    exact changed
  · rw [setPush_of_ne same]
    exact others other same

section

variable {transport : List LinkFrame} {retireReturned : Bool} {state : OutPush}
  (calling : Calling transport retireReturned push state)
include calling

theorem Calling.moveTo (busy : state.place ≠ .idle) (same : place.answer = state.place.answer) :
    Calling transport retireReturned push { state with place } :=
  ⟨fun _ => calling.active busy, fun _ => calling.late busy,
    fun late result known => calling.refused late result (same ▸ known),
    fun call member => same ▸ calling.numbered call member, fun known => calling.accepted (same ▸ known)⟩

theorem Calling.fresh (unanswered : state.place.answer ≠ some .ok) (call : Nat) (member : .record push call ∈ transport) :
    call < state.calls := by
  rcases calling.numbered call member with low | ⟨_, known⟩
  · exact low
  · exact absurd known unanswered

end

theorem Locked.setPush (locked : link.Locked) (same : next.place.holds = (link.pushes push).place.holds)
    (unmarked : next.place = .checked → link.retired = false) : (link.setPush push next).Locked where
  readers := forall_setPush (fun other state => other ∈ link.readers ↔ state.place.holds = true)
    (by rw [same]; exact locked.readers push) fun other _ => locked.readers other
  nodup := locked.nodup
  exclusive := locked.exclusive
  writer := locked.writer
  unretired := forall_setPush (fun _ state => state.place = .checked → link.retired = false)
    unmarked fun other _ => locked.unretired other
  marked := locked.marked
  returned := locked.returned

theorem Framed.setPush (framed : link.Framed) (kept : (link.pushes push).closed = true → next.closed = true) :
    (link.setPush push next).Framed where
  ack := framed.ack
  sentinel := forall_setPush
    (fun other state => .sentinel other ∈ link.transport ++ link.queued → state.closed = true)
    (fun member => kept (framed.sentinel push member)) fun other _ => framed.sentinel other
  plain := framed.plain
  ordered := framed.ordered

theorem Returned.setPush {entry : PushReturn} (returned : link.Returned entry)
    (kept : (link.pushes push).calls ≤ next.calls) : (link.setPush push next).Returned entry where
  call := forall_setPush (fun other state => entry.push = other → entry.call < state.calls)
    (fun same => Nat.lt_of_lt_of_le (same ▸ returned.call) kept) (fun _ _ same => same ▸ returned.call) entry.push rfl
  accepted := returned.accepted
  late := returned.late

section

variable (invariant : link.Invariant)
include invariant

/-- A push may change if its own part of the invariant holds afterwards. -/
theorem Invariant.setPush (same : next.place.holds = (link.pushes push).place.holds)
    (unmarked : next.place = .checked → link.retired = false)
    (closed : (link.pushes push).closed = true → next.closed = true) (calls : (link.pushes push).calls ≤ next.calls)
    (calling : Calling link.transport link.retireReturned push next) : (link.setPush push next).Invariant where
  locked := invariant.locked.setPush same unmarked
  framed := invariant.framed.setPush closed
  calling := forall_setPush (Calling link.transport link.retireReturned) calling fun other _ => invariant.calling other
  returned entry member := (invariant.returned entry member).setPush calls

/-- A push goes on inside its call without an answer of the transport queue to its records. -/
theorem Invariant.moveTo (busy : (link.pushes push).place ≠ .idle)
    (same : place.holds = (link.pushes push).place.holds) (unmarked : place = .checked → link.retired = false)
    (answer : place.answer = (link.pushes push).place.answer) : (link.moveTo push place).Invariant :=
  invariant.setPush same unmarked id (Nat.le_refl _) ((invariant.calling push).moveTo busy answer)

/-- The returns do not matter to the rest. -/
theorem Invariant.logged {returns : List PushReturn}
    (all : ∀ entry ∈ returns, link.Returned entry) : { link with returns := returns }.Invariant where
  locked := { invariant.locked with }
  framed := { invariant.framed with }
  calling := invariant.calling
  returned entry member := { all entry member with }

/-- A call ends if its outcome tells whether its records are enqueued, and a late one fails. -/
theorem Invariant.returnWith {isData late hasFrame : Bool} {outcome : SendOutcome}
    (free : (link.pushes push).place.holds = false)
    (accepted : isData = true → (outcome = .ok ↔ .record push (link.pushes push).calls ∈ link.transport))
    (fails : isData = true → late = true →
      (∃ detail, outcome = .dataLoss detail) ∨ hasFrame = false ∧ outcome ≠ .ok) :
    (link.returnWith push isData late hasFrame outcome).Invariant := by
  have calling := invariant.calling push
  have moved : (link.setPush push { link.pushes push with
      place := .idle, calls := (link.pushes push).calls + 1 }).Invariant := by
    refine invariant.setPush free.symm PushPlace.noConfusion id (Nat.le_succ _) ?_
    refine ⟨fun busy => absurd rfl busy, fun busy => absurd rfl busy, fun _ _ none => ?_, fun call member => ?_,
      fun none => ?_⟩
    · cases none
    · have known := calling.numbered call member
      change call < (link.pushes push).calls + 1 ∨ _
      omega
    · cases none
  refine moved.logged fun entry member => ?_
  rcases List.mem_append.mp member with old | new
  · exact moved.returned entry old
  · rw [List.mem_singleton.mp new]
    refine ⟨?_, accepted, fails⟩
    rw [setPush_self]
    exact Nat.lt_succ_self _

end

theorem mem_append_plain {transport : List LinkFrame} (plain : frame.Plain) {call : Nat} :
    .record push call ∈ transport ++ [frame] ↔ .record push call ∈ transport := by
  rw [List.mem_append, List.mem_singleton]
  exact ⟨fun member => member.elim id fun same => absurd same.symm (plain push call), Or.inl⟩

theorem Calling.append_plain {transport : List LinkFrame} {retireReturned : Bool} {state : OutPush}
    (calling : Calling transport retireReturned push state) (plain : frame.Plain) :
    Calling (transport ++ [frame]) retireReturned push state :=
  ⟨calling.active, calling.late, calling.refused,
    fun call member => calling.numbered call ((mem_append_plain plain).mp member),
    fun known => (mem_append_plain plain).mpr (calling.accepted known)⟩

theorem Framed.pairwise_append (framed : link.Framed) (free : ∀ earlier ∈ link.transport, ¬ earlier.Blocks frame) :
    (link.transport ++ [frame]).Pairwise fun earlier later => ¬ earlier.Blocks later := by
  refine List.pairwise_append.mpr ⟨framed.ordered, List.pairwise_singleton _ _, fun earlier member later last => ?_⟩
  rw [List.mem_singleton.mp last]
  exact free earlier member

theorem Locked.enqueue (locked : link.Locked) (frame : LinkFrame) : (link.enqueue frame).Locked := { locked with }

/-- A frame that is not blocked joins the transport queue. It comes from the queue of the forwarder, or it is neither
the acknowledgement nor a sentinel. -/
theorem Framed.enqueue (framed : link.Framed) (free : ∀ earlier ∈ link.transport, ¬ earlier.Blocks frame)
    (source : frame ∈ link.queued ∨ (frame ≠ .ack ∧ ∀ push, frame ≠ .sentinel push)) :
    (link.enqueue frame).Framed := by
  have known : ∀ other, other ∈ (link.transport ++ [frame]) ++ link.queued →
      other ∈ link.transport ++ link.queued ∨ (other ≠ .ack ∧ ∀ push, other ≠ .sentinel push) := by
    intro other member
    rcases List.mem_append.mp member with inTransport | inQueue
    · rcases List.mem_append.mp inTransport with old | new
      · exact Or.inl (List.mem_append_left _ old)
      · rw [List.mem_singleton.mp new]
        exact source.imp_left (List.mem_append_right _)
    · exact Or.inl (List.mem_append_right _ inQueue)
  refine ⟨fun member => ?_, fun push member => ?_, framed.plain, framed.pairwise_append free⟩
  · rcases known _ member with old | ⟨other, _⟩
    · exact framed.ack old
    · exact absurd rfl other
  · rcases known _ member with old | ⟨_, other⟩
    · exact framed.sentinel push old
    · exact absurd rfl (other push)

/-- A frame without records joins the transport queue. -/
theorem Invariant.enqueue_plain (invariant : link.Invariant) (plain : frame.Plain)
    (source : frame ∈ link.queued ∨ (frame ≠ .ack ∧ ∀ push, frame ≠ .sentinel push)) :
    (link.enqueue frame).Invariant where
  locked := invariant.locked.enqueue frame
  framed := invariant.framed.enqueue (fun earlier _ => plain.not_blocks earlier) source
  calling push := (invariant.calling push).append_plain plain
  returned entry member := by
    have old := invariant.returned entry member
    exact ⟨old.call, fun data => (old.accepted data).trans (mem_append_plain plain).symm, old.late⟩

/-- A push sends a signal. -/
theorem Invariant.trySend_signal (invariant : link.Invariant) (call : Nat) (answer : SendResult) :
    (link.trySend (.signal push call) answer).Invariant := by
  cases answer with
  | ok =>
    refine invariant.enqueue_plain (fun _ _ => LinkFrame.noConfusion) (Or.inr ⟨LinkFrame.noConfusion, fun _ => ?_⟩)
    exact LinkFrame.noConfusion
  | full => exact invariant
  | closed => exact invariant

/-- The frames of a link that a push may still send records to do not block them. -/
theorem Invariant.not_blocks (invariant : link.Invariant) (unretired : link.retired = false)
    (opened : (link.pushes push).closed = false) (call : Nat) :
    ∀ earlier ∈ link.transport, ¬ earlier.Blocks (.record push call) := by
  intro earlier member blocks
  have inFrames : earlier ∈ link.transport ++ link.queued := List.mem_append_left _ member
  cases earlier with
  | ack => exact Bool.false_ne_true (unretired.symm.trans (invariant.framed.ack inFrames))
  | sentinel other =>
    obtain rfl : other = push := blocks
    exact Bool.false_ne_true (opened.symm.trans (invariant.framed.sentinel other inFrames))
  | record _ _ => exact blocks
  | signal _ _ => exact blocks
  | progress _ => exact blocks

theorem mem_enqueue_record {other call : Nat} :
    .record other call ∈ (link.enqueue (.record push (link.pushes push).calls)).transport ↔
      .record other call ∈ link.transport ∨ (other = push ∧ call = (link.pushes push).calls) := by
  change _ ∈ link.transport ++ [_] ↔ _
  rw [List.mem_append, List.mem_singleton, LinkFrame.record.injEq]

section Enqueue

variable (invariant : link.Invariant) (checked : (link.pushes push).place = .checked)

include invariant checked

theorem Invariant.early : (link.pushes push).closed = false ∧ (link.pushes push).late ≠ true ∧
    ∀ call, .record push call ∈ link.transport → call < (link.pushes push).calls := by
  have calling := invariant.calling push
  have busy : (link.pushes push).place ≠ .idle := by simp [checked]
  refine ⟨calling.active busy, fun late => ?_, fun call member => ?_⟩
  · have marked := invariant.locked.returned (calling.late busy late)
    rw [invariant.locked.unretired push checked] at marked
    cases marked
  · exact calling.fresh (by simp [checked, PushPlace.answer]) call member

/-- A push that found the link open under the lock enqueues its records. -/
theorem Invariant.enqueue_record :
    ((link.enqueue (.record push (link.pushes push).calls)).moveTo push (.releasing .ok)).Invariant := by
  obtain ⟨opened, early, fresh⟩ := invariant.early checked
  have unretired := invariant.locked.unretired push checked
  refine ⟨?_, ?_, ?_, fun entry member => ?_⟩
  · refine (invariant.locked.enqueue _).setPush ?_ PushPlace.noConfusion
    change true = (link.pushes push).place.holds
    rw [checked]
    rfl
  · refine (invariant.framed.enqueue (invariant.not_blocks unretired opened _) (Or.inr ?_)).setPush id
    exact ⟨LinkFrame.noConfusion, fun _ => LinkFrame.noConfusion⟩
  · refine forall_setPush (Calling (link.enqueue _).transport link.retireReturned) ?_ fun other apart => ?_
    · refine ⟨fun _ => opened, fun _ late => absurd late early, fun late => absurd late early,
        fun call member => ?_, fun _ => mem_enqueue_record.mpr (Or.inr ⟨rfl, rfl⟩)⟩
      rcases mem_enqueue_record.mp member with old | ⟨_, same⟩
      · exact Or.inl (fresh call old)
      · exact Or.inr ⟨same, rfl⟩
    · have calling := invariant.calling other
      refine ⟨calling.active, calling.late, calling.refused, fun call member => ?_, fun known =>
        mem_enqueue_record.mpr (Or.inl (calling.accepted known))⟩
      rcases mem_enqueue_record.mp member with old | ⟨same, _⟩
      · exact calling.numbered call old
      · exact absurd same apart
  · have old := invariant.returned entry member
    have kept : (link.enqueue (.record push (link.pushes push).calls)).Returned entry := by
      refine ⟨old.call, fun data => (old.accepted data).trans ?_, old.late⟩
      rw [mem_enqueue_record]
      refine ⟨Or.inl, fun member => member.elim id fun ⟨same, call⟩ => ?_⟩
      have low := old.call
      rw [same, call] at low
      exact absurd low (Nat.lt_irrefl _)
    exact kept.setPush (Nat.le_refl _)

end Enqueue

section

variable (invariant : link.Invariant)
include invariant

/-- A push takes or releases the lock. -/
theorem Invariant.relock {readers : List Nat} (busy : (link.pushes push).place ≠ .idle)
    (answer : place.answer = (link.pushes push).place.answer) (unchecked : place ≠ .checked) (nodup : readers.Nodup)
    (exclusive : link.writer = true → readers = []) (mine : push ∈ readers ↔ place.holds = true)
    (others : ∀ other, other ≠ push → (other ∈ readers ↔ other ∈ link.readers)) :
    ({ link with readers }.moveTo push place).Invariant := by
  have locked := invariant.locked
  refine ⟨⟨?_, nodup, exclusive, locked.writer, ?_, locked.marked, locked.returned⟩, ?_, ?_, fun entry member => ?_⟩
  · exact forall_setPush (fun other state => other ∈ readers ↔ state.place.holds = true) mine
      fun other apart => (others other apart).trans (locked.readers other)
  · exact forall_setPush (fun _ state => state.place = .checked → link.retired = false)
      (fun checked => absurd checked unchecked) fun other _ => locked.unretired other
  · exact Framed.setPush { invariant.framed with } id
  · exact forall_setPush (Calling link.transport link.retireReturned) ((invariant.calling push).moveTo busy answer)
      fun other _ => invariant.calling other
  · exact Returned.setPush { invariant.returned entry member with } (Nat.le_refl _)

/-- A push takes the lock, which the coordinator does not have. -/
theorem Invariant.admission (waiting : (link.pushes push).place = .waiting) (free : link.writer ≠ true) :
    ({ link with readers := push :: link.readers }.moveTo push .admitted).Invariant := by
  have outside : push ∉ link.readers := by
    rw [invariant.locked.readers push, waiting]
    exact Bool.false_ne_true
  refine invariant.relock (by simp [waiting]) (by rw [waiting]; rfl) PushPlace.noConfusion
    (List.nodup_cons.mpr ⟨outside, invariant.locked.nodup⟩) (fun held => absurd held free) ?_ fun other apart => ?_
  · exact ⟨fun _ => rfl, fun _ => List.mem_cons_self⟩
  · rw [List.mem_cons, or_iff_right apart]

/-- A push releases the lock. -/
theorem Invariant.release {result : SendResult} (releasing : (link.pushes push).place = .releasing result) :
    ({ link with readers := link.readers.erase push }.moveTo push (.sent true result)).Invariant := by
  have nodup := invariant.locked.nodup
  refine invariant.relock (by simp [releasing]) (by rw [releasing]; rfl) PushPlace.noConfusion (nodup.erase push)
    (fun held => ?_) ?_ fun other apart => ?_
  · rw [invariant.locked.exclusive held]
    rfl
  · rw [nodup.mem_erase_iff]
    exact ⟨fun both => absurd rfl both.1, nofun⟩
  · rw [nodup.mem_erase_iff, and_iff_right apart]

/-- A frame is queued on the lane. -/
theorem Invariant.queue (plain : frame.Plain) (ack : frame = .ack → link.retired = true)
    (sentinel : ∀ push, frame = .sentinel push → (link.pushes push).closed = true) : (link.queue frame).Invariant := by
  unfold PeerLink.queue
  split
  · exact invariant
  · have known : ∀ other, other ∈ link.transport ++ (link.hand.toList ++ (link.lane ++ [frame])) →
        other ∈ link.transport ++ link.queued ∨ other = frame := by
      intro other member
      rw [← List.append_assoc, ← List.append_assoc, List.append_assoc link.transport] at member
      exact (List.mem_append.mp member).imp id List.mem_singleton.mp
    refine ⟨{ invariant.locked with }, ⟨fun member => ?_, fun push member => ?_, fun other member => ?_,
      invariant.framed.ordered⟩, invariant.calling, fun entry member => { invariant.returned entry member with }⟩
    · exact (known _ member).elim invariant.framed.ack fun same => ack same.symm
    · exact (known _ member).elim (invariant.framed.sentinel push) fun same => sentinel push same.symm
    · change other ∈ link.hand.toList ++ (link.lane ++ [frame]) at member
      rw [← List.append_assoc] at member
      rcases List.mem_append.mp member with old | new
      · exact invariant.framed.plain other old
      · rw [List.mem_singleton.mp new]
        exact plain

/-- A push starts a call or closes. -/
theorem Invariant.start (push : Nat) (call : PushCall) : (link.start push call).Invariant := by
  have calling := invariant.calling push
  unfold PeerLink.start
  split
  · rename_i idle
    have free : (link.pushes push).place.holds = false := by rw [idle]; rfl
    have fresh := calling.fresh (by simp [idle, PushPlace.answer])
    have unsent : .record push (link.pushes push).calls ∉ link.transport := fun member =>
      Nat.lt_irrefl _ (fresh _ member)
    cases call with
    | envelope isData encodes =>
      have unframed {late hasFrame : Bool} {outcome : SendOutcome} (failed : outcome ≠ .ok) (none : hasFrame = false) :
          (link.returnWith push isData late hasFrame outcome).Invariant :=
        invariant.returnWith free (fun _ => iff_of_false failed unsent) fun _ _ => Or.inr ⟨none, failed⟩
      dsimp only
      split
      · rename_i closed
        apply unframed SendOutcome.noConfusion
        rw [closed]
        rfl
      · rename_i opened
        split
        · rename_i unencoded
          apply unframed SendOutcome.noConfusion
          rw [(Bool.not_eq_true' _).mp unencoded, Bool.and_false]
        · refine invariant.setPush free.symm PushPlace.noConfusion id (Nat.le_refl _) ?_
          refine ⟨fun _ => Bool.eq_false_iff.mpr opened, fun _ => id, fun _ _ none => ?_,
            fun number member => Or.inl (fresh number member), fun none => ?_⟩
          · cases none
          · cases none
    | close =>
      dsimp only
      split
      · exact invariant
      · have closed : (link.setPush push { link.pushes push with closed := true }).Invariant := by
          refine invariant.setPush rfl (fun checked => ?_) (fun _ => rfl) (Nat.le_refl _) ?_
          · exact invariant.locked.unretired push checked
          · exact ⟨fun busy => absurd idle busy, calling.late, calling.refused, calling.numbered, calling.accepted⟩
        refine closed.queue (fun _ _ => LinkFrame.noConfusion) LinkFrame.noConfusion fun other same => ?_
        cases same
        rw [setPush_self]
  · exact invariant

/-- The records of a call are refused. -/
theorem Invariant.refuse {result : SendResult}
    (holding : (link.pushes push).place.holds = true) (unanswered : (link.pushes push).place.answer = none)
    (refused : result ≠ .ok) (closed : (link.pushes push).late = true → result = .closed) :
    (link.moveTo push (.releasing result)).Invariant := by
  have calling := invariant.calling push
  have busy : (link.pushes push).place ≠ .idle := by
    intro idle
    rw [idle] at holding
    cases holding
  refine invariant.setPush holding.symm PushPlace.noConfusion id (Nat.le_refl _) ?_
  refine ⟨fun _ => calling.active busy, fun _ => calling.late busy, fun late given known => ?_, fun call member => ?_,
    fun known => absurd (Option.some.inj known) refused⟩
  · exact (Option.some.inj known).symm.trans (closed late)
  · exact Or.inl (calling.fresh (by simp [unanswered]) call member)

/-- A push that found the link open tries to enqueue its records. -/
theorem Invariant.trySend_record (checked : (link.pushes push).place = .checked) (answer : SendResult) :
    ((link.trySend (.record push (link.pushes push).calls) answer).moveTo push (.releasing answer)).Invariant := by
  have holding : (link.pushes push).place.holds = true := by rw [checked]; rfl
  have unanswered : (link.pushes push).place.answer = none := by rw [checked]; rfl
  have early := (invariant.early checked).2.1
  cases answer with
  | ok => exact invariant.enqueue_record checked
  | full => exact invariant.refuse holding unanswered SendResult.noConfusion fun late => absurd late early
  | closed => exact invariant.refuse holding unanswered SendResult.noConfusion fun _ => rfl

theorem Invariant.blockPush (push : Nat) : (link.blockPush push).Invariant := by
  have calling := invariant.calling push
  have reported : (link.setPush push { link.pushes push with linkFailureReported := true }).Invariant :=
    invariant.setPush rfl (invariant.locked.unretired push) id (Nat.le_refl _) { calling with }
  exact ⟨{ reported.locked with }, { reported.framed with }, reported.calling,
    fun entry member => { reported.returned entry member with }⟩

/-- A call ends after its last step. -/
theorem Invariant.finish {isData : Bool} {sent : SendResult}
    (ended : (link.pushes push).place = .sent isData sent) : (link.finish push isData sent).Invariant := by
  have calling := invariant.calling push
  have busy : (link.pushes push).place ≠ .idle := by simp [ended]
  have free : (link.pushes push).place.holds = false := by rw [ended]; rfl
  have answered : isData = true → (link.pushes push).place.answer = some sent := by
    intro data
    rw [ended, data]
    rfl
  have closed : isData = true → (link.pushes push).late = true → sent = .closed := fun data late =>
    calling.refused late sent (answered data)
  have unsent : isData = true → sent ≠ .ok → .record push (link.pushes push).calls ∉ link.transport := by
    refine fun data refused member => Nat.lt_irrefl _ (calling.fresh (fun known => refused ?_) _ member)
    exact Option.some.inj ((answered data).symm.trans known)
  unfold PeerLink.finish
  cases sent with
  | ok =>
    refine invariant.returnWith free (fun data => ⟨fun _ => calling.accepted (answered data), fun _ => rfl⟩)
      fun data late => ?_
    cases closed data late
  | full =>
    refine invariant.returnWith free
      (fun data => ⟨SendOutcome.noConfusion, fun member => absurd member (unsent data SendResult.noConfusion)⟩)
      fun data late => ?_
    cases closed data late
  | closed =>
    dsimp only
    split
    · cases isData with
      | true =>
        exact invariant.returnWith free
          (fun data => ⟨SendOutcome.noConfusion, fun member => absurd member (unsent data SendResult.noConfusion)⟩)
          fun _ _ => Or.inl ⟨_, rfl⟩
      | false => exact invariant.returnWith free Bool.noConfusion Bool.noConfusion
    · rename_i unretired
      have blocked := invariant.blockPush push
      have same : ((link.blockPush push).pushes push).place = (link.pushes push).place ∧
          ((link.blockPush push).pushes push).calls = (link.pushes push).calls := by
        change ((link.setPush push _).pushes push).place = _ ∧ ((link.setPush push _).pushes push).calls = _
        rw [setPush_self]
        exact ⟨rfl, rfl⟩
      refine blocked.returnWith (same.1 ▸ free) (fun data => ⟨SendOutcome.noConfusion, fun member => ?_⟩)
        fun _ late => ?_
      · rw [same.2] at member
        exact absurd member (unsent data SendResult.noConfusion)
      · exact absurd (invariant.locked.returned (calling.late busy late)) unretired

/-- A push takes its next step. -/
theorem Invariant.advance (push : Nat) (answer : SendResult) : (link.advance push answer).Invariant := by
  unfold PeerLink.advance
  split
  case h_1 => exact invariant
  case h_2 isData entered =>
    have busy : (link.pushes push).place ≠ .idle := by simp [entered]
    have free : (link.pushes push).place.holds = false := by rw [entered]; rfl
    have unanswered : (link.pushes push).place.answer = none := by rw [entered]; rfl
    split
    · exact invariant.moveTo busy free.symm PushPlace.noConfusion unanswered.symm
    · split
      · exact invariant.returnWith free Bool.noConfusion Bool.noConfusion
      · exact invariant.moveTo busy free.symm PushPlace.noConfusion unanswered.symm
  case h_3 waiting =>
    split
    · exact invariant
    · rename_i free
      exact invariant.admission waiting free
  case h_4 admitted =>
    have busy : (link.pushes push).place ≠ .idle := by simp [admitted]
    have holding : (link.pushes push).place.holds = true := by rw [admitted]; rfl
    have unanswered : (link.pushes push).place.answer = none := by rw [admitted]; rfl
    split
    · exact invariant.refuse holding unanswered SendResult.noConfusion fun _ => rfl
    · rename_i unretired
      exact invariant.moveTo busy holding.symm (fun _ => Bool.eq_false_iff.mpr unretired) unanswered.symm
  case h_5 checked => exact invariant.trySend_record checked answer
  case h_6 result releasing => exact invariant.release releasing
  case h_7 sending =>
    have signalled : (link.trySend (.signal push (link.pushes push).calls) answer).Invariant :=
      invariant.trySend_signal _ answer
    have same : (link.trySend (.signal push (link.pushes push).calls) answer).pushes = link.pushes := by
      cases answer <;> rfl
    refine signalled.moveTo ?_ ?_ PushPlace.noConfusion ?_
    · rw [same, sending]
      exact PushPlace.noConfusion
    · rw [same, sending]
      rfl
    · rw [same, sending]
      rfl
  case h_8 isData sent ended => exact invariant.finish ended

/-- The coordinator begins with an event. -/
theorem Invariant.handle (event : RetireEvent) : (link.handle event).Invariant := by
  have moved : ∀ next : PeerLink, link.coordinator = .idle →
      next = { link with
        endOfStream := next.endOfStream, goodbyeReceived := next.goodbyeReceived, coordinator := next.coordinator } →
      next.coordinator.holds = false → next.coordinator.marked = false → next.Invariant := by
    intro next idle same free unmarked
    rw [same]
    refine ⟨{ invariant.locked with writer := ?_, marked := fun marked => ?_ }, { invariant.framed with },
      invariant.calling, fun entry member => { invariant.returned entry member with }⟩
    · rw [invariant.locked.writer, idle]
      exact free.symm
    · exact Bool.noConfusion (unmarked.symm.trans marked)
  unfold PeerLink.handle
  split
  · rename_i idle
    cases event with
    | progressEndOfStream finished =>
      dsimp only
      split
      · exact moved _ idle rfl rfl rfl
      · exact moved _ idle (by rw [idle]) (by rw [idle]; rfl) (by rw [idle]; rfl)
    | ackReceived goodbyeSent =>
      dsimp only
      split
      · exact moved _ idle rfl rfl rfl
      · exact invariant
  · exact invariant

/-- The coordinator takes its next step. It marks the link when no push is past the check. -/
theorem Invariant.coordinate : link.coordinate.Invariant := by
  have locked := invariant.locked
  unfold PeerLink.coordinate
  split
  case h_1 => exact invariant
  case h_2 sendAck retiring =>
    split
    · rename_i free
      refine ⟨{ locked with exclusive := fun _ => free.1, writer := rfl, marked := Bool.noConfusion },
        { invariant.framed with }, invariant.calling, fun entry member => { invariant.returned entry member with }⟩
    · exact invariant
  case h_3 sendAck admitted =>
    have alone : link.readers = [] := by
      refine locked.exclusive ?_
      rw [locked.writer, admitted]
      rfl
    refine ⟨{ locked with
        writer := ?_, unretired := fun push checked => ?_, marked := fun _ => rfl, returned := fun _ => rfl },
      { invariant.framed with ack := fun _ => rfl }, invariant.calling,
      fun entry member => { invariant.returned entry member with }⟩
    · rw [locked.writer, admitted]
      rfl
    · have reader := (locked.readers push).mpr (by rw [checked]; rfl)
      rw [alone] at reader
      cases reader
  case h_4 sendAck stored =>
    have retired : link.retired = true := locked.marked (by rw [stored]; rfl)
    refine ⟨{ locked with
        exclusive := Bool.noConfusion, writer := ?_, marked := fun _ => retired, returned := fun _ => retired },
      { invariant.framed with }, fun push => { invariant.calling push with late := fun _ _ => rfl },
      fun entry member => { invariant.returned entry member with }⟩
    cases sendAck <;> rfl
  case h_5 acking =>
    have retired : link.retired = true := locked.marked (by rw [acking]; rfl)
    have idle : { link with coordinator := .idle }.Invariant := by
      refine ⟨{ locked with writer := ?_, marked := Bool.noConfusion }, { invariant.framed with }, invariant.calling,
        fun entry member => { invariant.returned entry member with }⟩
      rw [locked.writer, acking]
      rfl
    exact idle.queue (fun _ _ => LinkFrame.noConfusion) (fun _ => retired) fun _ => LinkFrame.noConfusion

/-- Frames that leave the queue of the forwarder without joining another one do not matter. -/
theorem Invariant.requeue {next : PeerLink} (same : next = { link with
      hand := next.hand, lane := next.lane, stopped := next.stopped, outboundFailed := next.outboundFailed })
    (fewer : ∀ frame ∈ next.queued, frame ∈ link.queued) : next.Invariant := by
  have kept : ∀ frame, frame ∈ link.transport ++ next.queued → frame ∈ link.transport ++ link.queued := by
    intro frame member
    rw [List.mem_append] at member ⊢
    exact member.imp_right (fewer frame)
  rw [same]
  refine ⟨{ invariant.locked with }, ⟨fun member => ?_, fun push member => ?_, fun frame member => ?_,
    invariant.framed.ordered⟩, invariant.calling, fun entry member => { invariant.returned entry member with }⟩
  · exact invariant.framed.ack (kept _ member)
  · exact invariant.framed.sentinel push (kept _ member)
  · exact invariant.framed.plain frame (fewer frame member)

/-- The forwarder takes its next step. -/
theorem Invariant.forward (accepts : Bool) : (link.forward accepts).Invariant := by
  unfold PeerLink.forward
  split
  · exact invariant
  · split
    · rename_i empty
      split
      · exact invariant
      · rename_i frame rest lane
        refine invariant.requeue rfl fun other member => ?_
        rw [queued, empty, lane]
        exact member
    · rename_i frame hand
      have inQueue : frame ∈ link.queued := by
        rw [queued, hand]
        exact List.mem_append_left _ (List.mem_singleton_self _)
      split
      · have taken : (link.enqueue frame).Invariant :=
          invariant.enqueue_plain (invariant.framed.plain frame inQueue) (Or.inl inQueue)
        refine taken.requeue rfl fun other member => ?_
        exact List.mem_append_right _ member
      · exact invariant.requeue rfl fun other member => absurd member List.not_mem_nil

end

theorem new_invariant (channelIds : Nat → Nat) (expected : Nat) : (new channelIds expected).Invariant := by
  refine ⟨⟨fun push => ?_, List.nodup_nil, fun _ => rfl, rfl, fun _ => PushPlace.noConfusion, Bool.noConfusion,
    Bool.noConfusion⟩, ⟨fun member => ?_, fun push member => ?_, fun frame member => ?_, List.Pairwise.nil⟩,
    fun push => ⟨fun busy => absurd rfl busy, fun busy => absurd rfl busy, fun _ _ none => ?_, fun call member => ?_,
      fun none => ?_⟩, fun entry member => ?_⟩
  · exact ⟨nofun, Bool.noConfusion⟩
  · cases member
  · cases member
  · cases member
  · cases none
  · cases member
  · cases none
  · cases member

theorem Invariant.step (invariant : link.Invariant) (move : Move) : (link.step move).Invariant := by
  cases move with
  | start push call => exact invariant.start push call
  | advance push answer => exact invariant.advance push answer
  | handle event => exact invariant.handle event
  | coordinate => exact invariant.coordinate
  | forward accepts => exact invariant.forward accepts
  | progress number =>
    exact invariant.queue (fun _ _ => LinkFrame.noConfusion) LinkFrame.noConfusion fun _ => LinkFrame.noConfusion

theorem Invariant.run (invariant : link.Invariant) (moves : List Move) : (link.run moves).Invariant := by
  induction moves generalizing link with
  | nil => exact invariant
  | cons move rest induction => exact induction (invariant.step move)

/-- A record stands ahead of every frame that blocks it. -/
theorem Framed.record_before (framed : link.Framed) {call : Nat} {blocker : LinkFrame}
    (blocks : blocker.Blocks (.record push call)) (member : .record push call ∈ link.transport)
    {before after : List LinkFrame} (split : link.transport = before ++ blocker :: after) :
    .record push call ∈ before ∧ .record push call ∉ after := by
  have ordered := framed.ordered
  rw [split] at member ordered
  have tail := List.pairwise_cons.mp (List.pairwise_append.mp ordered).2.1
  have missing : .record push call ∉ after := fun later => tail.1 _ later blocks
  refine ⟨?_, missing⟩
  rcases List.mem_append.mp member with early | late
  · exact early
  · rcases List.mem_cons.mp late with same | later
    · rw [← same] at blocks
      exact blocks.elim
    · exact absurd later missing

theorem Invariant.late_unsent (invariant : link.Invariant)
    (late : (link.pushes push).late = true) : .record push (link.pushes push).calls ∉ link.transport := by
  have calling := invariant.calling push
  refine fun member => Nat.lt_irrefl _ (calling.fresh (fun known => ?_) _ member)
  cases calling.refused late .ok known

theorem Returned.late_fails {entry : PushReturn} (returned : link.Returned entry) (data : entry.isData = true)
    (late : entry.late = true) :
    .record entry.push entry.call ∉ link.transport ∧
      (entry.hasFrame = true → ∃ detail, entry.outcome = .dataLoss detail) := by
  have fails := returned.late data late
  refine ⟨fun member => ?_, fun framed => ?_⟩
  · have accepted := (returned.accepted data).mpr member
    rw [accepted] at fails
    rcases fails with ⟨_, none⟩ | ⟨_, refused⟩
    · cases none
    · exact refused rfl
  · exact fails.resolve_right fun unframed => Bool.false_ne_true (unframed.1.symm.trans framed)

/-- In every interleaving a record push that returns ok has enqueued its frame, every record frame is ahead of the
acknowledgement and of the sentinel of its push, and a record push that starts after `retire` returned fails and
enqueues nothing. -/
theorem run_records_precede (channelIds : Nat → Nat) (expected : Nat) (moves : List Move) :
    let link := (new channelIds expected).run moves
    (∀ entry ∈ link.returns, entry.isData = true → entry.outcome = .ok →
      .record entry.push entry.call ∈ link.transport) ∧
    (∀ push call, .record push call ∈ link.transport →
      (∀ before after, link.transport = before ++ .ack :: after →
        .record push call ∈ before ∧ .record push call ∉ after) ∧
      ∀ before after, link.transport = before ++ .sentinel push :: after →
        .record push call ∈ before ∧ .record push call ∉ after) ∧
    (∀ entry ∈ link.returns, entry.isData = true → entry.late = true →
      .record entry.push entry.call ∉ link.transport ∧
        (entry.hasFrame = true → ∃ detail, entry.outcome = .dataLoss detail)) ∧
    ∀ push, (link.pushes push).place ≠ .idle → (link.pushes push).late = true →
      .record push (link.pushes push).calls ∉ link.transport := by
  intro link
  have invariant : link.Invariant := (new_invariant channelIds expected).run moves
  refine ⟨fun entry member data => ((invariant.returned entry member).accepted data).mp,
    fun push call enqueued => ⟨fun before after split => ?_, fun before after split => ?_⟩,
    fun entry member => (invariant.returned entry member).late_fails, fun push _ => invariant.late_unsent⟩
  · have blocks : LinkFrame.ack.Blocks (.record push call) := trivial
    exact invariant.framed.record_before blocks enqueued split
  · have blocks : (LinkFrame.sentinel push).Blocks (.record push call) := rfl
    exact invariant.framed.record_before blocks enqueued split

end PeerLink

end Instancy
