import Instancy.Dataflow.Channels.Spsc

namespace Instancy

open Library

section Invariant

variable {A : Type} {width : Nat}

namespace Spsc

/-- The items in slots: the published ones, and the one that the producer has written but not published. -/
def written (channel : Spsc A width) : List A :=
  match channel.producer with
  | .storeTail value _ => channel.pushed ++ [value]
  | _ => channel.pushed

/-- What the producer knows at its place in a call, with the head that it saw last. -/
def ProducerKnows (channel : Spsc A width) (seenHead : Nat) : Prop :=
  match channel.producer with
  | .idle | .loadClosed _ | .dropped => True
  | .loadTail _ => channel.ring.closed = false
  | .loadHead _ tail => channel.ring.closed = false ∧ tail = channel.ring.tail
  | .write _ tail => channel.ring.closed = false ∧ tail = channel.ring.tail ∧
      channel.pushed.length < seenHead + channel.ring.capacity.toNat
  | .storeTail _ tail => channel.ring.closed = false ∧ tail = channel.ring.tail ∧
      channel.pushed.length < seenHead + channel.ring.capacity.toNat

/-- What the consumer knows at its place in a call, with the tail that it saw last. -/
def ConsumerKnows (channel : Spsc A width) (seenTail : Nat) : Prop :=
  match channel.consumer with
  | .idle | .loadHead | .drainTail | .drainHead | .loadClosed => channel.taken = channel.pulled
  | .loadTail head => head = channel.ring.head ∧ channel.taken = channel.pulled
  | .read head => head = channel.ring.head ∧ channel.taken = channel.pulled ∧ channel.pulled.length < seenTail
  | .storeHead head => head = channel.ring.head ∧ channel.taken.length = channel.pulled.length + 1 ∧
      channel.pulled.length < seenTail
  | .drainRead head count done => head = channel.ring.head ∧ channel.taken.length = channel.pulled.length + done ∧
      channel.pulled.length + count.toNat = seenTail ∧ done < count.toNat
  | .drainStore head count => head = channel.ring.head ∧ channel.taken.length = channel.pulled.length + count.toNat ∧
      channel.pulled.length + count.toNat = seenTail
  | .exhaustedHead => channel.ring.closed = true ∧ channel.taken = channel.pulled
  | .exhaustedTail head => channel.ring.closed = true ∧ head = channel.ring.head ∧ channel.taken = channel.pulled

/-- The invariant of the ring: the indices count the pushed and the pulled items from the start, the stale copies lie
within them, and exactly the written items that are not taken fill their slots. -/
structure Invariant (start capacity : BitVec width) (bits seenHead seenTail : Nat) (channel : Spsc A width) : Prop where
  sized : channel.ring.capacity = capacity
  mask : channel.ring.mask = ringMask width bits
  fits : bits ≤ width
  room : capacity.toNat < 2 ^ bits
  head : channel.ring.head = wrappingIndex start channel.pulled.length
  tail : channel.ring.tail = wrappingIndex start channel.pushed.length
  taken : channel.taken <+: channel.pushed
  pulled : channel.pulled <+: channel.taken
  unread : channel.pushed.length ≤ channel.pulled.length + capacity.toNat
  cachedHead : channel.cachedHead = wrappingIndex start seenHead
  headSeen : seenHead ≤ channel.pulled.length
  pushable : channel.pushed.length ≤ seenHead + capacity.toNat
  cachedTail : channel.cachedTail = wrappingIndex start seenTail
  pulledSeen : channel.pulled.length ≤ seenTail
  tailSeen : seenTail ≤ channel.pushed.length
  takenSeen : channel.taken.length ≤ seenTail
  filled : ∀ index value, channel.taken.length ≤ index → channel.written[index]? = some value →
    channel.ring.slots (channel.ring.wrap (wrappingIndex start index)) = some value
  empty : ∀ slot, (∀ index, channel.taken.length ≤ index → index < channel.written.length →
    slot ≠ channel.ring.wrap (wrappingIndex start index)) → channel.ring.slots slot = none
  producer : channel.ProducerKnows seenHead
  consumer : channel.ConsumerKnows seenTail
  sound : channel.fault = false
  refused : ∀ unread, .backpressure unread ∈ channel.returns → unread = capacity.toNat
  exhausted : .exhausted true ∈ channel.returns → channel.ring.closed = true ∧ channel.pulled = channel.pushed

variable {start capacity : BitVec width} {bits seenHead seenTail : Nat} {channel : Spsc A width}

namespace Invariant

variable {cached tail : BitVec width}

section

variable (inv : channel.Invariant start capacity bits seenHead seenTail)
include inv

theorem refused_append {answers : List SpscReturn}
    (refused : ∀ unread, .backpressure unread ∈ answers → unread = capacity.toNat) (unread : Nat)
    (member : .backpressure unread ∈ channel.returns ++ answers) : unread = capacity.toNat :=
  (List.mem_append.mp member).elim (inv.refused unread) (refused unread)

/-- The producer only moves on, with a head that it has seen. -/
theorem moveProducer {seen : Nat} {next : Producer A width} {answers returns : List SpscReturn}
    (logged : returns = channel.returns ++ answers)
    (same : ({ channel with producer := next } : Spsc A width).written = channel.written)
    (cachedHead : cached = wrappingIndex start seen) (headSeen : seen ≤ channel.pulled.length)
    (pushable : channel.pushed.length ≤ seen + capacity.toNat)
    (knows : ({ channel with producer := next } : Spsc A width).ProducerKnows seen)
    (refused : ∀ unread, .backpressure unread ∈ answers → unread = capacity.toNat)
    (exhausted : .exhausted true ∉ answers) :
    ({ channel with cachedHead := cached, producer := next, returns } : Spsc A width).Invariant start capacity bits
      seen seenTail := by
  subst logged
  refine { inv with
    cachedHead := cachedHead, headSeen := headSeen, pushable := pushable, producer := knows, consumer := inv.consumer
    filled := fun index value later found => inv.filled index value later (same ▸ found)
    empty := fun slot none => inv.empty slot fun index later bound => none index later (same.symm ▸ bound)
    refused := inv.refused_append refused
    exhausted := fun member => inv.exhausted ((List.mem_append.mp member).resolve_right exhausted) }

/-- The consumer only moves on, with a tail that it has seen. -/
theorem moveConsumer {seen : Nat} {next : Consumer width} {answers returns : List SpscReturn}
    (logged : returns = channel.returns ++ answers) (cachedTail : cached = wrappingIndex start seen)
    (later : seenTail ≤ seen) (tailSeen : seen ≤ channel.pushed.length)
    (knows : ({ channel with consumer := next } : Spsc A width).ConsumerKnows seen)
    (accepted : ∀ unread, .backpressure unread ∉ answers)
    (exhausted : .exhausted true ∈ answers → channel.ring.closed = true ∧ channel.pulled = channel.pushed) :
    ({ channel with cachedTail := cached, consumer := next, returns } : Spsc A width).Invariant start capacity bits
      seenHead seen := by
  subst logged
  refine { inv with
    cachedTail := cachedTail, tailSeen := tailSeen, producer := inv.producer, consumer := knows
    pulledSeen := inv.pulledSeen.trans later, takenSeen := inv.takenSeen.trans later
    refused := inv.refused_append fun unread new => absurd new (accepted unread)
    exhausted := fun member => (List.mem_append.mp member).elim inv.exhausted exhausted }

/-- The unread items fit into the ring. -/
theorem near : channel.pushed.length - channel.pulled.length < 2 ^ width := by
  have bound := inv.unread
  omega

theorem pulled_le_taken : channel.pulled.length ≤ channel.taken.length := inv.pulled.length_le

theorem pulled_le_pushed : channel.pulled.length ≤ channel.pushed.length := inv.pulledSeen.trans inv.tailSeen

/-- Two written items that are not taken have different slots. -/
theorem slots_ne {earlier later : Nat} (order : earlier < later) (above : channel.taken.length ≤ earlier)
    (below : later ≤ channel.pulled.length + capacity.toNat) :
    channel.ring.wrap (wrappingIndex start earlier) ≠ channel.ring.wrap (wrappingIndex start later) := by
  have front := inv.pulled_le_taken
  have room := inv.room
  unfold RingBuffer.wrap
  rw [inv.mask]
  exact wrappingIndex_slot_ne start inv.fits order (by omega)

/-- The slot of the next item is free. -/
theorem tail_free (published : channel.written = channel.pushed) :
    channel.ring.slots (channel.ring.wrap channel.ring.tail) = none := by
  rw [inv.tail]
  apply inv.empty
  intro index above bound
  rw [published] at bound
  exact (inv.slots_ne bound above inv.unread).symm

end

variable {value : A}

/-- The producer fills the slot of the next item. -/
theorem write (inv : channel.Invariant start capacity bits seenHead seenTail)
    (here : channel.producer = .write value tail) :
    ({ channel with
      ring := { channel.ring with slots := Function.update channel.ring.slots (channel.ring.wrap tail) (some value) }
      producer := .storeTail value tail
      fault := channel.fault || (channel.ring.slots (channel.ring.wrap tail)).isSome } : Spsc A width).Invariant
      start capacity bits seenHead seenTail := by
  have published : channel.written = channel.pushed := by
    simp only [written, here]
  have knows := inv.producer
  simp only [ProducerKnows, here] at knows
  obtain ⟨opened, sameTail, room⟩ := knows
  subst sameTail
  have free := inv.tail_free published
  have atTail : channel.ring.wrap channel.ring.tail = channel.ring.wrap (wrappingIndex start channel.pushed.length) := by
    rw [inv.tail]
  refine { inv with filled := ?_, empty := ?_, producer := ⟨opened, rfl, room⟩, consumer := inv.consumer, sound := ?_ }
  · intro index item above found
    change (channel.pushed ++ [value])[index]? = some item at found
    change Function.update channel.ring.slots (channel.ring.wrap channel.ring.tail) (some value)
      (channel.ring.wrap (wrappingIndex start index)) = some item
    rcases Nat.lt_trichotomy index channel.pushed.length with before | last | beyond
    · rw [List.getElem?_append_left before] at found
      have apart := inv.slots_ne before above inv.unread
      rw [Function.update_of_ne (atTail ▸ apart)]
      exact inv.filled index item above (by rw [published]; exact found)
    · subst last
      rw [List.getElem?_concat_length] at found
      cases found
      rw [← atTail, Function.update_self]
    · rw [List.getElem?_eq_none (by rw [List.length_append, List.length_singleton]; omega)] at found
      cases found
  · intro slot unused
    change Function.update channel.ring.slots (channel.ring.wrap channel.ring.tail) (some value) slot = none
    have notTail : slot ≠ channel.ring.wrap channel.ring.tail := by
      rw [atTail]
      apply unused
      · exact inv.takenSeen.trans inv.tailSeen
      · change channel.pushed.length < (channel.pushed ++ [value]).length
        rw [List.length_append, List.length_singleton]
        omega
    rw [Function.update_of_ne notTail]
    apply inv.empty
    intro index above bound
    apply unused index above
    change index < (channel.pushed ++ [value]).length
    rw [published] at bound
    rw [List.length_append]
    omega
  · rw [inv.sound, free]
    rfl

/-- The producer publishes the item that it wrote. -/
theorem storeTail (inv : channel.Invariant start capacity bits seenHead seenTail)
    (here : channel.producer = .storeTail value tail) :
    ({ channel with
      ring := { channel.ring with tail := tail + 1 }
      producer := .idle
      pushed := channel.pushed ++ [value]
      returns := channel.returns ++ [.pushed] } : Spsc A width).Invariant start capacity bits seenHead seenTail := by
  have same : channel.written = channel.pushed ++ [value] := by
    simp only [written, here]
  have knows := inv.producer
  simp only [ProducerKnows, here] at knows
  obtain ⟨opened, sameTail, room⟩ := knows
  subst sameTail
  rw [inv.sized] at room
  have headSeen := inv.headSeen
  have longer : (channel.pushed ++ [value]).length = channel.pushed.length + 1 := by
    rw [List.length_append, List.length_singleton]
  refine { inv with
    tail := ?_, taken := inv.taken.trans (List.prefix_append _ _), unread := ?_, pushable := ?_, tailSeen := ?_
    filled := ?_, empty := ?_, producer := trivial, consumer := inv.consumer
    refused := inv.refused_append (by simp), exhausted := ?_ }
  · rw [inv.tail, wrappingIndex_succ, longer]
  · change (channel.pushed ++ [value]).length ≤ channel.pulled.length + capacity.toNat
    omega
  · change (channel.pushed ++ [value]).length ≤ seenHead + capacity.toNat
    omega
  · change seenTail ≤ (channel.pushed ++ [value]).length
    have before := inv.tailSeen
    omega
  · intro index item above found
    exact inv.filled index item above (same ▸ found)
  · intro slot unused
    exact inv.empty slot fun index above bound => unused index above (same ▸ bound)
  · intro member
    rcases List.mem_append.mp member with old | new
    · have closed := (inv.exhausted old).1
      rw [opened] at closed
      cases closed
    · simp at new

section

variable (inv : channel.Invariant start capacity bits seenHead seenTail)
include inv

/-- The consumer moves the next item out of its slot. -/
theorem readSlot {index : BitVec width}
    {next : Consumer width} (here : index = wrappingIndex start channel.taken.length)
    (more : channel.taken.length < seenTail)
    (knows : ∀ value, ({ channel with consumer := next, taken := channel.taken ++ [value] } :
      Spsc A width).ConsumerKnows seenTail) :
    (channel.readSlot index next).Invariant start capacity bits seenHead seenTail := by
  subst here
  have inside : channel.taken.length < channel.pushed.length := lt_of_lt_of_le more inv.tailSeen
  obtain ⟨value, found, longest⟩ : ∃ value, channel.pushed[channel.taken.length]? = some value ∧
      channel.taken ++ [value] <+: channel.pushed :=
    ⟨_, List.getElem?_eq_getElem inside, List.concat_get_prefix inv.taken inside⟩
  have inSlots : channel.written[channel.taken.length]? = some value := by
    unfold written
    split
    · rw [List.getElem?_append_left inside, found]
    · exact found
  have full := inv.filled _ value le_rfl inSlots
  have longer : (channel.taken ++ [value]).length = channel.taken.length + 1 := by
    rw [List.length_append, List.length_singleton]
  unfold Spsc.readSlot
  rw [full]
  refine { inv with
    taken := longest, pulled := inv.pulled.trans (List.prefix_append _ _), takenSeen := ?_
    filled := ?_, empty := ?_, producer := inv.producer, consumer := knows value, exhausted := inv.exhausted }
  · change (channel.taken ++ [value]).length ≤ seenTail
    omega
  · intro other item above stored
    change (channel.taken ++ [value]).length ≤ other at above
    change Function.update channel.ring.slots (channel.ring.wrap (wrappingIndex start channel.taken.length)) none
      (channel.ring.wrap (wrappingIndex start other)) = some item
    have bound : other ≤ channel.pulled.length + capacity.toNat := by
      obtain ⟨small, _⟩ := List.getElem?_eq_some_iff.mp stored
      change other < channel.written.length at small
      have count : channel.written.length ≤ channel.pulled.length + capacity.toNat + 1 := by
        have unread := inv.unread
        unfold written
        split
        · rw [List.length_append, List.length_singleton]
          omega
        · omega
      omega
    have apart := inv.slots_ne (show channel.taken.length < other by omega) le_rfl bound
    rw [Function.update_of_ne apart.symm]
    exact inv.filled other item (by omega) stored
  · intro slot unused
    change Function.update channel.ring.slots (channel.ring.wrap (wrappingIndex start channel.taken.length)) none slot = none
    by_cases same : slot = channel.ring.wrap (wrappingIndex start channel.taken.length)
    · rw [same, Function.update_self]
    · rw [Function.update_of_ne same]
      apply inv.empty
      intro other above bound
      rcases Nat.eq_or_lt_of_le above with equal | greater
      · rw [← equal]
        exact same
      · apply unused other _ bound
        change (channel.taken ++ [value]).length ≤ other
        omega

/-- The consumer publishes the head behind what it has taken. -/
theorem publishHead {head : BitVec width} (count : Nat) (here : head = wrappingIndex start channel.taken.length) :
    (channel.publishHead head count).Invariant start capacity bits seenHead seenTail := by
  have front := inv.pulled_le_taken
  refine { inv with
    head := here, pulled := List.prefix_refl _, unread := ?_, headSeen := inv.headSeen.trans front
    pulledSeen := inv.takenSeen, filled := inv.filled, empty := inv.empty, producer := inv.producer, consumer := rfl
    refused := inv.refused_append (by simp), exhausted := ?_ }
  · change channel.pushed.length ≤ channel.taken.length + capacity.toNat
    have unread := inv.unread
    omega
  · intro member
    rcases List.mem_append.mp member with old | new
    · obtain ⟨closed, all⟩ := inv.exhausted old
      have full := inv.pulled
      rw [all] at full
      exact ⟨closed, List.IsPrefix.eq_of_length_le inv.taken full.length_le⟩
    · simp at new

/-- The producer closes the channel between its pushes. -/
theorem close {next : Producer A width} (idle : channel.producer = .idle) (rest : next = .idle ∨ next = .dropped) :
    ({ channel with ring := { channel.ring with closed := true }, producer := next } : Spsc A width).Invariant
      start capacity bits seenHead seenTail := by
  have before : channel.written = channel.pushed := by
    simp only [written, idle]
  have after : ({ channel with ring := { channel.ring with closed := true }, producer := next } : Spsc A width).written =
      channel.pushed := by
    rcases rest with same | same <;> subst same <;> rfl
  refine { inv with filled := ?_, empty := ?_, producer := ?_, consumer := ?_, exhausted := ?_ }
  · intro index value above found
    exact inv.filled index value above (by rw [before]; exact after ▸ found)
  · intro slot unused
    apply inv.empty slot
    intro index above bound
    exact unused index above (by rw [after]; exact before ▸ bound)
  · rcases rest with same | same <;> subst same <;> trivial
  · have knows := inv.consumer
    unfold ConsumerKnows at knows ⊢
    split <;> simp_all
  · intro member
    exact ⟨rfl, (inv.exhausted member).2⟩

/-- The producer keeps the invariant. -/
theorem produce (call : ProducerCall A) : ∃ seen, (channel.produce call).Invariant start capacity bits seen seenTail := by
  have knows := inv.producer
  -- A move without an answer that keeps the cached head.
  have move {next : Producer A width} (same : ({ channel with producer := next } : Spsc A width).written = channel.written)
      (after : ({ channel with producer := next } : Spsc A width).ProducerKnows seenHead) :
      ({ channel with producer := next } : Spsc A width).Invariant start capacity bits seenHead seenTail :=
    inv.moveProducer (List.append_nil _).symm same inv.cachedHead inv.headSeen inv.pushable after nofun nofun
  unfold Spsc.produce
  cases here : channel.producer with
  | idle =>
    cases call with
    | tryPush value => exact ⟨seenHead, move (by simp only [written, here]) trivial⟩
    | close => exact ⟨seenHead, inv.close here (Or.inl rfl)⟩
    | drop => exact ⟨seenHead, inv.close here (Or.inr rfl)⟩
  | loadClosed value =>
    cases closed : channel.ring.closed with
    | true =>
      refine ⟨seenHead, inv.moveProducer rfl ?_ inv.cachedHead inv.headSeen inv.pushable trivial (by simp) (by simp)⟩
      simp only [written, here]
    | false => exact ⟨seenHead, move (by simp only [written, here]) closed⟩
  | loadTail value =>
    simp only [ProducerKnows, here] at knows
    dsimp only
    have distance : (channel.ring.tail - channel.cachedHead).toNat = channel.pushed.length - seenHead := by
      rw [inv.tail, inv.cachedHead]
      apply wrappingIndex_distance
      · exact inv.headSeen.trans inv.pulled_le_pushed
      · have bound := inv.pushable
        omega
    split
    · exact ⟨seenHead, move (by simp only [written, here]) ⟨knows, rfl⟩⟩
    · rename_i free
      refine ⟨seenHead, move (by simp only [written, here]) ⟨knows, rfl, ?_⟩⟩
      unfold RingBuffer.lenFrom at free
      rw [BitVec.le_def] at free
      change channel.pushed.length < seenHead + channel.ring.capacity.toNat
      omega
  | loadHead value tail =>
    simp only [ProducerKnows, here] at knows
    obtain ⟨opened, sameTail⟩ := knows
    subst sameTail
    dsimp only
    have behind := inv.pulled_le_pushed
    have distance : (channel.ring.tail - channel.ring.head).toNat = channel.pushed.length - channel.pulled.length := by
      rw [inv.tail, inv.head]
      exact wrappingIndex_distance start behind inv.near
    have same : ∀ next : Producer A width, (∀ item index, next ≠ .storeTail item index) →
        ({ channel with producer := next } : Spsc A width).written = channel.written := by
      intro next different
      simp only [written, here]
    refine ⟨channel.pulled.length, ?_⟩
    split
    · rename_i full
      unfold RingBuffer.lenFrom at full
      rw [BitVec.le_def, inv.sized] at full
      have unread := inv.unread
      refine inv.moveProducer rfl (same .idle (by simp)) inv.head le_rfl inv.unread trivial ?_ (by simp)
      intro count member
      rw [List.mem_singleton] at member
      cases member
      unfold Spsc.unread
      omega
    · rename_i free
      unfold RingBuffer.lenFrom at free
      rw [BitVec.le_def] at free
      have room : channel.pushed.length < channel.pulled.length + channel.ring.capacity.toNat := by omega
      exact inv.moveProducer (List.append_nil _).symm (same (.write value channel.ring.tail) (by simp)) inv.head le_rfl
        inv.unread ⟨opened, rfl, room⟩ nofun nofun
  | write value tail => exact ⟨seenHead, inv.write here⟩
  | storeTail value tail => exact ⟨seenHead, inv.storeTail here⟩
  | dropped => exact ⟨seenHead, inv⟩

/-- The consumer keeps the invariant. -/
theorem consume (call : ConsumerCall) : ∃ seen, (channel.consume call).Invariant start capacity bits seenHead seen := by
  have knows := inv.consumer
  unfold ConsumerKnows at knows
  -- A move without an answer that keeps the cached tail.
  have move {next : Consumer width}
      (after : ({ channel with consumer := next } : Spsc A width).ConsumerKnows seenTail) :
      ({ channel with consumer := next } : Spsc A width).Invariant start capacity bits seenHead seenTail :=
    inv.moveConsumer (List.append_nil _).symm inv.cachedTail le_rfl inv.tailSeen after nofun nofun
  have behind := inv.pulled_le_pushed
  have near := inv.near
  have tailSeen := inv.tailSeen
  unfold Spsc.consume
  generalize channel.consumer = place at knows ⊢
  cases place with
  | idle =>
    cases call with
    | pull => exact ⟨seenTail, move knows⟩
    | drainInto => exact ⟨seenTail, move knows⟩
    | isExhausted => exact ⟨seenTail, move knows⟩
  | loadHead =>
    dsimp only
    refine ⟨seenTail, ?_⟩
    split
    · exact move ⟨rfl, knows⟩
    · rename_i ahead
      refine move ⟨rfl, knows, ?_⟩
      rw [inv.head, inv.cachedTail, wrappingIndex_inj start inv.pulledSeen (by omega)] at ahead
      exact lt_of_le_of_ne inv.pulledSeen ahead
  | loadTail head =>
    obtain ⟨rfl, settled⟩ := knows
    dsimp only
    refine ⟨channel.pushed.length, ?_⟩
    split
    · exact inv.moveConsumer rfl inv.tail inv.tailSeen le_rfl settled (by simp) (by simp)
    · rename_i ahead
      rw [inv.head, inv.tail, wrappingIndex_inj start behind near] at ahead
      exact inv.moveConsumer (List.append_nil _).symm inv.tail inv.tailSeen le_rfl
        ⟨rfl, settled, lt_of_le_of_ne behind ahead⟩ nofun nofun
  | read head =>
    obtain ⟨rfl, settled, more⟩ := knows
    refine ⟨seenTail, inv.readSlot ?_ ?_ fun value => ⟨rfl, ?_, more⟩⟩
    · rw [inv.head, settled]
    · rw [settled]
      exact more
    · rw [List.length_append, List.length_singleton, settled]
  | storeHead head =>
    obtain ⟨rfl, count, _⟩ := knows
    refine ⟨seenTail, inv.publishHead 1 ?_⟩
    rw [inv.head, wrappingIndex_succ, count]
  | drainTail =>
    exact ⟨channel.pushed.length,
      inv.moveConsumer (List.append_nil _).symm inv.tail inv.tailSeen le_rfl knows nofun nofun⟩
  | drainHead =>
    dsimp only
    have count : (channel.ring.lenFrom channel.ring.head channel.cachedTail).toNat =
        seenTail - channel.pulled.length := by
      rw [inv.head, inv.cachedTail]
      exact wrappingIndex_distance start inv.pulledSeen (by omega)
    refine ⟨seenTail, ?_⟩
    split
    · exact inv.moveConsumer rfl inv.cachedTail le_rfl inv.tailSeen knows (by simp) (by simp)
    · rename_i some
      have positive : 0 < seenTail - channel.pulled.length := by
        rw [← count]
        exact Nat.pos_of_ne_zero fun zero => some (BitVec.eq_of_toNat_eq zero)
      refine move ⟨rfl, ?_, ?_, ?_⟩
      · rw [knows, Nat.add_zero]
      · have order := inv.pulledSeen
        change channel.pulled.length + (channel.ring.lenFrom channel.ring.head channel.cachedTail).toNat = seenTail
        omega
      · omega
  | drainRead head count done =>
    obtain ⟨rfl, progress, total, more⟩ := knows
    refine ⟨seenTail, inv.readSlot ?_ ?_ fun value => ?_⟩
    · rw [inv.head, wrappingIndex_add, progress]
    · omega
    · have longer : (channel.taken ++ [value]).length = channel.pulled.length + (done + 1) := by
        rw [List.length_append, List.length_singleton]
        omega
      by_cases last : done + 1 = count.toNat
      · simp only [if_pos last]
        exact ⟨rfl, last ▸ longer, total⟩
      · simp only [if_neg last]
        exact ⟨rfl, longer, total, by omega⟩
  | drainStore head count =>
    obtain ⟨rfl, progress, total⟩ := knows
    refine ⟨seenTail, inv.publishHead count.toNat ?_⟩
    rw [inv.head, progress, ← wrappingIndex_add, BitVec.ofNat_toNat, BitVec.setWidth_eq]
  | loadClosed =>
    dsimp only
    refine ⟨seenTail, ?_⟩
    split
    · rename_i closed
      exact move ⟨closed, knows⟩
    · exact inv.moveConsumer rfl inv.cachedTail le_rfl inv.tailSeen knows (by simp) (by simp)
  | exhaustedHead =>
    exact ⟨seenTail, move ⟨knows.1, rfl, knows.2⟩⟩
  | exhaustedTail head =>
    obtain ⟨closed, rfl, settled⟩ := knows
    refine ⟨seenTail, inv.moveConsumer rfl inv.cachedTail le_rfl inv.tailSeen settled (by simp) fun member => ?_⟩
    simp only [List.mem_singleton, SpscReturn.exhausted.injEq] at member
    have met := eq_of_beq member.symm
    rw [inv.head, inv.tail, wrappingIndex_inj start behind near] at met
    exact ⟨closed, (inv.pulled.trans inv.taken).eq_of_length met⟩

theorem run (moves : List (SpscMove A)) :
    ∃ seenHead seenTail, (channel.run moves).Invariant start capacity bits seenHead seenTail := by
  induction moves generalizing channel seenHead seenTail with
  | nil => exact ⟨seenHead, seenTail, inv⟩
  | cons move rest ih =>
    cases move with
    | produce call =>
      obtain ⟨seen, next⟩ := inv.produce call
      exact ih next
    | consume call =>
      obtain ⟨seen, next⟩ := inv.consume call
      exact ih next

end

end Invariant

/-- A ring that was built has more slots than its capacity, and their number is a power of two. -/
theorem startAt_invariant {ring : RingBuffer A width} (built : RingBuffer.new capacity = some ring)
    (start : BitVec width) :
    (startAt ring start).Invariant start capacity (capacity.toNat.log2 + 1) 0 0 := by
  unfold RingBuffer.new at built
  split at built
  · cases built
  · split at built
    · cases built
    · dsimp only at built
      split at built
      · rename_i larger
        cases built
        have room : capacity.toNat < 2 ^ (capacity.toNat.log2 + 1) := Nat.lt_log2_self
        rw [BitVec.lt_def, BitVec.toNat_ofNat] at larger
        have fits : capacity.toNat.log2 + 1 ≤ width := by
          by_contra beyond
          have divides : 2 ^ width ∣ 2 ^ (capacity.toNat.log2 + 1) := Nat.pow_dvd_pow 2 (by omega)
          omega
        refine {
          sized := rfl, mask := ?_, fits := fits, room := room, head := (wrappingIndex_zero start).symm
          tail := (wrappingIndex_zero start).symm, taken := List.prefix_refl _, pulled := List.prefix_refl _
          unread := Nat.zero_le _, cachedHead := (wrappingIndex_zero start).symm, headSeen := le_rfl
          pushable := Nat.zero_le _, cachedTail := (wrappingIndex_zero start).symm, pulledSeen := le_rfl
          tailSeen := le_rfl, takenSeen := le_rfl, filled := ?_, empty := fun _ _ => rfl, producer := trivial
          consumer := rfl, sound := rfl, refused := ?_, exhausted := ?_ }
        · have one : 1 < 2 ^ width := Nat.one_lt_two_pow (by omega)
          exact BitVec.ofNat_sub_ofNat_of_le _ 1 one (Nat.two_pow_pos _)
        · intro index value _ found
          cases found
        · intro unread member
          cases member
        · intro member
          cases member
      · cases built

/-- No call is running at either endpoint. -/
def AtRest (channel : Spsc A width) : Prop :=
  (channel.producer = .idle ∨ channel.producer = .dropped) ∧ channel.consumer = .idle

/-- A consumer that pulls the next item at rest. -/
def pullNext (channel : Spsc A width) : Spsc A width :=
  (({ channel with cachedTail := channel.ring.tail, consumer := .read channel.ring.head } : Spsc A width).readSlot
    channel.ring.head (.storeHead channel.ring.head)).publishHead (channel.ring.head + 1) 1

section

variable (inv : channel.Invariant start capacity bits seenHead seenTail)
include inv

/-- One turn of the loop of `drop` is a pull of the next item. -/
theorem Invariant.dropStep (rest : channel.AtRest) (more : channel.pulled.length < channel.pushed.length) :
    ∃ value, channel.pushed[channel.pulled.length]? = some value ∧
      channel.pullNext.Invariant start capacity bits seenHead channel.pushed.length ∧ channel.pullNext.AtRest ∧
      channel.pullNext.pushed = channel.pushed ∧ channel.pullNext.pulled = channel.pulled ++ [value] ∧
      ∀ dropped, RingBuffer.dropStep (channel.ring, dropped) = some (channel.pullNext.ring, dropped ++ [value]) := by
  have settled : channel.taken = channel.pulled := by
    have knows := inv.consumer
    simp only [ConsumerKnows, rest.2] at knows
    exact knows
  have published : channel.written = channel.pushed := by
    rcases rest.1 with here | here <;> simp only [written, here]
  obtain ⟨value, found⟩ : ∃ value, channel.pushed[channel.pulled.length]? = some value :=
    ⟨_, List.getElem?_eq_getElem more⟩
  have full : channel.ring.slots (channel.ring.wrap channel.ring.head) = some value := by
    rw [inv.head]
    exact inv.filled _ value (le_of_eq (congrArg List.length settled)) (by rw [published]; exact found)
  have read : ({ channel with cachedTail := channel.ring.tail, consumer := .read channel.ring.head } :
      Spsc A width).Invariant start capacity bits seenHead channel.pushed.length :=
    inv.moveConsumer (List.append_nil _).symm inv.tail inv.tailSeen le_rfl ⟨rfl, settled, more⟩ nofun nofun
  have atHead : channel.ring.head = wrappingIndex start channel.taken.length := by
    rw [inv.head, settled]
  have taken : (({ channel with cachedTail := channel.ring.tail, consumer := .read channel.ring.head } :
      Spsc A width).readSlot channel.ring.head (.storeHead channel.ring.head)).Invariant start capacity bits seenHead
      channel.pushed.length :=
    read.readSlot atHead (settled ▸ more) fun item => ⟨rfl, by simp [settled], more⟩
  have shape : ({ channel with cachedTail := channel.ring.tail, consumer := .read channel.ring.head } :
      Spsc A width).readSlot channel.ring.head (.storeHead channel.ring.head) =
      { channel with
        ring := { channel.ring with slots := Function.update channel.ring.slots (channel.ring.wrap channel.ring.head) none }
        cachedTail := channel.ring.tail
        consumer := .storeHead channel.ring.head
        taken := channel.taken ++ [value] } := by
    simp only [Spsc.readSlot, full]
  have ended : channel.pullNext.Invariant start capacity bits seenHead channel.pushed.length := by
    apply taken.publishHead 1
    rw [shape]
    rw [atHead, wrappingIndex_succ, List.length_append, List.length_singleton]
  refine ⟨value, found, ended, ?_, ?_, ?_, fun dropped => ?_⟩
  · unfold pullNext
    rw [shape]
    exact ⟨rest.1, rfl⟩
  · unfold pullNext
    rw [shape]
    rfl
  · unfold pullNext
    rw [shape, ← settled]
    rfl
  · have apart : channel.ring.head ≠ channel.ring.tail := by
      rw [inv.head, inv.tail]
      intro same
      have equal := (wrappingIndex_inj start inv.pulled_le_pushed inv.near).mp same
      omega
    unfold pullNext
    rw [shape]
    simp only [RingBuffer.dropStep, if_neg apart, full]
    rfl

/-- The loop of `drop` drops what is unread, in order, and leaves no item behind. -/
theorem Invariant.drop (rest : channel.AtRest) {fuel : Nat} (enough : channel.unread < fuel) (dropped : List A) :
    ∃ ring, loop RingBuffer.dropStep fuel (channel.ring, dropped) =
        some (ring, dropped ++ channel.pushed.drop channel.pulled.length) ∧ ∀ slot, ring.slots slot = none := by
  -- The induction is on the unread items; each turn of the loop is a pull.
  induction fuel generalizing channel seenHead seenTail dropped with
  | zero => omega
  | succ fuel ih =>
    have behind := inv.pulled_le_pushed
    rcases Nat.eq_or_lt_of_le behind with all | more
    · have met : channel.ring.head = channel.ring.tail := by
        rw [inv.head, inv.tail, all]
      refine ⟨channel.ring, ?_, fun slot => inv.empty slot fun index above bound => ?_⟩
      · rw [loop_of_done (by simp only [RingBuffer.dropStep, if_pos met]), all, List.drop_length, List.append_nil]
      · have published : channel.written = channel.pushed := by
          rcases rest.1 with here | here <;> simp only [written, here]
        rw [published] at bound
        have front := inv.pulled_le_taken
        omega
    · obtain ⟨value, found, next, still, pushed, pulled, turn⟩ := inv.dropStep rest more
      have fewer : channel.pullNext.unread < fuel := by
        unfold Spsc.unread at enough ⊢
        rw [pushed, pulled, List.length_append, List.length_singleton]
        omega
      obtain ⟨ring, ended, clean⟩ := ih next still fewer (dropped ++ [value])
      refine ⟨ring, ?_, clean⟩
      rw [loop_of_step (turn dropped), ended, pushed, pulled, List.append_assoc, List.length_append]
      congr 2
      obtain ⟨bound, same⟩ := List.getElem?_eq_some_iff.mp found
      rw [List.drop_eq_getElem_cons bound, same]
      rfl

/-- A closed channel takes no item and stays closed. -/
theorem Invariant.step_closed (closed : channel.ring.closed = true) (move : SpscMove A) :
    (channel.step move).pushed = channel.pushed ∧ (channel.step move).ring.closed = true := by
  cases move with
  | produce call =>
    have knows := inv.producer
    unfold ProducerKnows at knows
    show (channel.produce call).pushed = channel.pushed ∧ (channel.produce call).ring.closed = true
    unfold Spsc.produce
    cases here : channel.producer with
    | idle => cases call <;> simp [closed]
    | loadClosed value => simp [closed]
    | dropped => exact ⟨rfl, closed⟩
    | loadTail value | loadHead value tail | write value tail | storeTail value tail =>
      simp [here, closed] at knows
  | consume call =>
    show (channel.consume call).pushed = channel.pushed ∧ (channel.consume call).ring.closed = true
    unfold Spsc.consume Spsc.readSlot Spsc.publishHead
    dsimp only
    split
    · split <;> exact ⟨rfl, closed⟩
    all_goals first | exact ⟨rfl, closed⟩ | (split <;> exact ⟨rfl, closed⟩)

end

theorem step_returns (channel : Spsc A width) (move : SpscMove A) : channel.returns <+:
    (channel.step move).returns := by
  have same := List.prefix_refl channel.returns
  have more (answer : SpscReturn) := List.prefix_append channel.returns [answer]
  cases move with
  | produce call =>
    show channel.returns <+: (channel.produce call).returns
    unfold Spsc.produce
    split
    · split <;> exact same
    all_goals first | exact same | exact more _ | (split <;> first | exact same | exact more _)
  | consume call =>
    show channel.returns <+: (channel.consume call).returns
    unfold Spsc.consume Spsc.readSlot Spsc.publishHead
    dsimp only
    split
    · split <;> exact same
    all_goals first | exact same | exact more _ | (split <;> first | exact same | exact more _)

/-- Once the channel said that it is exhausted, it stays as it is. -/
theorem Invariant.exhausted_run (inv : channel.Invariant start capacity bits seenHead seenTail)
    (exhausted : .exhausted true ∈ channel.returns) (later : List (SpscMove A)) :
    (channel.run later).pushed = channel.pushed ∧ (channel.run later).pulled = channel.pushed := by
  induction later generalizing channel seenHead seenTail with
  | nil => exact ⟨rfl, (inv.exhausted exhausted).2⟩
  | cons move rest ih =>
    obtain ⟨kept, _⟩ := inv.step_closed (inv.exhausted exhausted).1 move
    have still := (step_returns channel move).subset exhausted
    obtain ⟨head, tail, next⟩ := inv.run [move]
    obtain ⟨pushed, pulled⟩ := ih next still
    exact ⟨pushed.trans kept, pulled.trans kept⟩

/-- The ring is correct in every interleaving of its endpoints, from any common value of its indices. -/
theorem run_correct {ring : RingBuffer A width} (built : RingBuffer.new capacity = some ring) (start : BitVec width)
    (moves : List (SpscMove A)) :
    let channel := (startAt ring start).run moves
    (channel.pulled <+: channel.taken ∧ channel.taken <+: channel.pushed) ∧
      channel.fault = false ∧
      channel.unread ≤ capacity.toNat ∧
      (∀ unread, .backpressure unread ∈ channel.returns → unread = capacity.toNat) ∧
      (.exhausted true ∈ channel.returns → ∀ later,
        (channel.run later).pushed = channel.pushed ∧ (channel.run later).pulled = channel.pushed) ∧
      (channel.AtRest → ∀ fuel, channel.unread < fuel →
        ∃ emptied, channel.ring.drop fuel = some (emptied, channel.pushed.drop channel.pulled.length) ∧
          ∀ slot, emptied.slots slot = none) := by
  intro channel
  obtain ⟨seenHead, seenTail, inv⟩ := (startAt_invariant built start).run moves
  refine ⟨⟨inv.pulled, inv.taken⟩, inv.sound, ?_, inv.refused, ?_, ?_⟩
  · have unread : channel.pushed.length ≤ channel.pulled.length + capacity.toNat := inv.unread
    unfold Spsc.unread
    omega
  · intro exhausted later
    exact inv.exhausted_run exhausted later
  · intro rest fuel enough
    exact inv.drop rest enough []

end Spsc

end Invariant

/-- A ring of capacity one whose indices start at the last value before they wrap. -/
theorem spsc_wraps :
    ∃ ring : RingBuffer Nat 3, RingBuffer.new 1 = some ring ∧
      ((Spsc.startAt ring 7).run (List.replicate 5 (.produce (.tryPush 4)) ++ List.replicate 5 (.consume .pull))).pulled =
        [4] ∧
      ((Spsc.startAt ring 7).run (List.replicate 5 (.produce (.tryPush 4)) ++ List.replicate 5 (.consume .pull))).fault =
        false := by
  obtain ⟨ring, built⟩ : ∃ ring : RingBuffer Nat 3, RingBuffer.new 1 = some ring := ⟨_, rfl⟩
  refine ⟨ring, built, ?_, (Spsc.run_correct built 7 _).2.1⟩
  cases built
  decide

end Instancy
