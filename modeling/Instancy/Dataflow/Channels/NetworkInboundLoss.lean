import Instancy.Dataflow.Channels.NetworkInboundEffects

namespace Instancy

variable {T D : Type} {channel : DataChannel T D} {rest : List (List UInt8)}

namespace Inbound

/-- The bridge notes the sentinel before it sends it, and nothing follows the sentinel in the queue. -/
structure Closing (inbound : Inbound T D) : Prop where
  hand : ∃ earlier, inbound.delivered = earlier ++ inbound.bridge.place.hand
  sent : inbound.bridge.closed = true → inbound.bridge.place ≠ .sent true
  sending : ∀ bytes unseen, inbound.bridge.place = .sending bytes unseen →
    (inbound.bridge.closed = true ↔ bytes = encodeClose)
  sentinel : encodeClose ∈ inbound.queue ∨ inbound.pull.exhausted = true →
    inbound.bridge.closed = true ∧ ∀ bytes unseen, inbound.bridge.place ≠ .sending bytes unseen
  last : encodeClose ∉ inbound.queue.dropLast
  drained : inbound.pull.exhausted = true → inbound.queue = []
  closed : inbound.bridge.closed = true → ∃ earlier later, inbound.delivered = earlier ++ encodeClose :: later ∧
    ∀ bytes, inbound.bridge.place = .delivering bytes → later ≠ []

section Closing

variable {before after : Inbound T D} (closing : before.Closing)

include closing

/-- The bridge is done with its frame. -/
theorem Closing.idle {place : BridgePlace} (idle : place = .receiving ∨ place = .exited) :
    (before.bridgeTo place).Closing := by
  have places : place.hand = [] ∧ place ≠ .sent true ∧ (∀ bytes unseen, place ≠ .sending bytes unseen) ∧
      ∀ bytes, place ≠ .delivering bytes := by
    rcases idle with rfl | rfl <;> simp [BridgePlace.hand]
  obtain ⟨empty, unsent, passive, resting⟩ := places
  refine ⟨⟨before.delivered, ?_⟩, fun _ => unsent, fun bytes unseen sending => absurd sending (passive bytes unseen),
    fun present => ⟨(closing.sentinel present).1, passive⟩, closing.last, closing.drained, fun closed => ?_⟩
  · simp [bridgeTo, empty]
  · obtain ⟨earlier, later, split, _⟩ := closing.closed closed
    exact ⟨earlier, later, split, fun bytes delivering => absurd delivering (resting bytes)⟩

/-- Frames leave the queue at its front, and the pull end is exhausted only by the sentinel. -/
theorem Closing.shrink (closed : after.bridge.closed = before.bridge.closed)
    (place : after.bridge.place = before.bridge.place) (delivered : after.delivered = before.delivered)
    (front : List (List UInt8)) (queue : before.queue = front ++ after.queue)
    (exhausted : after.pull.exhausted = true → before.pull.exhausted = true ∨ encodeClose ∈ front) :
    after.Closing := by
  have last := closing.last
  constructor
  · simpa [delivered, place] using closing.hand
  · simpa [closed, place] using closing.sent
  · simpa [closed, place] using closing.sending
  · intro present
    rw [closed, place]
    refine closing.sentinel ?_
    rw [queue, List.mem_append]
    rcases present with inQueue | isExhausted
    · exact Or.inl (Or.inr inQueue)
    · exact (exhausted isExhausted).elim Or.inr fun inFront => Or.inl (Or.inl inFront)
  · intro found
    cases empty : after.queue with
    | nil => simp [empty] at found
    | cons first rest => simp_all
  · intro isExhausted
    rcases exhausted isExhausted with already | inFront
    · have none := closing.drained already
      rw [queue] at none
      exact (List.append_eq_nil_iff.mp none).2
    · cases empty : after.queue with
      | nil => rfl
      | cons first rest => simp_all
  · simpa [closed, place, delivered] using closing.closed

theorem Closing.examine {bytes : List UInt8} (unseen : Bool) (delivering : before.bridge.place = .delivering bytes)
    (opened : before.bridge.closed = false) :
    ({ before with bridge := { before.bridge with closed := isCloseSentinel bytes } }.bridgeTo
      (.sending bytes unseen)).Closing := by
  have noted : isCloseSentinel bytes = true ↔ bytes = encodeClose := decide_eq_true_iff
  obtain ⟨earlier, split⟩ := closing.hand
  rw [delivering] at split
  refine ⟨⟨earlier, split⟩, fun _ => by simp [bridgeTo], fun other _ sending => ?_, fun present => ?_, closing.last,
    closing.drained, fun isClosed => ?_⟩
  · cases sending
    exact noted
  · exact absurd (closing.sentinel present).1 (by simp [opened])
  · exact ⟨earlier, [], by rw [← noted.mp isClosed]; exact split, by simp [bridgeTo]⟩

theorem Closing.handOver {bytes : List UInt8} {unseen : Bool} (sending : before.bridge.place = .sending bytes unseen) :
    ({ before with queue := before.queue ++ [bytes] }.bridgeTo (.sent (frameCarriesRecords bytes))).Closing := by
  have absent : encodeClose ∉ before.queue := fun member => (closing.sentinel (Or.inl member)).2 _ _ sending
  have noted := closing.sending bytes unseen sending
  refine ⟨⟨before.delivered, (List.append_nil _).symm⟩, fun isClosed => ?_, fun _ _ other => ?_, fun present => ?_, ?_,
    fun exhausted => ?_, fun isClosed => ?_⟩
  · simp [bridgeTo, noted.mp isClosed, frameCarriesRecords, encodeClose, tagClose, tagWatermark, tagError]
  · cases other
  · refine ⟨noted.mpr ?_, by simp [bridgeTo]⟩
    rcases present with found | exhausted
    · simpa [bridgeTo, absent, eq_comm] using found
    · exact absurd sending ((closing.sentinel (Or.inr exhausted)).2 bytes unseen)
  · simpa [bridgeTo] using absent
  · exact absurd sending ((closing.sentinel (Or.inr exhausted)).2 bytes unseen)
  · obtain ⟨earlier, later, split, _⟩ := closing.closed isClosed
    exact ⟨earlier, later, split, by simp [bridgeTo]⟩

theorem Closing.receive (bytes : List UInt8) :
    ({ before with delivered := before.delivered ++ [bytes] }.bridgeTo (.delivering bytes)).Closing := by
  refine ⟨⟨before.delivered, rfl⟩, fun _ => by simp [bridgeTo], fun _ _ sending => ?_, fun present => ?_, closing.last,
    closing.drained, fun isClosed => ?_⟩
  · cases sending
  · exact ⟨(closing.sentinel present).1, by simp [bridgeTo]⟩
  · obtain ⟨earlier, later, split, _⟩ := closing.closed isClosed
    exact ⟨earlier, later ++ [bytes], by simp [bridgeTo, split], by simp⟩

theorem Closing.effect (effect : Effect channel before after) : after.Closing := by
  cases effect with
  | receive bytes receiving => exact closing.receive bytes
  | examine bytes unseen delivering opened => exact closing.examine unseen delivering opened
  | handOver bytes unseen sending present => exact closing.handOver sending
  | settle settled => exact closing.idle (Or.inl rfl)
  | exit receiving => exact closing.idle (Or.inr rfl)
  | ended receiving opened =>
    have reported : (before.report (.dataChannelEnded .channelClosed)).Closing := { closing with }
    exact reported.idle (Or.inr rfl)
  | give bytes rest envelope inUse first decoded => exact closing.shrink rfl rfl rfl [bytes] first Or.inl
  | exhaust rest inUse first =>
    exact closing.shrink rfl rfl rfl [encodeClose] first fun _ => Or.inr List.mem_cons_self
  | fail bytes rest failure inUse first invalid => exact closing.shrink rfl rfl rfl [bytes] first Or.inl
  | discard bytes rest unconsumed more corrupt noted draining first kept counted =>
    exact closing.shrink rfl rfl rfl [bytes] first Or.inl
  | gone drained => exact closing.shrink rfl rfl rfl before.queue (List.append_nil _).symm Or.inl
  | tell | disconnect | drain | closeEarly | drop | drained => exact closing.shrink rfl rfl rfl [] rfl Or.inl

end Closing

/-- The pull end will report what it discarded. -/
def Due (inbound : Inbound T D) : Prop :=
  ∃ unconsumed corrupt, inbound.pull.place = .draining unconsumed corrupt ∧ (0 < unconsumed ∨ corrupt ≠ none)

/-- The bridge will report the frame that it has just sent. -/
def Owes (inbound : Inbound T D) : Prop := inbound.bridge.place = .sent true ∧ inbound.pullDropped = true

/-- Every record that the bridge received was returned, is queued or in the hand of the bridge, and none is queued
behind a pull end that has drained its receiver. -/
structure Balanced (channel : DataChannel T D) (inbound : Inbound T D) : Prop where
  records : channel.recordsOf inbound.delivered = DataChannel.recordsIn inbound.pull.returned ++
    channel.recordsOf inbound.queue ++ channel.recordsOf inbound.bridge.place.hand
  drained : inbound.pull.place = .drained ∨ inbound.pull.place = .gone → channel.recordsOf inbound.queue = []

/-- Something was reported or will be, or no record is missing. -/
def Accounted (channel : DataChannel T D) (inbound : Inbound T D) : Prop :=
  inbound.reports ≠ [] ∨ inbound.Due ∨ inbound.Owes ∨ inbound.Balanced channel

section Accounted

variable {before after : Inbound T D} (accounted : before.Accounted channel)

include accounted

/-- The step of the bridge that is not about records. -/
theorem Accounted.bridge (reports : before.reports ≠ [] → after.reports ≠ []) (pull : after.pull = before.pull)
    (owes : before.Owes → after.reports ≠ [] ∨ after.Owes)
    (balanced : after.reports = [] → before.Balanced channel → after.Owes ∨ after.Balanced channel) :
    after.Accounted channel := by
  rcases accounted with told | due | owed | whole
  · exact Or.inl (reports told)
  · exact Or.inr (Or.inl (by rw [Due, pull]; exact due))
  · exact (owes owed).imp_right fun still => Or.inr (Or.inl still)
  · by_cases silent : after.reports = []
    · exact Or.inr (Or.inr (balanced silent whole))
    · exact Or.inl silent

theorem Accounted.settle (settled : before.Settled) : (before.bridgeTo .receiving).Accounted channel := by
  refine accounted.bridge id rfl (fun owed => Or.inl (settled.racing owed.1 owed.2)) fun silent whole => Or.inr ?_
  have control : channel.recordsOf before.bridge.place.hand = [] := by
    refine List.filterMap_eq_nil_iff.mpr fun bytes member => DataChannel.carried_of_control ?_
    exact Bool.eq_false_iff.mpr fun records => settled.records bytes member records silent
  have records := whole.records
  rw [control] at records
  exact ⟨records, whole.drained⟩

variable {bytes : List UInt8}

theorem Accounted.handOver (flagged : before.Flagged) {unseen : Bool}
    (sending : before.bridge.place = .sending bytes unseen) :
    ({ before with queue := before.queue ++ [bytes] }.bridgeTo (.sent (frameCarriesRecords bytes))).Accounted
      channel := by
  refine accounted.bridge id rfl (fun owed => ?_) fun _ whole => ?_
  · rw [Owes, sending] at owed
    cases owed.1
  · have records := whole.records
    rw [sending] at records
    by_cases racing : frameCarriesRecords bytes = true ∧ before.pullDropped = true
    · exact Or.inl ⟨by rw [racing.1]; rfl, racing.2⟩
    · refine Or.inr ⟨?_, fun place => ?_⟩
      · simpa [bridgeTo, BridgePlace.hand] using records
      · have dropped : before.pullDropped = true := by
          refine flagged.dropped.mpr fun live => ?_
          rcases place with drained | gone
          · cases live.symm.trans drained
          · cases live.symm.trans gone
        have control : frameCarriesRecords bytes = false :=
          Bool.eq_false_iff.mpr fun carries => racing ⟨carries, dropped⟩
        have none : channel.recordsOf [bytes] = [] :=
          DataChannel.recordsOf_of_carried (DataChannel.carried_of_control control)
        simpa [bridgeTo, none] using whole.drained place

theorem Accounted.give {envelope : Envelope T D} (inUse : before.InUse) (first : before.queue = bytes :: rest)
    (decoded : channel.decode bytes = .ok (some envelope)) :
    { before with
      queue := rest
      pull := { before.pull with returned := before.pull.returned ++ [envelope] } }.Accounted channel := by
  rcases accounted with told | ⟨_, _, draining, _⟩ | owed | whole
  · exact Or.inl told
  · cases inUse.live.symm.trans draining
  · exact Or.inr (Or.inr (Or.inl owed))
  · refine Or.inr (Or.inr (Or.inr ⟨?_, fun place => ?_⟩))
    · have records := whole.records
      rw [first, DataChannel.recordsOf_cons, DataChannel.recordsOf_of_some decoded] at records
      simpa [DataChannel.recordsIn_append] using records
    · rcases place with drained | gone
      · cases inUse.live.symm.trans drained
      · cases inUse.live.symm.trans gone

theorem Accounted.exhaust (first : before.queue = encodeClose :: rest) :
    { before with queue := rest, pull := { before.pull with exhausted := true } }.Accounted channel := by
  have none : channel.recordsOf [encodeClose] = [] :=
    DataChannel.recordsOf_of_carried (DataChannel.carried_of_none (DataChannel.decode_eq_none.mpr rfl))
  have same : channel.recordsOf before.queue = channel.recordsOf rest := by
    rw [first, DataChannel.recordsOf_cons, none, List.nil_append]
  refine accounted.imp_right fun later => later.imp_right fun later => later.imp_right fun whole => ⟨?_, fun place => ?_⟩
  · rw [← same]
    exact whole.records
  · rw [← same]
    exact whole.drained place

theorem Accounted.discard {unconsumed more : Nat}
    {corrupt noted : Option CodecError} (draining : before.pull.place = .draining unconsumed corrupt)
    (first : before.queue = bytes :: rest) (kept : 0 < unconsumed ∨ corrupt ≠ none → 0 < more ∨ noted ≠ none)
    (counted : channel.carried bytes ≠ none → 0 < more ∨ noted ≠ none) :
    ({ before with queue := rest }.pullTo (.draining more noted)).Accounted channel := by
  rcases accounted with told | ⟨_, _, place, due⟩ | owed | whole
  · exact Or.inl told
  · cases draining.symm.trans place
    exact Or.inr (Or.inl ⟨more, noted, rfl, kept due⟩)
  · exact Or.inr (Or.inr (Or.inl owed))
  · by_cases recordless : channel.carried bytes = none
    · refine Or.inr (Or.inr (Or.inr ⟨?_, fun place => ?_⟩))
      · have records := whole.records
        rw [first, DataChannel.recordsOf_cons, DataChannel.recordsOf_of_carried recordless] at records
        exact records
      · rcases place with drained | gone
        · cases drained
        · cases gone
    · exact Or.inr (Or.inl ⟨more, noted, rfl, counted recordless⟩)

theorem Accounted.drained {unconsumed : Nat} {corrupt : Option CodecError} {events : List LinkEvent}
    (draining : before.pull.place = .draining unconsumed corrupt) (empty : before.queue = [])
    (told : events = [] ↔ unconsumed = 0 ∧ corrupt = none) :
    ({ before with reports := before.reports ++ events }.pullTo .drained).Accounted channel := by
  rcases accounted with reported | ⟨_, _, place, due⟩ | owed | whole
  · exact Or.inl (by simp [pullTo, reported])
  · cases draining.symm.trans place
    refine Or.inl fun silent => ?_
    have quiet := told.mp (List.append_eq_nil_iff.mp silent).2
    exact due.elim (fun positive => absurd quiet.1 (Nat.ne_of_gt positive)) fun error => error quiet.2
  · exact Or.inr (Or.inr (Or.inl owed))
  · refine Or.inr (Or.inr (Or.inr ⟨whole.records, fun _ => ?_⟩))
    simp [pullTo, empty]

theorem Accounted.gone (place : before.pull.place = .drained) :
    ({ before with queue := [] }.pullTo .gone).Accounted channel := by
  rcases accounted with told | ⟨_, _, draining, _⟩ | owed | whole
  · exact Or.inl told
  · cases place.symm.trans draining
  · exact Or.inr (Or.inr (Or.inl owed))
  · have records := whole.records
    rw [whole.drained (Or.inl place)] at records
    exact Or.inr (Or.inr (Or.inr ⟨records, fun _ => rfl⟩))

theorem Accounted.drop (live : before.pull.place = .live) :
    ({ before with pullDropped := true }.pullTo (.draining 0 none)).Accounted channel := by
  rcases accounted with told | ⟨_, _, draining, _⟩ | owed | whole
  · exact Or.inl told
  · cases live.symm.trans draining
  · exact Or.inr (Or.inr (Or.inl ⟨owed.1, rfl⟩))
  · refine Or.inr (Or.inr (Or.inr ⟨whole.records, fun place => ?_⟩))
    rcases place with drained | gone
    · cases drained
    · cases gone

theorem Accounted.effect (flagged : before.Flagged) (effect : Effect channel before after) :
    after.Accounted channel := by
  cases effect with
  | receive bytes receiving =>
    refine accounted.bridge id rfl (fun owed => ?_) fun _ whole => Or.inr ⟨?_, whole.drained⟩
    · cases receiving.symm.trans owed.1
    · have records := whole.records
      simp_all [bridgeTo, BridgePlace.hand]
  | examine bytes unseen delivering opened =>
    refine accounted.bridge id rfl (fun owed => ?_) fun _ whole => Or.inr ⟨?_, whole.drained⟩
    · cases delivering.symm.trans owed.1
    · have records := whole.records
      rw [delivering] at records
      exact records
  | exit receiving =>
    refine accounted.bridge id rfl (fun owed => ?_) fun _ whole => Or.inr ⟨?_, whole.drained⟩
    · cases receiving.symm.trans owed.1
    · have records := whole.records
      rw [receiving] at records
      exact records
  | handOver bytes unseen sending present => exact accounted.handOver flagged sending
  | settle settled => exact accounted.settle settled
  | give bytes rest envelope inUse first decoded => exact accounted.give inUse first decoded
  | exhaust rest inUse first => exact accounted.exhaust first
  | drop live => exact accounted.drop live
  | discard bytes rest unconsumed more corrupt noted draining first kept counted =>
    exact accounted.discard draining first kept counted
  | drained unconsumed corrupt events draining empty told kinds => exact accounted.drained draining empty told
  | gone drained => exact accounted.gone drained
  | tell | ended | fail => exact Or.inl (by simp [bridgeTo, report])
  | disconnect | drain | closeEarly =>
    exact accounted.imp_right fun later => later.imp_right fun later => later.imp_right fun whole => { whole with }

end Accounted

/-- The frames have been returned. -/
def Returned (channel : DataChannel T D) (inbound : Inbound T D) (frames : List (List UInt8)) : Prop :=
  frames.map channel.decode = inbound.pull.returned.map fun envelope => .ok (some envelope)

/-- The pull end returns a prefix of what the bridge received, and it is exhausted by the sentinel behind it. -/
structure Prefixed (channel : DataChannel T D) (inbound : Inbound T D) : Prop where
  inUse : inbound.InUse → ∃ front tail, inbound.delivered = front ++ inbound.queue ++ tail ∧
    inbound.Returned channel front ∧
    (inbound.bridge.closed = false ∨ (∃ bytes unseen, inbound.bridge.place = .sending bytes unseen) →
      tail = inbound.bridge.place.hand)
  exhausted : inbound.pull.exhausted = true → ∃ front tail, inbound.delivered = front ++ encodeClose :: tail ∧
    inbound.Returned channel front

section Prefixed

variable {before after : Inbound T D} (prefixed : before.Prefixed channel)

include prefixed

/-- The bridge changes what it holds and what it has sent. -/
theorem Prefixed.bridge (pull : after.pull = before.pull) {more : List (List UInt8)}
    (delivered : after.delivered = before.delivered ++ more)
    (tails : before.InUse → ∀ tail,
      (before.bridge.closed = false ∨ (∃ bytes unseen, before.bridge.place = .sending bytes unseen) →
        tail = before.bridge.place.hand) →
      ∃ rest, before.queue ++ (tail ++ more) = after.queue ++ rest ∧
        (after.bridge.closed = false ∨ (∃ bytes unseen, after.bridge.place = .sending bytes unseen) →
          rest = after.bridge.place.hand)) : after.Prefixed channel := by
  refine ⟨fun inUse => ?_, fun exhausted => ?_⟩
  · have usable : before.InUse := by
      obtain ⟨live, unexhausted, unfailed⟩ := inUse
      rw [pull] at live unexhausted unfailed
      exact ⟨live, unexhausted, unfailed⟩
    obtain ⟨front, tail, split, returned, held⟩ := prefixed.inUse usable
    obtain ⟨rest, same, holds⟩ := tails usable tail held
    refine ⟨front, rest, ?_, by rw [Returned, pull]; exact returned, holds⟩
    rw [delivered, split, List.append_assoc, List.append_assoc, same, List.append_assoc]
  · rw [pull] at exhausted
    obtain ⟨front, tail, split, returned⟩ := prefixed.exhausted exhausted
    refine ⟨front, tail ++ more, ?_, by rw [Returned, pull]; exact returned⟩
    rw [delivered, split, List.append_assoc, List.cons_append]

/-- The bridge keeps its frame, or it has none before and after. -/
theorem Prefixed.keep (pull : after.pull = before.pull) (delivered : after.delivered = before.delivered)
    (queue : after.queue = before.queue)
    (kept : before.InUse →
      after.bridge.closed = false ∨ (∃ bytes unseen, after.bridge.place = .sending bytes unseen) →
      (before.bridge.closed = false ∨ ∃ bytes unseen, before.bridge.place = .sending bytes unseen) ∧
        after.bridge.place.hand = before.bridge.place.hand) : after.Prefixed channel := by
  refine prefixed.bridge pull (delivered.trans (List.append_nil _).symm) fun usable tail held => ⟨tail, ?_, fun still => ?_⟩
  · rw [queue, List.append_nil]
  · obtain ⟨known, same⟩ := kept usable still
    rw [held known, same]

/-- The pull end is no longer in use. -/
theorem Prefixed.stop (unused : ¬ after.InUse) (exhausted : after.pull.exhausted = before.pull.exhausted)
    (returned : after.pull.returned = before.pull.returned) (delivered : after.delivered = before.delivered) :
    after.Prefixed channel := by
  refine ⟨fun inUse => absurd inUse unused, ?_⟩
  rw [exhausted, delivered]
  simpa only [Returned, returned] using prefixed.exhausted

theorem Prefixed.give {bytes : List UInt8} {envelope : Envelope T D}
    (inUse : before.InUse) (first : before.queue = bytes :: rest) (decoded : channel.decode bytes = .ok (some envelope)) :
    { before with
      queue := rest
      pull := { before.pull with returned := before.pull.returned ++ [envelope] } }.Prefixed channel := by
  obtain ⟨front, tail, split, returned, held⟩ := prefixed.inUse inUse
  refine ⟨fun _ => ⟨front ++ [bytes], tail, ?_, ?_, held⟩, fun exhausted => ?_⟩
  · simp [split, first]
  · have same : front.map channel.decode = before.pull.returned.map fun envelope => .ok (some envelope) := returned
    simp [Returned, same, decoded]
  · exact absurd exhausted (by simp [inUse.unexhausted])

theorem Prefixed.exhaust (inUse : before.InUse) (first : before.queue = encodeClose :: rest) :
    { before with queue := rest, pull := { before.pull with exhausted := true } }.Prefixed channel := by
  obtain ⟨front, tail, split, returned, _⟩ := prefixed.inUse inUse
  refine ⟨fun later => ?_, fun _ => ⟨front, rest ++ tail, ?_, returned⟩⟩
  · cases later.unexhausted
  · simp [split, first]

theorem Prefixed.effect (effect : Effect channel before after) : after.Prefixed channel := by
  cases effect with
  | receive bytes receiving =>
    refine prefixed.bridge rfl rfl fun _ tail held => ⟨tail ++ [bytes], rfl, fun still => ?_⟩
    have opened : before.bridge.closed = false := by simpa [bridgeTo] using still
    rw [held (Or.inl opened), receiving]
    rfl
  | examine bytes unseen delivering opened =>
    refine prefixed.keep rfl rfl rfl fun _ _ => ⟨Or.inl opened, ?_⟩
    rw [delivering]
    rfl
  | handOver bytes unseen sending present =>
    refine prefixed.bridge rfl (List.append_nil _).symm fun _ tail held => ⟨[], ?_, fun _ => rfl⟩
    rw [held (Or.inr ⟨bytes, unseen, sending⟩), sending]
    simp [bridgeTo, BridgePlace.hand]
  | settle settled =>
    refine prefixed.keep rfl rfl rfl fun usable still => ?_
    have opened : before.bridge.closed = false := by simpa [bridgeTo] using still
    refine ⟨Or.inl opened, (List.eq_nil_iff_forall_not_mem.mpr fun bytes member => ?_).symm⟩
    rcases settled.behind bytes member with ⟨_, closed⟩ | gone
    · exact Bool.noConfusion (opened.symm.trans closed)
    · cases usable.live.symm.trans gone
  | exit receiving =>
    refine prefixed.keep rfl rfl rfl fun _ still => ⟨Or.inl (by simpa [bridgeTo] using still), ?_⟩
    rw [receiving]
    rfl
  | ended receiving opened =>
    refine prefixed.keep rfl rfl rfl fun _ _ => ⟨Or.inl opened, ?_⟩
    rw [receiving]
    rfl
  | give bytes rest envelope inUse first decoded => exact prefixed.give inUse first decoded
  | exhaust rest inUse first => exact prefixed.exhaust inUse first
  | fail | closeEarly => exact prefixed.stop (fun inUse => Bool.noConfusion inUse.unfailed) rfl rfl rfl
  | drop | discard | drained | gone => exact prefixed.stop (fun inUse => PullPlace.noConfusion inUse.live) rfl rfl rfl
  | tell | disconnect | drain => exact prefixed.keep rfl rfl rfl fun _ still => ⟨still, rfl⟩

end Prefixed

/-- Every frame decodes, nothing follows the sentinel, and the pull end is dropped only after it is exhausted. -/
structure Orderly (channel : DataChannel T D) (inbound : Inbound T D) : Prop where
  valid : ∀ bytes ∈ inbound.delivered, channel.validate bytes = true
  ending : ∀ earlier later, inbound.delivered = earlier ++ encodeClose :: later → later = []
  exhausted : inbound.pullDropped = true → inbound.pull.exhausted = true

/-- Nothing was reported, unless the channel ended without its sentinel. -/
structure Quiet (inbound : Inbound T D) : Prop where
  reports : inbound.reports = [] ∨ (inbound.bridge.place = .exited ∧ inbound.bridge.closed = false)
  draining : ∀ unconsumed corrupt, inbound.pull.place = .draining unconsumed corrupt → unconsumed = 0 ∧ corrupt = none

theorem Effect.delivered {before after : Inbound T D} (effect : Effect channel before after) :
    ∃ more, after.delivered = before.delivered ++ more := by
  cases effect with
  | receive bytes receiving => exact ⟨[bytes], rfl⟩
  | _ => exact ⟨[], (List.append_nil _).symm⟩

/-- A dropped pull end is not exhausted later. -/
theorem Effect.exhausted {before after : Inbound T D} (effect : Effect channel before after) (flagged : before.Flagged)
    (dropped : before.pullDropped = true) :
    after.pullDropped = true ∧ after.pull.exhausted = before.pull.exhausted := by
  cases effect with
  | exhaust rest inUse first => exact absurd inUse.live (flagged.dropped.mp dropped)
  | drop live => exact absurd live (flagged.dropped.mp dropped)
  | _ => exact ⟨dropped, rfl⟩

theorem Orderly.before {before after : Inbound T D} (orderly : after.Orderly channel)
    (effect : Effect channel before after) (flagged : before.Flagged) : before.Orderly channel := by
  obtain ⟨more, delivered⟩ := effect.delivered
  refine ⟨fun bytes member => orderly.valid bytes ?_, fun earlier later split => ?_, fun dropped => ?_⟩
  · rw [delivered]
    exact List.mem_append_left _ member
  · have whole : after.delivered = earlier ++ encodeClose :: (later ++ more) := by
      rw [delivered, split, List.append_assoc, List.cons_append]
    exact (List.append_eq_nil_iff.mp (orderly.ending _ _ whole)).1
  · obtain ⟨still, same⟩ := effect.exhausted flagged dropped
    rw [← same]
    exact orderly.exhausted still

section Quiet

variable {before after : Inbound T D} (orderly : before.Orderly channel) (flagged : before.Flagged)
  (closing : before.Closing)

include orderly closing

theorem Orderly.no_cause (flagged : before.Flagged) : ¬ before.Cause channel := by
  intro cause
  cases cause with
  | follows bytes delivering closed =>
    obtain ⟨earlier, later, split, more⟩ := closing.closed closed
    exact more bytes delivering (orderly.ending earlier later split)
  | undecodable bytes hand invalid =>
    obtain ⟨earlier, split⟩ := closing.hand
    have valid := orderly.valid bytes (by rw [split]; exact List.mem_append_right _ hand)
    exact Bool.noConfusion (invalid.symm.trans valid)
  | late bytes unseen sending records gone =>
    have dropped := flagged.dropped.mpr (by rw [gone]; exact PullPlace.noConfusion)
    exact (closing.sentinel (Or.inr (orderly.exhausted dropped))).2 bytes unseen sending
  | racing sent dropped =>
    exact closing.sent (closing.sentinel (Or.inr (orderly.exhausted dropped))).1 sent

theorem Orderly.queue_empty (dropped : before.pullDropped = true) : before.queue = [] :=
  closing.drained (orderly.exhausted dropped)

include flagged

theorem Quiet.effect (quiet : before.Quiet) (prefixed : before.Prefixed channel)
    (effect : Effect channel before after) : after.Quiet := by
  have silent : before.bridge.place ≠ .exited → before.reports = [] := fun running =>
    quiet.reports.resolve_right fun ended => running ended.1
  cases effect with
  | tell event reported corruptReported cause kind => exact absurd cause (orderly.no_cause closing flagged)
  | receive bytes receiving => exact ⟨Or.inl (silent (by simp [receiving])), quiet.draining⟩
  | settle settled => exact ⟨Or.inl (silent settled.running), quiet.draining⟩
  | examine bytes unseen delivering opened => exact ⟨Or.inl (silent (by simp [delivering])), quiet.draining⟩
  | handOver bytes unseen sending present => exact ⟨Or.inl (silent (by simp [sending])), quiet.draining⟩
  | exit receiving => exact ⟨Or.inl (silent (by simp [receiving])), quiet.draining⟩
  | ended receiving opened => exact ⟨Or.inr ⟨rfl, opened⟩, quiet.draining⟩
  | fail bytes rest failure inUse first invalid =>
    obtain ⟨front, tail, split, _⟩ := prefixed.inUse inUse
    have valid := orderly.valid bytes (by simp [split, first])
    exact Bool.noConfusion (invalid.symm.trans valid)
  | discard bytes rest unconsumed more corrupt noted draining first kept counted =>
    have dropped := flagged.dropped.mpr (by rw [draining]; exact PullPlace.noConfusion)
    cases first.symm.trans (orderly.queue_empty closing dropped)
  | drained unconsumed corrupt events draining empty told kinds =>
    have quietly := told.mpr (quiet.draining unconsumed corrupt draining)
    refine ⟨?_, fun _ _ => PullPlace.noConfusion⟩
    simpa [pullTo, quietly] using quiet.reports
  | drop live =>
    refine ⟨quiet.reports, fun unconsumed corrupt place => ?_⟩
    cases place
    exact ⟨rfl, rfl⟩
  | gone drained => exact ⟨quiet.reports, fun _ _ => PullPlace.noConfusion⟩
  | disconnect | drain | give | exhaust | closeEarly => exact ⟨quiet.reports, quiet.draining⟩

end Quiet

theorem Effect.kinds {before after : Inbound T D} (effect : Effect channel before after)
    (kinds : ∀ event ∈ before.reports, Report event) : ∀ event ∈ after.reports, Report event := by
  cases effect with
  | tell event reported corruptReported cause kind =>
    exact List.forall_mem_append.mpr ⟨kinds, List.forall_mem_singleton.mpr kind⟩
  | ended | fail => exact List.forall_mem_append.mpr ⟨kinds, List.forall_mem_singleton.mpr (.ended _)⟩
  | drained unconsumed corrupt events draining empty told more => exact List.forall_mem_append.mpr ⟨kinds, more⟩
  | _ => exact kinds

/-- What holds in every interleaving. -/
structure Invariant (channel : DataChannel T D) (inbound : Inbound T D) : Prop where
  flagged : inbound.Flagged
  closing : inbound.Closing
  accounted : inbound.Accounted channel
  prefixed : inbound.Prefixed channel
  quiet : inbound.Orderly channel → inbound.Quiet
  kinds : ∀ event ∈ inbound.reports, Report event

theorem new_invariant : (new : Inbound T D).Invariant channel where
  flagged := ⟨by simp [new], by simp [new], by simp [new]⟩
  closing := ⟨⟨[], rfl⟩, by simp [new], by simp [new], by simp [new], by simp [new], by simp [new], by simp [new]⟩
  accounted := Or.inr (Or.inr (Or.inr ⟨rfl, fun _ => rfl⟩))
  prefixed := ⟨fun _ => ⟨[], [], rfl, rfl, fun _ => rfl⟩, by simp [new]⟩
  quiet _ := ⟨Or.inl rfl, by simp [new]⟩
  kinds := nofun

theorem Invariant.effect {before after : Inbound T D} (invariant : before.Invariant channel)
    (effect : Effect channel before after) : after.Invariant channel where
  flagged := invariant.flagged.effect effect
  closing := invariant.closing.effect effect
  accounted := invariant.accounted.effect invariant.flagged effect
  prefixed := invariant.prefixed.effect effect
  quiet orderly := by
    have earlier := orderly.before effect invariant.flagged
    exact (invariant.quiet earlier).effect earlier invariant.flagged invariant.closing invariant.prefixed effect
  kinds := effect.kinds invariant.kinds

theorem Invariant.effects {before after : Inbound T D} (invariant : before.Invariant channel)
    (effects : Effects channel before after) : after.Invariant channel := by
  induction effects with
  | refl => exact invariant
  | tail _ last ih => exact ih.effect last

/-- The bridge has exited without a sentinel, and the operator has not dropped its pull end. -/
def CutOff (inbound : Inbound T D) : Prop :=
  inbound.pullDropped = false ∧ inbound.bridge.closed = false ∧ inbound.bridge.place = .exited

variable {inbound : Inbound T D}

section

variable (invariant : inbound.Invariant channel)

include invariant

theorem Invariant.run (moves : List Move) :
    (inbound.run channel moves).Invariant channel :=
  List.foldlRecOn moves (step channel) invariant fun _ holds move _ =>
    holds.effects (step_effects holds.flagged move)

/-- Once both ends are gone, every record was returned or something was reported. -/
theorem Invariant.returned_or_reported (exited : inbound.bridge.place = .exited) (gone : inbound.pull.place = .gone) :
    (∃ event ∈ inbound.reports, Report event) ∨
      channel.recordsOf inbound.delivered = DataChannel.recordsIn inbound.pull.returned := by
  rcases invariant.accounted with told | ⟨_, _, draining, _⟩ | owed | whole
  · obtain ⟨event, reported⟩ := List.exists_mem_of_ne_nil _ told
    exact Or.inl ⟨event, reported, invariant.kinds event reported⟩
  · cases gone.symm.trans draining
  · cases exited.symm.trans owed.1
  · have records := whole.records
    rw [whole.drained (Or.inr gone), exited] at records
    exact Or.inr (by simpa [BridgePlace.hand] using records)

/-- Nothing is reported in an orderly run whose channel was not cut off. -/
theorem Invariant.silent (orderly : inbound.Orderly channel) (whole : ¬inbound.CutOff) : inbound.reports = [] := by
  refine (invariant.quiet orderly).reports.resolve_right fun ended => ?_
  cases dropped : inbound.pullDropped with
  | false => exact whole ⟨dropped, ended.2, ended.1⟩
  | true =>
    have closed := (invariant.closing.sentinel (Or.inr (orderly.exhausted dropped))).1
    exact Bool.noConfusion (ended.2.symm.trans closed)

end

/-- Only a pull that takes the sentinel exhausts the pull end. -/
theorem Effect.exhausts {before after : Inbound T D} (effect : Effect channel before after)
    (unexhausted : before.pull.exhausted = false) (exhausted : after.pull.exhausted = true) :
    before.InUse ∧ ∃ rest, before.queue = encodeClose :: rest := by
  cases effect with
  | exhaust rest inUse first => exact ⟨inUse, rest, first⟩
  | _ => exact Bool.noConfusion (unexhausted.symm.trans exhausted)

theorem deliver_pull (inbound : Inbound T D) : (inbound.deliver channel).pull = inbound.pull := by
  grind [deliver, examine, send, recheck, undeliverable, check, lost, reportOnce, report, bridgeTo]

theorem finish_pull (inbound : Inbound T D) : inbound.finish.pull = inbound.pull := by
  grind [finish, report, bridgeTo]

theorem dropPull_exhausted (inbound : Inbound T D) :
    (inbound.dropPull channel).pull.exhausted = inbound.pull.exhausted := by
  unfold dropPull
  split
  · rfl
  · rename_i unconsumed corrupt draining
    split
    · obtain ⟨events, same, _⟩ := reportDrained_eq channel inbound unconsumed corrupt
      rw [same]
      rfl
    · split <;> rfl
  · rfl
  · rfl

/-- The step that exhausts the pull end is a pull that takes the sentinel. -/
theorem step_exhausts {move : Move} (unexhausted : inbound.pull.exhausted = false)
    (exhausted : (inbound.step channel move).pull.exhausted = true) :
    move = .pull ∧ ∃ rest, inbound.queue = encodeClose :: rest := by
  have changed : (inbound.step channel move).pull.exhausted ≠ inbound.pull.exhausted := by
    rw [exhausted, unexhausted]
    exact Bool.noConfusion
  cases move with
  | receive bytes => exact absurd (by unfold step receive; grind [bridgeTo]) changed
  | deliver => exact absurd (congrArg _ (deliver_pull inbound)) changed
  | drain => exact absurd (by unfold step drain; grind) changed
  | finish => exact absurd (congrArg _ (finish_pull inbound)) changed
  | drop => exact absurd (dropPull_exhausted inbound) changed
  | pull =>
    rcases pullFrame_effect channel inbound with same | effect
    · exact absurd (congrArg (fun next : Inbound T D => next.pull.exhausted) same) changed
    · exact ⟨rfl, (effect.exhausts unexhausted exhausted).2⟩

/-- In every interleaving, once both ends are gone every record was returned or something was reported, only the
sentinel exhausts the pull end, which has then returned every frame before it, and an orderly run that is not cut off
reports nothing. -/
theorem run_records_returned (channel : DataChannel T D) (moves : List Move) :
    let inbound := (new : Inbound T D).run channel moves
    (inbound.bridge.place = .exited → inbound.pull.place = .gone →
      (∃ event ∈ inbound.reports, Report event) ∨
        channel.recordsOf inbound.delivered = DataChannel.recordsIn inbound.pull.returned) ∧
    (∀ move, inbound.pull.exhausted = false → (inbound.step channel move).pull.exhausted = true →
      move = .pull ∧ ∃ rest, inbound.queue = encodeClose :: rest) ∧
    (inbound.pull.exhausted = true → ∃ front tail, inbound.delivered = front ++ encodeClose :: tail ∧
      front.map channel.decode = inbound.pull.returned.map fun envelope => .ok (some envelope)) ∧
    (inbound.Orderly channel → ¬inbound.CutOff → inbound.reports = []) := by
  intro inbound
  have invariant : inbound.Invariant channel := new_invariant.run moves
  exact ⟨invariant.returned_or_reported, fun _ => step_exhausts, invariant.prefixed.exhausted, invariant.silent⟩

/-- Where the peer sent the frames of envelopes and then the sentinel, an exhausted pull end has returned the envelopes in
order, in every interleaving. -/
theorem run_returns_sent (channel : DataChannel T D) (timeLawful : channel.timeCodec.Lawful)
    (dataLawful : channel.dataCodec.Lawful) {envelopes : List (Envelope T D)} {frames : List (List UInt8)}
    (sent : List.Forall₂ (fun envelope bytes => envelope.Fits ∧
      encodeEnvelope channel.timeCodec channel.dataCodec envelope = .ok bytes) envelopes frames) (moves : List Move)
    (arrived : (run channel new moves).delivered <+: frames ++ [encodeClose])
    (exhausted : (run channel new moves).pull.exhausted = true) :
    (run channel new moves).pull.returned = envelopes := by
  have decoded : frames.map channel.decode = envelopes.map fun envelope => .ok (some envelope) := by
    clear arrived
    induction sent with
    | nil => rfl
    | cons one _ ih =>
      rw [List.map_cons, List.map_cons, ih]
      exact congrArg (· :: _) (decodeEnvelope_exactly channel.utf8Error timeLawful dataLawful one.1 one.2).exact
  obtain ⟨front, tail, split, returned⟩ := (new_invariant.run moves : Invariant channel _).prefixed.exhausted exhausted
  obtain ⟨late, whole⟩ := arrived
  have close : channel.decode encodeClose = .ok none := (decodeEnvelope_eq_none channel.utf8Error).mpr rfl
  unfold Returned at returned
  -- no envelope decodes to nothing, so both lists end at the first frame that does
  have same := congrArg (fun frames => ((frames.map channel.decode).map fun result => result.toOption.join).takeWhile
    Option.isSome) whole
  apply (Option.some_injective _).list_map
  simpa [split, close, decoded, returned, Except.toOption, List.takeWhile_append_of_pos, Function.comp_def] using same

theorem run_returns_sent_two :
    let channel : DataChannel (Unsigned 64) (Unsigned 64) := ⟨0, fixedSizeCodec 8, fixedSizeCodec 8, fun _ => ""⟩
    ∃ first second, encodeEnvelope channel.timeCodec channel.dataCodec (.data 3 [7, 8]) = .ok first ∧
      encodeEnvelope channel.timeCodec channel.dataCodec (.watermark 4) = .ok second ∧
      (run channel new [.receive first, .deliver, .deliver, .deliver, .receive second, .deliver, .deliver, .deliver,
        .pull, .receive encodeClose, .deliver, .deliver, .deliver, .pull, .pull]).pull.returned =
        [.data 3 [7, 8], .watermark 4] :=
  ⟨_, _, rfl, rfl, run_returns_sent _ (fixedSizeCodec_lawful 8) (fixedSizeCodec_lawful 8)
    (.cons ⟨by simp [Envelope.Fits], rfl⟩ (.cons ⟨by simp [Envelope.Fits], rfl⟩ .nil)) _ (List.prefix_refl _) rfl⟩

end Inbound

end Instancy
