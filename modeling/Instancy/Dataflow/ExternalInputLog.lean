import Instancy.Dataflow.ExternalInput

namespace Instancy

variable {T D E : Type}

section Specification

variable [TimeOrder T]

namespace InputEvent

/-- The event breaks the protocol at a frontier, which is advanced or still the first one. -/
def Breaks (current : T) (advanced : Bool) : InputEvent T D → Prop
  | .data time _ => advanced = true ∧ ¬ current ≤ time
  | .frontier time => ¬ current ≤ time

instance (current : T) (advanced : Bool) (event : InputEvent T D) : Decidable (event.Breaks current advanced) :=
  match event with
  | .data _ _ => inferInstanceAs (Decidable (_ ∧ _))
  | .frontier _ => inferInstanceAs (Decidable (¬ _))

/-- The error of an event that breaks the protocol. -/
def error (current : T) : InputEvent T D → SourceError T E
  | .data time _ => .inputTimeBeforeFrontier time current
  | .frontier time => .invalidInputFrontier current time

/-- The frontier after an event, and whether it is advanced. -/
def next (current : T) (advanced : Bool) : InputEvent T D → T × Bool
  | .data _ _ => (current, advanced)
  | .frontier time => if time = current then (current, advanced) else (time, true)

/-- The batch that an event emits. -/
def batch : InputEvent T D → Option (T × List D)
  | .data time records => if records.isEmpty then none else some (time, records)
  | .frontier _ => none

end InputEvent

/-- The events up to the first one that breaks the protocol. -/
def cutAtViolation (current : T) (advanced : Bool) : List (InputEvent T D) → List (InputEvent T D)
  | [] => []
  | event :: rest =>
    if event.Breaks current advanced then []
    else event :: cutAtViolation (event.next current advanced).1 (event.next current advanced).2 rest

/-- The frontier after some events. -/
def frontierAfter (current : T) (advanced : Bool) : List (InputEvent T D) → T × Bool
  | [] => (current, advanced)
  | event :: rest => frontierAfter (event.next current advanced).1 (event.next current advanced).2 rest

/-- The time of the last frontier event. -/
def lastFrontier (current : T) : List (InputEvent T D) → T
  | [] => current
  | .data _ _ :: rest => lastFrontier current rest
  | .frontier time :: rest => lastFrontier time rest

theorem frontierAfter_eq_last (current : T) (advanced : Bool) (events : List (InputEvent T D)) :
    (frontierAfter current advanced events).1 = lastFrontier current events := by
  induction events generalizing current advanced with
  | nil => rfl
  | cons event rest ih =>
    cases event with
    | data time records => exact ih current advanced
    | frontier time =>
      rw [frontierAfter, ih, lastFrontier, InputEvent.next]
      split
      · rename_i same
        rw [same]
      · rfl

theorem frontierAfter_append (current : T) (advanced : Bool) (events : List (InputEvent T D))
    (event : InputEvent T D) :
    frontierAfter current advanced (events ++ [event]) =
      event.next (frontierAfter current advanced events).1 (frontierAfter current advanced events).2 := by
  induction events generalizing current advanced with
  | nil => rfl
  | cons first rest ih => exact ih _ _

/-- Events that keep the protocol are a prefix of every cut that begins with them. -/
theorem cutAtViolation_append {current : T} {advanced : Bool} {events : List (InputEvent T D)}
    (kept : cutAtViolation current advanced events = events) (rest : List (InputEvent T D)) :
    cutAtViolation current advanced (events ++ rest) =
      events ++ cutAtViolation (frontierAfter current advanced events).1 (frontierAfter current advanced events).2
        rest := by
  induction events generalizing current advanced with
  | nil => rfl
  | cons event later ih =>
    rw [cutAtViolation] at kept
    split at kept
    · cases kept
    · rename_i keeps
      rw [List.cons_append, cutAtViolation, if_neg keeps, ih (List.cons.inj kept).2, frontierAfter, List.cons_append]

end Specification

/-- The source is in a call. -/
def SourcePlace.inCall : SourcePlace → Bool
  | .receiving _ _ _ | .checking _ _ | .closingGate | .closingReceiver => true
  | .idle | .drainingGate | .drainingReceiver => false

/-- The fields of the log are the same, and so is the capability until the source finishes. -/
structure SameLog (before after : ChannelSource T D E) : Prop where
  applied : after.applied = before.applied
  emitted : after.emitted = before.emitted
  current : after.current = before.current
  advanced : after.frontierAdvanced = before.frontierAdvanced
  violation : after.violation = before.violation
  capability : after.finished = false → before.finished = false ∧ after.capability = before.capability

theorem SameLog.endCall (source : ChannelSource T D E) (result : Except (SourceError T E) Bool) :
    SameLog source (source.endCall result) := ⟨rfl, rfl, rfl, rfl, rfl, fun unfinished => ⟨unfinished, rfl⟩⟩

theorem SameLog.place (source : ChannelSource T D E) (place : SourcePlace) :
    SameLog source { source with place := place } := ⟨rfl, rfl, rfl, rfl, rfl, fun unfinished => ⟨unfinished, rfl⟩⟩

theorem SameLog.atEnd (source : ChannelSource T D E) (madeProgress : Bool) (inputEnd : InputEnd E) :
    SameLog source (source.atEnd madeProgress inputEnd) := by
  cases inputEnd with
  | ends =>
    rw [ChannelSource.atEnd]
    split
    · exact .endCall source _
    · exact .place source _
  | waits => exact .endCall source _
  | fails error =>
    rw [ChannelSource.atEnd, ChannelSource.fail]
    split
    · exact .endCall source _
    · exact ⟨rfl, rfl, rfl, rfl, rfl, fun unfinished => ⟨unfinished, rfl⟩⟩

variable {rest : List (InputEvent T D)}

section Logged

variable [TimeOrder T]

/-- The source has applied the events that left the queue, except the one that broke the protocol. -/
structure Logged (minimum : T) (enqueued queue : List (InputEvent T D)) (source : ChannelSource T D E) : Prop where
  enqueued : enqueued = source.applied ++ (source.violation.toList ++ queue)
  kept : cutAtViolation minimum false source.applied = source.applied
  frontier : frontierAfter minimum false source.applied = (source.current, source.frontierAdvanced)
  emitted : source.emitted = source.applied.filterMap InputEvent.batch
  capability : source.finished = false → source.capability = some source.current
  violation : ∀ event, source.violation = some event → event.Breaks source.current source.frontierAdvanced ∧
    source.finished = false ∧ source.place.inCall = false ∧
      (source.failed = true ∨ source.failure = some (event.error source.current))

variable {minimum : T} {enqueued queue : List (InputEvent T D)} {source after : ChannelSource T D E}

section

variable (logged : Logged minimum enqueued queue source)
include logged

theorem Logged.no_violation (inCall : source.place.inCall = true) : source.violation = none := by
  cases violation : source.violation with
  | none => rfl
  | some event => exact Bool.noConfusion ((logged.violation event violation).2.2.1.symm.trans inCall)

theorem Logged.keep (same : SameLog source after)
    (violation : ∀ event, source.violation = some event → after.finished = false ∧ after.place.inCall = false ∧
      (after.failed = true ∨ after.failure = some (event.error source.current))) : Logged minimum enqueued queue after := by
  obtain ⟨applied, emitted, current, advanced, violated, capability⟩ := same
  constructor
  · rw [applied, violated]
    exact logged.enqueued
  · rw [applied]
    exact logged.kept
  · rw [applied, current, advanced]
    exact logged.frontier
  · rw [applied, emitted]
    exact logged.emitted
  · intro unfinished
    rw [current, (capability unfinished).2]
    exact logged.capability (capability unfinished).1
  · intro event known
    rw [violated] at known
    rw [current, advanced]
    exact ⟨(logged.violation event known).1, violation event known⟩

/-- A step inside a call keeps the log. -/
theorem Logged.keep_inCall (inCall : source.place.inCall = true)
    (same : SameLog source after) : Logged minimum enqueued queue after := by
  refine logged.keep same fun event known => ?_
  cases (logged.no_violation inCall).symm.trans known

end

theorem Logged.reject {event : InputEvent T D}
    (logged : Logged minimum enqueued (event :: rest) source) (inCall : source.place.inCall = true)
    (unfinished : source.finished = false) (breaks : event.Breaks source.current source.frontierAdvanced)
    (madeProgress : Bool) :
    Logged minimum enqueued rest (source.reject event madeProgress (event.error source.current)) := by
  refine ⟨?_, logged.kept, logged.frontier, logged.emitted, logged.capability, fun other known => ?_⟩
  · have split := logged.enqueued
    rw [logged.no_violation inCall] at split
    exact split
  · obtain rfl : event = other := Option.some.inj known
    exact ⟨breaks, unfinished, rfl, Or.inr rfl⟩

/-- The source applies an event that keeps the protocol. -/
theorem Logged.apply {event : InputEvent T D}
    (logged : Logged minimum enqueued (event :: rest) source) (inCall : source.place.inCall = true)
    (keeps : ¬ event.Breaks source.current source.frontierAdvanced) (applied : after.applied = source.applied ++ [event])
    (emitted : after.emitted = source.emitted ++ event.batch.toList)
    (frontier : (after.current, after.frontierAdvanced) = event.next source.current source.frontierAdvanced)
    (violation : after.violation = source.violation)
    (capability : after.finished = false → after.capability = some after.current) :
    Logged minimum enqueued rest after := by
  have none := logged.no_violation inCall
  refine ⟨?_, ?_, ?_, ?_, capability, fun other known => ?_⟩
  · have split := logged.enqueued
    rw [none] at split
    rw [applied, violation, none, List.append_assoc]
    exact split
  · rw [applied, cutAtViolation_append logged.kept, logged.frontier, cutAtViolation, if_neg keeps, cutAtViolation]
  · rw [applied, frontierAfter_append, logged.frontier, frontier]
  · rw [applied, emitted, logged.emitted]
    cases emits : event.batch <;> simp [emits]
  · rw [violation, none] at known
    cases known

theorem Logged.takeData {time : T} {records : List D}
    (logged : Logged minimum enqueued (.data time records :: rest) source) (inCall : source.place.inCall = true)
    (unfinished : source.finished = false) (madeProgress : Bool) (dataEvents : Nat) (drainedInputsFinal : Bool) :
    Logged minimum enqueued rest (source.takeData time records madeProgress dataEvents drainedInputsFinal) := by
  unfold ChannelSource.takeData
  split
  · rename_i breaks
    exact logged.reject inCall unfinished breaks madeProgress
  · rename_i keeps
    unfold ChannelSource.pushVec
    split
    · rename_i empty
      exact logged.apply inCall keeps rfl (by simp [ChannelSource.note, InputEvent.batch, empty]) rfl rfl
        logged.capability
    · rename_i filled
      exact logged.apply inCall keeps rfl (by simp [ChannelSource.note, InputEvent.batch, filled]) rfl rfl
        logged.capability

theorem Logged.takeFrontier {time : T}
    (logged : Logged minimum enqueued (.frontier time :: rest) source) (inCall : source.place.inCall = true)
    (unfinished : source.finished = false) (madeProgress : Bool) (dataEvents : Nat) (drainedInputsFinal : Bool) :
    Logged minimum enqueued rest (source.takeFrontier time madeProgress dataEvents drainedInputsFinal) := by
  unfold ChannelSource.takeFrontier
  split
  · rename_i breaks
    exact logged.reject inCall unfinished breaks madeProgress
  · rename_i keeps
    have held := logged.capability unfinished
    have later : source.current ≤ time := not_not.mp keeps
    split
    · rename_i differs
      have lowered : source.downgrade time = .ok { source with capability := some time } := by
        rw [ChannelSource.downgrade, held]
        exact if_pos later
      rw [lowered]
      refine logged.apply inCall keeps rfl (by simp [ChannelSource.note, InputEvent.batch]) ?_ rfl fun _ => rfl
      rw [InputEvent.next, if_neg differs]
      rfl
    · rename_i same
      refine logged.apply inCall keeps rfl (by simp [ChannelSource.note, InputEvent.batch]) ?_ rfl fun _ => held
      rw [InputEvent.next, if_pos (not_not.mp same)]
      rfl

end Logged

namespace ExternalInput

section Log

variable [TimeOrder T] {minimum : T} {input : ExternalInput T D E}

/-- The log of the source agrees with the channel. -/
def Ordered (minimum : T) (input : ExternalInput T D E) : Prop :=
  Logged minimum input.enqueued input.channel.queue input.source

section

variable (ordered : input.Ordered minimum)
include ordered

theorem Ordered.receive
    (drained : input.source.finished = true → input.channel.queue = []) {madeProgress : Bool} {dataEvents : Nat}
    {drainedInputsFinal : Bool} (place : input.source.place = .receiving madeProgress dataEvents drainedInputsFinal)
    (inputEnd : InputEnd E) : (input.receive inputEnd madeProgress dataEvents drainedInputsFinal).Ordered minimum := by
  have inCall : input.source.place.inCall = true := by rw [place]; rfl
  unfold ExternalInput.receive
  dsimp only
  split
  · exact ordered.keep_inCall inCall (.endCall _ _)
  · split
    · rename_i event rest first
      have unfinished : input.source.finished = false := by
        refine Bool.eq_false_iff.mpr fun finished => ?_
        cases first.symm.trans (drained finished)
      have logged : Logged minimum input.enqueued (event :: rest) input.source := first ▸ ordered
      cases event with
      | data time records => exact logged.takeData inCall unfinished _ _ _
      | frontier time => exact logged.takeFrontier inCall unfinished _ _ _
    · split
      · exact ordered.keep_inCall inCall (.atEnd _ _ _)
      · split
        · split
          · exact ordered.keep_inCall inCall (.atEnd _ _ _)
          · exact ordered.keep_inCall inCall (.place _ _)
        · exact ordered.keep_inCall inCall (.endCall _ _)

theorem Ordered.work (drained : input.source.finished = true → input.channel.queue = []) (inputEnd : InputEnd E) :
    (input.work inputEnd).Ordered minimum := by
  unfold ExternalInput.work
  split
  case h_1 => exact ordered
  case h_2 madeProgress dataEvents final place => exact ordered.receive drained place inputEnd
  case h_3 madeProgress dataEvents place =>
    have inCall : input.source.place.inCall = true := by rw [place]; rfl
    split
    · exact ordered.keep_inCall inCall (.place _ _)
    · exact ordered.keep_inCall inCall (.endCall _ _)
  case h_4 place =>
    have inCall : input.source.place.inCall = true := by rw [place]; rfl
    exact ordered.keep_inCall inCall (.place _ _)
  case h_5 place =>
    have inCall : input.source.place.inCall = true := by rw [place]; rfl
    exact ordered.keep_inCall inCall ⟨rfl, rfl, rfl, rfl, rfl, Bool.noConfusion⟩
  case h_6 place =>
    refine Logged.keep ordered (.place _ _) fun event known => ?_
    obtain ⟨_, unfinished, _, failing⟩ := ordered.violation event known
    exact ⟨unfinished, rfl, failing⟩
  case h_7 place =>
    refine Logged.keep ordered (.place _ _) fun event known => ?_
    obtain ⟨_, unfinished, _, failing⟩ := ordered.violation event known
    exact ⟨unfinished, rfl, failing⟩

theorem Ordered.call (producerFailure : Option E) : (input.call producerFailure).Ordered minimum := by
  unfold ExternalInput.call
  dsimp only
  split
  · rename_i ready
    split
    · refine Logged.keep ordered ⟨rfl, rfl, rfl, rfl, rfl, fun unfinished => ⟨unfinished, rfl⟩⟩ fun event known => ?_
      exact ⟨(ordered.violation event known).2.1, rfl, Or.inl rfl⟩
    · rename_i none
      have sound : input.source.violation = Option.none := by
        cases violation : input.source.violation with
        | none => rfl
        | some event =>
          obtain ⟨_, _, _, failed | pending⟩ := ordered.violation event violation
          · simp [failed] at ready
          · cases none.symm.trans pending
      split
      · exact Logged.keep ordered (.endCall _ _) fun event known => nomatch sound.symm.trans known
      · exact Logged.keep ordered (.place _ _) fun event known => nomatch sound.symm.trans known
  · exact ordered

theorem Ordered.closeExternalInput : input.closeExternalInput.Ordered minimum := by
  unfold ExternalInput.closeExternalInput
  dsimp only
  split
  · exact ordered
  · refine Logged.keep ordered ⟨rfl, rfl, rfl, rfl, rfl, fun unfinished => ⟨unfinished, rfl⟩⟩ fun event known => ?_
    obtain ⟨_, unfinished, _, failing⟩ := ordered.violation event known
    exact ⟨unfinished, rfl, failing⟩

end

end Log

end ExternalInput

end Instancy
