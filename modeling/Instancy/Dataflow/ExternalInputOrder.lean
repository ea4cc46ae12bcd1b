import Instancy.Dataflow.ExternalInputSenders

namespace Instancy

variable {T D E : Type} {event : InputEvent T D}

namespace ExternalInput

/-- Where the source may finish, no sender can enqueue another event, and the queue is empty. -/
structure Sealing (input : ExternalInput T D E) : Prop where
  draining : input.source.externalClosed = true → input.gate.closed = true ∨ input.source.place = .drainingGate
  checking : ∀ madeProgress dataEvents, input.source.place = .checking madeProgress dataEvents →
    input.source.externalClosed = true
  final : ∀ madeProgress dataEvents, input.source.place = .receiving madeProgress dataEvents true → input.Sealed
  ending : input.source.place = .closingGate ∨ input.source.place = .closingReceiver ∨ input.source.finished = true →
    input.Sealed ∧ input.channel.queue = []
  closed : input.source.place = .closingReceiver ∨ input.source.finished = true → input.gate.closed = true

section Sealing

variable {input after : ExternalInput T D E}

theorem refuses_close {channel : InputChannel T D} (refuses : channel.refuses = true) :
    { channel with closed := true }.refuses = true := by
  simp_all [InputChannel.refuses]

/-- The source closes the gate or the channel, or takes events. -/
theorem Sealed.mono (isSealed : input.Sealed) (senders : after.senders = input.senders)
    (gate : input.gate.closed = true → after.gate.closed = true)
    (channel : input.channel.refuses = true → after.channel.refuses = true) : after.Sealed := by
  rcases isSealed with ⟨closed, empty⟩ | disconnected
  · exact Or.inl ⟨gate closed, by rw [senders]; exact empty⟩
  · refine Or.inr (Bool.or_eq_true_iff.mpr ?_)
    rw [senders]
    exact (Bool.or_eq_true_iff.mp disconnected).imp_right channel

theorem Sealing.sends {before : ExternalInput T D E} {front back : List (InputSender T D)} {sender : InputSender T D}
    (sealing : before.Sealing) (split : before.senders = front ++ sender :: back)
    (effect : SenderEffect before front sender back after) : after.Sealing := by
  obtain ⟨source, closed, _, _⟩ := effect.frame
  constructor
  · rw [source, closed]
    exact sealing.draining
  · rw [source]
    exact sealing.checking
  · intro madeProgress dataEvents place
    rw [source] at place
    exact ((sealing.final _ _ place).sends split effect).1
  · intro ending
    rw [source] at ending
    obtain ⟨isSealed, empty⟩ := sealing.ending ending
    obtain ⟨stillSealed, _, queue⟩ := isSealed.sends split effect
    exact ⟨stillSealed, queue.trans empty⟩
  · rw [source, closed]
    exact sealing.closed

section

variable (sealing : input.Sealing)
include sealing

/-- The source goes to another place and does not finish. -/
theorem Sealing.goTo (senders : after.senders = input.senders)
    (gate : input.gate.closed = true → after.gate.closed = true)
    (channel : input.channel.refuses = true → after.channel.refuses = true)
    (queue : input.channel.queue = [] → after.channel.queue = [])
    (finished : after.source.finished = true → input.source.finished = true)
    (draining : after.source.externalClosed = true → after.gate.closed = true ∨ after.source.place = .drainingGate)
    (checking : ∀ madeProgress dataEvents, after.source.place = .checking madeProgress dataEvents →
      after.source.externalClosed = true)
    (final : ∀ madeProgress dataEvents, after.source.place = .receiving madeProgress dataEvents true → after.Sealed)
    (closing : after.source.place = .closingGate ∨ after.source.place = .closingReceiver →
      after.Sealed ∧ after.channel.queue = [])
    (closed : after.source.place = .closingReceiver → after.gate.closed = true) : after.Sealing := by
  refine ⟨draining, checking, final, fun ending => ?_, fun ended => ?_⟩
  · rcases ending with atGate | atReceiver | isFinished
    · exact closing (Or.inl atGate)
    · exact closing (Or.inr atReceiver)
    · obtain ⟨isSealed, empty⟩ := sealing.ending (Or.inr (Or.inr (finished isFinished)))
      exact ⟨isSealed.mono senders gate channel, queue empty⟩
  · rcases ended with atReceiver | isFinished
    · exact closed atReceiver
    · exact gate (sealing.closed (Or.inr (finished isFinished)))

/-- An external input that is closed for a drain has its gate closed, unless the source is just about to close it. -/
theorem Sealing.gate (notDraining : input.source.place ≠ .drainingGate)
    (externalClosed : input.source.externalClosed = true) : input.gate.closed = true :=
  (sealing.draining externalClosed).resolve_right notDraining

/-- The source leaves its call. -/
theorem Sealing.rest {source : ChannelSource T D E} (finished : source.finished = input.source.finished)
    (externalClosed : source.externalClosed = input.source.externalClosed) (place : source.place = .idle)
    (notDraining : input.source.place ≠ .drainingGate) : (input.setSource source).Sealing := by
  refine sealing.goTo rfl id id id (fun isFinished => finished ▸ isFinished)
    (fun isClosed => Or.inl (sealing.gate notDraining (externalClosed ▸ isClosed))) ?_ ?_ ?_ ?_ <;>
    simp [setSource, place]

/-- The source finds nothing more in the channel, and no sender can enqueue another event. -/
theorem Sealing.atEnd (isSealed : input.Sealed) (empty : input.channel.queue = [])
    (notDraining : input.source.place ≠ .drainingGate) (madeProgress : Bool) (inputEnd : InputEnd E) :
    (input.setSource (input.source.atEnd madeProgress inputEnd)).Sealing := by
  cases inputEnd with
  | ends =>
    rw [ChannelSource.atEnd]
    split
    · exact sealing.rest rfl rfl rfl notDraining
    · exact sealing.goTo rfl id id id id (fun isClosed => Or.inl (sealing.gate notDraining isClosed))
        (by simp [setSource]) (by simp [setSource]) (fun _ => ⟨isSealed.mono rfl id id, empty⟩) (by simp [setSource])
  | waits => exact sealing.rest rfl rfl rfl notDraining
  | fails error =>
    rw [ChannelSource.atEnd, ChannelSource.fail]
    split
    · exact sealing.rest rfl rfl rfl notDraining
    · exact sealing.rest rfl rfl rfl notDraining

end

variable {madeProgress drainedInputsFinal : Bool}

/-- The source takes an event and goes on, or leaves its call. -/
theorem Sealing.pop (sealing : input.Sealing) {rest : List (InputEvent T D)}
    (first : input.channel.queue = event :: rest) {dataEvents : Nat}
    (place : input.source.place = .receiving madeProgress dataEvents drainedInputsFinal)
    {source : ChannelSource T D E} (finished : source.finished = input.source.finished)
    (externalClosed : source.externalClosed = input.source.externalClosed)
    (next : source.place = .idle ∨ ∃ count, source.place = .receiving true count drainedInputsFinal) :
    { input with channel := { input.channel with queue := rest }, source := source }.Sealing := by
  have notDraining : input.source.place ≠ .drainingGate := by simp [place]
  refine sealing.goTo rfl id id (fun empty => nomatch first.symm.trans empty) (fun isFinished => finished ▸ isFinished)
    (fun isClosed => Or.inl (sealing.gate notDraining (externalClosed ▸ isClosed))) ?_ ?_ ?_ ?_
  · rcases next with idle | ⟨_, receiving⟩ <;> simp_all
  · intro _ _ final
    rcases next with idle | ⟨_, receiving⟩
    · cases idle.symm.trans final
    · cases receiving.symm.trans final
      exact (sealing.final _ _ place).mono rfl id id
  · rcases next with idle | ⟨_, receiving⟩ <;> simp_all
  · rcases next with idle | ⟨_, receiving⟩ <;> simp_all

theorem Sealing.call (sealing : input.Sealing) (producerFailure : Option E) :
    (input.call producerFailure).Sealing := by
  unfold ExternalInput.call
  dsimp only
  split
  · rename_i ready
    have notDraining : input.source.place ≠ .drainingGate := by simp [ready.1]
    split
    · exact sealing.rest rfl rfl rfl notDraining
    · split
      · exact sealing.rest rfl rfl rfl notDraining
      · exact sealing.goTo rfl id id id id (fun isClosed => Or.inl (sealing.gate notDraining isClosed))
          (by simp [setSource]) (by simp [setSource]) (by simp [setSource]) (by simp [setSource])
  · exact sealing

theorem Sealing.closeExternalInput (sealing : input.Sealing) : input.closeExternalInput.Sealing := by
  unfold ExternalInput.closeExternalInput
  dsimp only
  split
  · exact sealing
  · exact sealing.goTo rfl id id id id (fun _ => Or.inr rfl) (by simp [setSource]) (by simp [setSource])
      (by simp [setSource]) (by simp [setSource])

/-- A gate that counts nobody has nobody inside. -/
theorem Admission.gate_empty (admission : input.Admission) (idle : input.gate.inFlight = 0) :
    ∀ sender ∈ input.senders, sender.isAdmitted = false := by
  intro sender member
  have none := List.countP_eq_zero.mp (admission.inFlight.symm.trans idle) sender member
  cases place : sender.place <;> simp_all [InputSender.inGate, InputSender.isAdmitted]

/-- What the source keeps when it takes an event. -/
structure Goes (drainedInputsFinal : Bool) (source after : ChannelSource T D E) : Prop where
  finished : after.finished = source.finished
  externalClosed : after.externalClosed = source.externalClosed
  place : after.place = .idle ∨ ∃ count, after.place = .receiving true count drainedInputsFinal

variable [TimeOrder T]

theorem takeData_goes (source : ChannelSource T D E) (time : T) (records : List D) (madeProgress : Bool)
    (dataEvents : Nat) (drainedInputsFinal : Bool) :
    Goes drainedInputsFinal source
      (source.takeData time records madeProgress dataEvents drainedInputsFinal) := by
  unfold ChannelSource.takeData ChannelSource.pushVec
  split
  · exact ⟨rfl, rfl, Or.inl rfl⟩
  · split <;> exact ⟨rfl, rfl, Or.inr ⟨_, rfl⟩⟩

theorem takeFrontier_goes (source : ChannelSource T D E) (time : T) (madeProgress : Bool) (dataEvents : Nat)
    (drainedInputsFinal : Bool) :
    Goes drainedInputsFinal source (source.takeFrontier time madeProgress dataEvents drainedInputsFinal) := by
  unfold ChannelSource.takeFrontier ChannelSource.downgrade
  split
  · exact ⟨rfl, rfl, Or.inl rfl⟩
  · split
    · cases source.capability with
      | none => exact ⟨rfl, rfl, Or.inr ⟨_, rfl⟩⟩
      | some held =>
        dsimp only
        by_cases later : held ≤ time
        · rw [if_pos later]
          exact ⟨rfl, rfl, Or.inr ⟨_, rfl⟩⟩
        · rw [if_neg later]
          exact ⟨rfl, rfl, Or.inl rfl⟩
    · exact ⟨rfl, rfl, Or.inr ⟨_, rfl⟩⟩

theorem Sealing.receive (sealing : input.Sealing) {dataEvents : Nat}
    (place : input.source.place = .receiving madeProgress dataEvents drainedInputsFinal)
    (inputEnd : InputEnd E) :
    (input.receive inputEnd madeProgress dataEvents drainedInputsFinal).Sealing := by
  have notDraining : input.source.place ≠ .drainingGate := by
    rw [place]
    exact SourcePlace.noConfusion
  unfold ExternalInput.receive
  dsimp only
  split
  · exact sealing.rest rfl rfl rfl notDraining
  · split
    · rename_i event rest first
      cases event with
      | data time records =>
        have goes := takeData_goes input.source time records madeProgress dataEvents drainedInputsFinal
        exact sealing.pop first place goes.finished goes.externalClosed goes.place
      | frontier time =>
        have goes := takeFrontier_goes input.source time madeProgress dataEvents drainedInputsFinal
        exact sealing.pop first place goes.finished goes.externalClosed goes.place
    · rename_i empty
      split
      · rename_i disconnected
        exact sealing.atEnd (Or.inr disconnected) empty notDraining madeProgress inputEnd
      · split
        · rename_i externalClosed
          split
          · rename_i final
            rw [final] at place
            exact sealing.atEnd (sealing.final _ _ place) empty notDraining madeProgress inputEnd
          · exact sealing.goTo rfl id id id id (fun isClosed => Or.inl (sealing.gate notDraining isClosed))
              (fun _ _ _ => externalClosed) (by simp [setSource]) (by simp [setSource]) (by simp [setSource])
        · exact sealing.rest rfl rfl rfl notDraining

theorem Sealing.work (sealing : input.Sealing) (admission : input.Admission) (inputEnd : InputEnd E) :
    (input.work inputEnd).Sealing := by
  unfold ExternalInput.work
  split
  case h_1 => exact sealing
  case h_2 madeProgress dataEvents final place => exact sealing.receive place inputEnd
  case h_3 madeProgress dataEvents place =>
    have notDraining : input.source.place ≠ .drainingGate := by simp [place]
    have closed := sealing.gate notDraining (sealing.checking _ _ place)
    split
    · rename_i idle
      have isSealed : input.Sealed := Or.inl ⟨closed, admission.gate_empty idle⟩
      exact sealing.goTo rfl id id id id (fun _ => Or.inl closed) (by simp [setSource])
        (fun _ _ _ => isSealed.mono rfl id id) (by simp [setSource]) (by simp [setSource])
    · exact sealing.rest rfl rfl rfl notDraining
  case h_4 place =>
    obtain ⟨isSealed, empty⟩ := sealing.ending (Or.inl place)
    exact sealing.goTo rfl (fun _ => rfl) id id id (fun _ => Or.inl rfl) (by simp [setSource]) (by simp [setSource])
      (fun _ => ⟨isSealed.mono rfl (fun _ => rfl) id, empty⟩) fun _ => rfl
  case h_5 place =>
    obtain ⟨isSealed, empty⟩ := sealing.ending (Or.inr (Or.inl place))
    have closed := sealing.closed (Or.inl place)
    exact ⟨fun _ => Or.inl closed, by simp [ExternalInput.finish, ChannelSource.endCall],
      by simp [ExternalInput.finish, ChannelSource.endCall], fun _ => ⟨isSealed.mono rfl id refuses_close, empty⟩,
      fun _ => closed⟩
  case h_6 place =>
    exact sealing.goTo rfl (fun _ => rfl) id id id (fun _ => Or.inl rfl) (by simp [setSource]) (by simp [setSource])
      (by simp [setSource]) fun _ => rfl
  case h_7 place =>
    have notDraining : input.source.place ≠ .drainingGate := by simp [place]
    exact sealing.goTo rfl id refuses_close id id
      (fun isClosed => Or.inl (sealing.gate notDraining isClosed)) (by simp) (by simp) (by simp) (by simp)

end Sealing

section Source

variable {input after : ExternalInput T D E}

/-- The source does not touch the senders. -/
structure SourceFrame (input after : ExternalInput T D E) : Prop where
  senders : after.senders = input.senders
  inFlight : after.gate.inFlight = input.gate.inFlight
  enqueued : after.enqueued = input.enqueued
  returns : after.returns = input.returns
  finished : input.source.finished = true → after.source.finished = true

theorem SourceFrame.refl (input : ExternalInput T D E) : SourceFrame input input := ⟨rfl, rfl, rfl, rfl, id⟩

theorem SourceFrame.setSource {source : ChannelSource T D E}
    (finished : input.source.finished = true → source.finished = true) : SourceFrame input (input.setSource source) :=
  ⟨rfl, rfl, rfl, rfl, finished⟩

theorem Admission.source (admission : input.Admission) (frame : SourceFrame input after) : after.Admission := by
  obtain ⟨senders, inFlight, enqueued, returns, finished⟩ := frame
  refine ⟨?_, ?_, fun sender member late => ?_, ?_⟩
  · rw [inFlight, senders]
    exact admission.inFlight
  · rw [enqueued, returns, senders]
    exact admission.accepted
  · rw [senders] at member
    exact (admission.late sender member late).imp_left finished
  · rw [returns]
    exact admission.returns

theorem call_frame (input : ExternalInput T D E) (producerFailure : Option E) :
    SourceFrame input (input.call producerFailure) := by
  unfold ExternalInput.call
  dsimp only
  split
  · split
    · exact .setSource id
    · split
      · exact .setSource id
      · exact .setSource id
  · exact .refl input

theorem closeExternalInput_frame (input : ExternalInput T D E) : SourceFrame input input.closeExternalInput := by
  unfold ExternalInput.closeExternalInput
  dsimp only
  split
  · exact .refl input
  · exact .setSource id

theorem atEnd_finished (source : ChannelSource T D E) (madeProgress : Bool) (inputEnd : InputEnd E) :
    (source.atEnd madeProgress inputEnd).finished = source.finished := by
  cases inputEnd with
  | ends =>
    rw [ChannelSource.atEnd]
    split <;> rfl
  | waits => rfl
  | fails error =>
    rw [ChannelSource.atEnd, ChannelSource.fail]
    split <;> rfl

variable [TimeOrder T]

theorem receive_frame (input : ExternalInput T D E) (inputEnd : InputEnd E) (madeProgress : Bool) (dataEvents : Nat)
    (drainedInputsFinal : Bool) :
    SourceFrame input (input.receive inputEnd madeProgress dataEvents drainedInputsFinal) := by
  have ended := atEnd_finished input.source madeProgress inputEnd
  unfold ExternalInput.receive
  dsimp only
  split
  · exact .setSource id
  · split
    · rename_i event rest first
      refine ⟨rfl, rfl, rfl, rfl, fun finished => ?_⟩
      cases event with
      | data time records =>
        exact (takeData_goes input.source time records madeProgress dataEvents drainedInputsFinal).finished.trans finished
      | frontier time =>
        exact (takeFrontier_goes input.source time madeProgress dataEvents drainedInputsFinal).finished.trans finished
    · split
      · exact .setSource ended.trans
      · split
        · split
          · exact .setSource ended.trans
          · exact .setSource id
        · exact .setSource id

theorem work_frame (input : ExternalInput T D E) (inputEnd : InputEnd E) : SourceFrame input (input.work inputEnd) := by
  unfold ExternalInput.work
  split
  case h_1 => exact .refl input
  case h_2 madeProgress dataEvents final place => exact receive_frame input inputEnd _ _ _
  case h_3 madeProgress dataEvents place =>
    split
    · exact .setSource id
    · exact .setSource id
  case h_4 place => exact ⟨rfl, rfl, rfl, rfl, id⟩
  case h_5 place => exact ⟨rfl, rfl, rfl, rfl, fun _ => rfl⟩
  case h_6 place => exact ⟨rfl, rfl, rfl, rfl, id⟩
  case h_7 place => exact ⟨rfl, rfl, rfl, rfl, id⟩

/-- What holds in every interleaving. -/
structure Invariant (minimum : T) (input : ExternalInput T D E) : Prop where
  ordered : input.Ordered minimum
  admission : input.Admission
  sealing : input.Sealing

theorem new_invariant (minimum : T) (mode : ChannelMode) (capacity externalInputsOpen : Nat) :
    (new minimum mode capacity externalInputsOpen : ExternalInput T D E).Invariant minimum where
  ordered := ⟨rfl, rfl, rfl, rfl, fun _ => rfl, fun _ known => nomatch known⟩
  admission := ⟨rfl, List.Perm.refl _, by simp [new], by simp [new]⟩
  sealing := ⟨by simp [new], by simp [new], by simp [new], by simp [new], by simp [new]⟩

variable {minimum : T}

theorem Invariant.finished_empty (invariant : input.Invariant minimum) (finished : input.source.finished = true) :
    input.channel.queue = [] := (invariant.sealing.ending (Or.inr (Or.inr finished))).2

variable {index : Nat} {sender : InputSender T D}

theorem step_sender (found : input.senders[index]? = some sender) (move : SenderMove T D) : input.step
    (.sender index move) = input.moveSender index sender move := by
  simp only [ExternalInput.step, found]

theorem step_no_sender (missing : input.senders[index]? = none) (move : SenderMove T D) :
    input.step (.sender index move) = input := by
  simp only [ExternalInput.step, missing]

section

variable (invariant : input.Invariant minimum)
include invariant

theorem Invariant.step (move : Move T D E) : (input.step move).Invariant minimum := by
  obtain ⟨ordered, admission, sealing⟩ := invariant
  cases move with
  | sender index move =>
    cases found : input.senders[index]? with
    | none =>
      rw [step_no_sender found]
      exact ⟨ordered, admission, sealing⟩
    | some sender =>
      rw [step_sender found]
      obtain ⟨front, back, split, effect⟩ := moveSender_effect found move
      have gated : input.source.finished = true → input.gate.closed = true := fun finished =>
        sealing.closed (Or.inr finished)
      exact ⟨ordered.sends effect, admission.sends split effect gated, sealing.sends split effect⟩
  | call producerFailure =>
    exact ⟨ordered.call producerFailure, admission.source (call_frame input producerFailure),
      sealing.call producerFailure⟩
  | work inputEnd =>
    have drained : input.source.finished = true → input.channel.queue = [] := fun finished =>
      (sealing.ending (Or.inr (Or.inr finished))).2
    exact ⟨ordered.work drained inputEnd, admission.source (work_frame input inputEnd),
      sealing.work admission inputEnd⟩
  | closeExternalInput =>
    exact ⟨ordered.closeExternalInput, admission.source (closeExternalInput_frame input),
      sealing.closeExternalInput⟩

theorem Invariant.run (moves : List (Move T D E)) : (input.run moves).Invariant minimum :=
  List.foldlRecOn moves ExternalInput.step invariant fun _ holds move _ => holds.step move

section

variable (finished : input.source.finished = true)
include finished

/-- Nothing is enqueued after the source has finished. -/
theorem Invariant.step_finished (move : Move T D E) :
    (input.step move).source.finished = true ∧ (input.step move).enqueued = input.enqueued := by
  cases move with
  | sender index move =>
    cases found : input.senders[index]? with
    | none =>
      rw [step_no_sender found]
      exact ⟨finished, rfl⟩
    | some sender =>
      rw [step_sender found]
      obtain ⟨front, back, split, effect⟩ := moveSender_effect found move
      have isSealed := (invariant.sealing.ending (Or.inr (Or.inr finished))).1
      refine ⟨?_, (isSealed.sends split effect).2.1⟩
      rw [effect.frame.1]
      exact finished
  | call producerFailure =>
    have frame := call_frame input producerFailure
    exact ⟨frame.finished finished, frame.enqueued⟩
  | work inputEnd =>
    have frame := work_frame input inputEnd
    exact ⟨frame.finished finished, frame.enqueued⟩
  | closeExternalInput =>
    have frame := closeExternalInput_frame input
    exact ⟨frame.finished finished, frame.enqueued⟩

theorem Invariant.run_finished (moves : List (Move T D E)) :
    (input.run moves).source.finished = true ∧ (input.run moves).enqueued = input.enqueued := by
  induction moves generalizing input with
  | nil => exact ⟨finished, rfl⟩
  | cons move rest ih =>
    obtain ⟨still, same⟩ := invariant.step_finished finished move
    obtain ⟨later, whole⟩ := ih (invariant.step move) still
    exact ⟨later, whole.trans same⟩

/-- A source that has finished has applied every event. -/
theorem Invariant.applied_all : input.source.applied = input.enqueued := by
  have split := invariant.ordered.enqueued
  have none : input.source.violation = Option.none := by
    cases violation : input.source.violation with
    | none => rfl
    | some event =>
      exact Bool.noConfusion ((invariant.ordered.violation event violation).2.1.symm.trans finished)
  rw [none, invariant.finished_empty finished] at split
  simpa using split.symm

end

/-- The events that the source applied are a prefix of the enqueued ones, cut at the first violation. -/
theorem Invariant.applied_prefix : input.source.applied <+: cutAtViolation minimum false input.enqueued := by
  rw [invariant.ordered.enqueued, cutAtViolation_append invariant.ordered.kept]
  exact List.prefix_append _ _

/-- A source that met a violation has applied everything before it. -/
theorem Invariant.applied_cut (violation : input.source.violation = some event) :
    input.source.applied = cutAtViolation minimum false input.enqueued := by
  have breaks := (invariant.ordered.violation event violation).1
  rw [invariant.ordered.enqueued, cutAtViolation_append invariant.ordered.kept, invariant.ordered.frontier, violation]
  simp [cutAtViolation, breaks]

end

/-- The next step of a sender that is known to be at its place. -/
theorem step_at (bound : index < input.senders.length)
    (senders : after.senders = input.senders.set index sender) (move : SenderMove T D) :
    after.step (.sender index move) = after.moveSender index sender move := by
  refine step_sender ?_ move
  rw [senders]
  exact List.getElem?_set_self bound

/-- A send that starts at a closed gate returns, with nothing enqueued. -/
theorem send_refused (found : input.senders[index]? = some sender)
    (idle : sender.place = .idle) (closed : input.gate.closed = true) (event : InputEvent T D) :
    (input.run [.sender index (.start event), .sender index .advance, .sender index .advance,
        .sender index .advance]).returns =
      input.returns ++ [⟨event, input.source.finished, .channelClosed⟩] := by
  obtain ⟨bound, _⟩ := List.getElem?_eq_some_iff.mp found
  have first : input.step (.sender index (.start event)) =
      input.setSender index ⟨.entering event, input.source.finished⟩ := by
    rw [step_sender found]
    simp only [moveSender, idle]
  rw [run, List.foldl_cons, first, List.foldl_cons, step_at bound rfl, List.foldl_cons]
  simp only [moveSender, advance, setSender, setGate]
  rw [step_at bound (List.set_set ..)]
  simp only [moveSender, advance, setSender, closed, if_true, List.foldl_cons, List.foldl_nil]
  rw [step_at bound ((List.set_set ..).trans (List.set_set ..))]
  rfl

/-- The call after a violation fails and applies nothing. -/
theorem Invariant.next_call_fails (invariant : input.Invariant minimum)
    (violation : input.source.violation = some event) (idle : input.source.place = .idle)
    (running : input.source.failed = false) (producerFailure : Option E) :
    (input.step (.call producerFailure)).source.results =
        input.source.results ++ [.error (event.error input.source.current)] ∧
      (input.step (.call producerFailure)).source.failed = true ∧
      (input.step (.call producerFailure)).source.applied = input.source.applied := by
  have failure : input.source.failure = some (event.error input.source.current) := by
    refine (invariant.ordered.violation event violation).2.2.2.resolve_left fun failed => ?_
    exact Bool.noConfusion (running.symm.trans failed)
  simp only [ExternalInput.step, ExternalInput.call, idle, running, failure]
  exact ⟨rfl, rfl, rfl⟩

/-- In every interleaving the source applies the enqueued events in order up to the first violation, its capability is
at the last frontier that it applied, and the call after a violation fails. A source that finishes has applied every
event whose send returns ok, and every later send is refused. -/
theorem run_input_kept (minimum : T) (mode : ChannelMode) (capacity externalInputsOpen : Nat)
    (moves : List (Move T D E)) :
    let input := (new minimum mode capacity externalInputsOpen : ExternalInput T D E).run moves
    (input.enqueued = input.source.applied ++ (input.source.violation.toList ++ input.channel.queue) ∧
      input.source.applied <+: cutAtViolation minimum false input.enqueued ∧
      input.source.emitted = input.source.applied.filterMap InputEvent.batch) ∧
    (input.source.finished = false → input.source.capability = some (lastFrontier minimum input.source.applied)) ∧
    (∀ event, input.source.violation = some event →
      input.source.applied = cutAtViolation minimum false input.enqueued ∧ input.source.finished = false ∧
      ∀ producerFailure, input.source.place = .idle → input.source.failed = false →
        (input.step (.call producerFailure)).source.results =
            input.source.results ++ [.error (event.error input.source.current)] ∧
          (input.step (.call producerFailure)).source.failed = true ∧
          (input.step (.call producerFailure)).source.applied = input.source.applied) ∧
    input.enqueued.Perm
      (input.returns.filterMap SendReturn.accepted ++ input.senders.filterMap InputSender.accepted) ∧
    (input.source.finished = true → input.source.applied = input.enqueued ∧
      (∀ more, (input.run more).enqueued = input.enqueued) ∧
      ∀ index sender event, input.senders[index]? = some sender → sender.place = .idle →
        (input.run [.sender index (.start event), .sender index .advance, .sender index .advance,
          .sender index .advance]).returns = input.returns ++ [⟨event, true, .channelClosed⟩]) ∧
    ∀ entry ∈ input.returns, entry.late = true → entry.sendEnd = .channelClosed := by
  intro input
  have invariant : input.Invariant minimum := (new_invariant minimum mode capacity externalInputsOpen).run moves
  have ordered := invariant.ordered
  refine ⟨⟨ordered.enqueued, invariant.applied_prefix, ordered.emitted⟩, fun unfinished => ?_,
    fun event violation => ⟨invariant.applied_cut violation, (ordered.violation event violation).2.1,
      fun producerFailure idle running => invariant.next_call_fails violation idle running producerFailure⟩,
    invariant.admission.accepted, fun finished => ⟨invariant.applied_all finished,
      fun more => (invariant.run_finished finished more).2, fun index sender event found idle => ?_⟩,
    invariant.admission.returns⟩
  · have last := frontierAfter_eq_last minimum false input.source.applied
    rw [ordered.frontier] at last
    rw [ordered.capability unfinished, ← last]
  · rw [send_refused found idle (invariant.sealing.closed (Or.inr finished)) event, finished]

end Source

end ExternalInput

end Instancy
