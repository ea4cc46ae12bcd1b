import Instancy.Dataflow.ExternalInputLog

namespace Instancy

variable {T D E : Type}

namespace ExternalInput

/-- What the step of a sender does. -/
inductive SenderEffect (before : ExternalInput T D E) (front : List (InputSender T D)) (sender : InputSender T D)
    (back : List (InputSender T D)) : ExternalInput T D E → Prop
  | start (event : InputEvent T D) (idle : sender.place = .idle) :
      SenderEffect before front sender back
        { before with senders := front ++ ⟨.entering event, before.source.finished⟩ :: back }
  | count (event : InputEvent T D) (entering : sender.place = .entering event) :
      SenderEffect before front sender back
        { before with
          gate := { before.gate with inFlight := before.gate.inFlight + 1 }
          senders := front ++ { sender with place := .counted event } :: back }
  | refuse (event : InputEvent T D) (counted : sender.place = .counted event) :
      SenderEffect before front sender back
        { before with senders := front ++ { sender with place := .refused event } :: back }
  | enter (event : InputEvent T D) (counted : sender.place = .counted event) (opened : before.gate.closed = false) :
      SenderEffect before front sender back
        { before with senders := front ++ { sender with place := .admitted event } :: back }
  | withdraw (event : InputEvent T D) (sendEnd : SendEnd) (admitted : sender.place = .admitted event)
      (unsent : sendEnd ≠ .ok) :
      SenderEffect before front sender back
        { before with senders := front ++ { sender with place := .leaving event sendEnd } :: back }
  | enqueue (event : InputEvent T D) (admitted : sender.place = .admitted event)
      (accepts : before.channel.refuses = false) :
      SenderEffect before front sender back
        { before with
          senders := front ++ { sender with place := .leaving event .ok } :: back
          channel := { before.channel with queue := before.channel.queue ++ [event] }
          enqueued := before.enqueued ++ [event] }
  | leave (event : InputEvent T D) (sendEnd : SendEnd)
      (leaving : sender.place = .leaving event sendEnd ∨
        (sender.place = .refused event ∧ sendEnd = .channelClosed)) :
      SenderEffect before front sender back
        { before with
          gate := { before.gate with inFlight := before.gate.inFlight - 1 }
          senders := front ++ { sender with place := .idle } :: back
          returns := before.returns ++ [⟨event, sender.late, sendEnd⟩] }
  | clone (live : sender.isDropped = false) :
      SenderEffect before front sender back { before with senders := before.senders ++ [⟨.idle, false⟩] }
  | drop (idle : sender.place = .idle) :
      SenderEffect before front sender back
        { before with senders := front ++ { sender with place := .dropped } :: back }
  | none : SenderEffect before front sender back before

theorem set_split {A : Type} {entries : List A} {index : Nat} {entry : A} (found : entries[index]? = some entry) :
    ∃ front back, entries = front ++ entry :: back ∧ ∀ other, entries.set index other = front ++ other :: back := by
  obtain ⟨bound, same⟩ := List.getElem?_eq_some_iff.mp found
  refine ⟨entries.take index, entries.drop (index + 1), ?_, fun other => ?_⟩
  · rw [← same, List.getElem_cons_drop, List.take_append_drop]
  · exact List.set_eq_take_append_cons_drop.trans (if_pos bound)

theorem moveSender_effect {input : ExternalInput T D E} {index : Nat} {sender : InputSender T D}
    (found : input.senders[index]? = some sender) (move : SenderMove T D) :
    ∃ front back, input.senders = front ++ sender :: back ∧
      SenderEffect input front sender back (input.moveSender index sender move) := by
  obtain ⟨front, back, split, update⟩ := set_split found
  refine ⟨front, back, split, ?_⟩
  cases move with
  | start event =>
    unfold moveSender
    dsimp only
    split
    · rename_i idle
      simpa only [setSender, update] using SenderEffect.start event idle
    · exact .none
  | advance =>
    unfold moveSender advance
    dsimp only
    split
    · rename_i event entering
      simpa only [setSender, setGate, update] using SenderEffect.count event entering
    · rename_i event counted
      split
      · simpa only [setSender, update] using SenderEffect.refuse event counted
      · rename_i opened
        simpa only [setSender, update] using SenderEffect.enter event counted (Bool.eq_false_iff.mpr opened)
    · rename_i event refused
      simpa only [leave, setSender, setGate, update] using
        SenderEffect.leave event .channelClosed (Or.inr ⟨refused, rfl⟩)
    · rename_i event admitted
      unfold enqueue
      split
      · simpa only [setSender, update] using
          SenderEffect.withdraw event .channelClosed admitted SendEnd.noConfusion
      · rename_i accepts
        split
        · simpa only [setSender, update] using SenderEffect.enqueue event admitted (Bool.eq_false_iff.mpr accepts)
        · exact .none
    · rename_i event sendEnd leaving
      simpa only [leave, setSender, setGate, update] using SenderEffect.leave event sendEnd (Or.inl leaving)
    · exact .none
    · exact .none
  | abandon =>
    unfold moveSender
    dsimp only
    split
    · rename_i event admitted
      split
      · simpa only [setSender, update] using SenderEffect.withdraw event .abandoned admitted SendEnd.noConfusion
      · exact .none
    · exact .none
  | clone =>
    unfold moveSender
    dsimp only
    split
    · exact .none
    · refine .clone ?_
      cases place : sender.place <;> simp_all [InputSender.isDropped]
  | drop =>
    unfold moveSender
    dsimp only
    split
    · rename_i idle
      simpa only [setSender, update] using SenderEffect.drop idle
    · exact .none

end ExternalInput

/-- The sender is in the gate. -/
def InputSender.inGate (sender : InputSender T D) : Bool :=
  match sender.place with
  | .counted _ | .refused _ | .admitted _ | .leaving _ _ => true
  | .idle | .entering _ | .dropped => false

/-- The sender may still enqueue the event of its call. -/
def InputSender.isAdmitted (sender : InputSender T D) : Bool :=
  match sender.place with
  | .admitted _ => true
  | _ => false

/-- The event of a call that will return ok. -/
def InputSender.accepted (sender : InputSender T D) : Option (InputEvent T D) :=
  match sender.place with
  | .leaving event .ok => some event
  | _ => none

/-- The sender has not passed the gate in its call. -/
def InputSender.isOutside (sender : InputSender T D) : Bool :=
  match sender.place with
  | .admitted _ | .leaving _ _ => false
  | _ => true

/-- The event of a call that returned ok. -/
def SendReturn.accepted (entry : SendReturn T D) : Option (InputEvent T D) :=
  if entry.sendEnd = .ok then some entry.event else none

namespace ExternalInput

section Senders

variable {before after : ExternalInput T D E} {front back : List (InputSender T D)} {sender : InputSender T D}

/-- A sender changes nothing that the source reads, except the events that it enqueues. -/
theorem SenderEffect.frame (effect : SenderEffect before front sender back after) :
    after.source = before.source ∧ after.gate.closed = before.gate.closed ∧
      after.channel.refuses = before.channel.refuses ∧
      ∃ more, after.enqueued = before.enqueued ++ more ∧ after.channel.queue = before.channel.queue ++ more := by
  cases effect with
  | enqueue event admitted accepts => exact ⟨rfl, rfl, rfl, [event], rfl, rfl⟩
  | _ => exact ⟨rfl, rfl, rfl, [], (List.append_nil _).symm, (List.append_nil _).symm⟩

theorem Ordered.sends [TimeOrder T] {minimum : T} (ordered : before.Ordered minimum)
    (effect : SenderEffect before front sender back after) : after.Ordered minimum := by
  obtain ⟨source, _, _, more, enqueued, queue⟩ := effect.frame
  unfold Ordered
  rw [source, enqueued, queue]
  refine { ordered with enqueued := ?_ }
  rw [ordered.enqueued]
  simp only [List.append_assoc]

/-- The gate counts the senders inside, the events of the sends that return ok are those that were enqueued, and a
late send does not pass the gate. -/
structure Admission (input : ExternalInput T D E) : Prop where
  inFlight : input.gate.inFlight = input.senders.countP InputSender.inGate
  accepted : input.enqueued.Perm
    (input.returns.filterMap SendReturn.accepted ++ input.senders.filterMap InputSender.accepted)
  late : ∀ sender ∈ input.senders, sender.late = true → input.source.finished = true ∧ sender.isOutside = true
  returns : ∀ entry ∈ input.returns, entry.late = true → entry.sendEnd = .channelClosed

theorem countP_replace {A : Type} (test : A → Bool) (front back : List A) (entry : A) :
    (front ++ entry :: back).countP test = (front ++ back).countP test + (if test entry then 1 else 0) := by
  rw [List.countP_append, List.countP_cons, List.countP_append, Nat.add_assoc]

theorem filterMap_replace {A B : Type} (part : A → Option B) (front back : List A) (entry : A) :
    ((front ++ entry :: back).filterMap part).Perm ((part entry).toList ++ (front ++ back).filterMap part) := by
  rw [List.filterMap_append, List.filterMap_append]
  cases known : part entry with
  | none => rw [List.filterMap_cons_none known, Option.toList_none, List.nil_append]
  | some value => rw [List.filterMap_cons_some known]; exact List.perm_middle

section Sends

variable (admission : before.Admission) (split : before.senders = front ++ sender :: back)
  (effect : SenderEffect before front sender back after)

include admission split effect

theorem Admission.inFlight_sends : after.gate.inFlight = after.senders.countP InputSender.inGate := by
  have counted := admission.inFlight
  have replace := countP_replace InputSender.inGate front back
  rw [split, replace] at counted
  cases effect with
  | clone live =>
    rw [split, List.countP_append, replace]
    exact counted
  | none => rw [split, replace, counted]
  | leave event sendEnd leaving =>
    rw [replace]
    rcases leaving with place | ⟨place, _⟩ <;> simp only [InputSender.inGate, place] at counted ⊢ <;> grind
  | start event place | count event place | refuse event place | enter event place | withdraw event _ place
  | enqueue event place | drop place =>
    rw [replace]
    simp only [InputSender.inGate, place] at counted ⊢
    grind

theorem Admission.accepted_sends : after.enqueued.Perm
    (after.returns.filterMap SendReturn.accepted ++ after.senders.filterMap InputSender.accepted) := by
  have accepted := admission.accepted
  rw [split] at accepted
  have others := accepted.trans (List.Perm.append_left _ (filterMap_replace _ _ _ _))
  -- The new entry of the sender adds to the others what its call will return.
  have replace : ∀ {next : InputSender T D}, next.accepted = sender.accepted → before.enqueued.Perm
      (before.returns.filterMap SendReturn.accepted ++ (front ++ next :: back).filterMap InputSender.accepted) := by
    intro next same
    refine others.trans (List.Perm.append_left _ ?_)
    rw [← same]
    exact (filterMap_replace _ _ _ _).symm
  cases effect with
  | start event place | count event place | refuse event place | enter event place | drop place =>
    exact replace (by simp [InputSender.accepted, place])
  | withdraw event sendEnd place unsent =>
    refine replace ?_
    cases sendEnd <;> simp_all [InputSender.accepted]
  | enqueue event place accepts =>
    have none : sender.accepted = .none := by simp [InputSender.accepted, place]
    rw [none] at others
    refine (List.Perm.append_right [event] others).trans ?_
    rw [List.append_assoc]
    refine List.Perm.append_left _ (List.perm_append_comm.trans ?_)
    exact (filterMap_replace InputSender.accepted front back { sender with place := .leaving event .ok }).symm
  | leave event sendEnd leaving =>
    have promised : sender.accepted = (SendReturn.mk event sender.late sendEnd).accepted := by
      rcases leaving with place | ⟨place, refused⟩
      · cases sendEnd <;> simp [InputSender.accepted, SendReturn.accepted, place]
      · simp [InputSender.accepted, SendReturn.accepted, place, refused]
    have returned : [SendReturn.mk event sender.late sendEnd].filterMap SendReturn.accepted =
        sender.accepted.toList := by
      rw [promised]
      cases known : (SendReturn.mk event sender.late sendEnd).accepted <;> simp [known]
    have rest := filterMap_replace InputSender.accepted front back { sender with place := .idle }
    change before.enqueued.Perm ((before.returns ++ [_]).filterMap SendReturn.accepted ++
      (front ++ { sender with place := .idle } :: back).filterMap InputSender.accepted)
    rw [List.filterMap_append, returned, List.append_assoc]
    exact others.trans (List.Perm.append_left _ (List.Perm.append_left _ rest.symm))
  | clone live =>
    have fresh : [(⟨.idle, false⟩ : InputSender T D)].filterMap InputSender.accepted = [] := rfl
    rw [split, List.filterMap_append, fresh, List.append_nil]
    exact accepted
  | none => rw [split]; exact accepted

theorem Admission.late_sends (gated : before.source.finished = true → before.gate.closed = true) :
    ∀ other ∈ after.senders, other.late = true → after.source.finished = true ∧ other.isOutside = true := by
  have late := admission.late
  rw [split] at late
  have own := late sender (by simp)
  have replace : ∀ next : InputSender T D,
      (next.late = true → before.source.finished = true ∧ next.isOutside = true) →
      ∀ other ∈ front ++ next :: back, other.late = true →
        before.source.finished = true ∧ other.isOutside = true := by
    intro next new other member
    rcases List.mem_append.mp member with inFront | inBack
    · exact late other (List.mem_append_left _ inFront)
    · rcases List.mem_cons.mp inBack with same | later
      · rw [same]
        exact new
      · exact late other (List.mem_append_right _ (List.mem_cons_of_mem _ later))
  cases effect with
  | start event place => exact replace _ fun finished => ⟨finished, rfl⟩
  | count event place | refuse event place | drop place => exact replace _ fun isLate => ⟨(own isLate).1, rfl⟩
  | leave event sendEnd leaving => exact replace _ fun isLate => ⟨(own isLate).1, rfl⟩
  | enter event place opened =>
    refine replace _ fun isLate => ?_
    exact Bool.noConfusion (opened.symm.trans (gated (own isLate).1))
  | withdraw event sendEnd place unsent =>
    refine replace _ fun isLate => ?_
    have outside := (own isLate).2
    simp [InputSender.isOutside, place] at outside
  | enqueue event place accepts =>
    refine replace _ fun isLate => ?_
    have outside := (own isLate).2
    simp [InputSender.isOutside, place] at outside
  | clone live =>
    intro other member isLate
    rcases List.mem_append.mp member with old | new
    · exact admission.late other old isLate
    · rw [List.mem_singleton.mp new] at isLate
      cases isLate
  | none => exact admission.late

theorem Admission.returns_sends :
    ∀ entry ∈ after.returns, entry.late = true → entry.sendEnd = .channelClosed := by
  cases effect with
  | leave event sendEnd leaving =>
    intro entry member isLate
    rcases List.mem_append.mp member with old | new
    · exact admission.returns entry old isLate
    · rw [List.mem_singleton.mp new] at isLate ⊢
      have outside := (admission.late sender (by simp [split]) isLate).2
      rcases leaving with place | ⟨_, refused⟩
      · simp [InputSender.isOutside, place] at outside
      · exact refused
  | _ => exact admission.returns

theorem Admission.sends (gated : before.source.finished = true → before.gate.closed = true) : after.Admission :=
  ⟨admission.inFlight_sends split effect, admission.accepted_sends split effect,
    admission.late_sends split effect gated, admission.returns_sends split effect⟩

end Sends

/-- No sender can enqueue another event: the gate is closed and empty, every sender is dropped, or the channel refuses
events. -/
def Sealed (input : ExternalInput T D E) : Prop :=
  (input.gate.closed = true ∧ ∀ sender ∈ input.senders, sender.isAdmitted = false) ∨ input.disconnected = true

/-- A sender that passes an empty closed gate does not exist. -/
theorem gate_empty_sends (closed : before.gate.closed = true)
    (empty : ∀ other ∈ before.senders, other.isAdmitted = false) (split : before.senders = front ++ sender :: back)
    (effect : SenderEffect before front sender back after) :
    (∀ other ∈ after.senders, other.isAdmitted = false) ∧ after.enqueued = before.enqueued ∧
      after.channel.queue = before.channel.queue := by
  rw [split] at empty
  have own := empty sender (by simp)
  have replace : ∀ next : InputSender T D, next.isAdmitted = false →
      ∀ other ∈ front ++ next :: back, other.isAdmitted = false := by
    intro next new other member
    rcases List.mem_append.mp member with inFront | inBack
    · exact empty other (List.mem_append_left _ inFront)
    · rcases List.mem_cons.mp inBack with same | later
      · rw [same]
        exact new
      · exact empty other (List.mem_append_right _ (List.mem_cons_of_mem _ later))
  cases effect with
  | start event place | count event place | refuse event place | drop place => exact ⟨replace _ rfl, rfl, rfl⟩
  | leave event sendEnd leaving => exact ⟨replace _ rfl, rfl, rfl⟩
  | enter event place opened => exact Bool.noConfusion (opened.symm.trans closed)
  | withdraw event sendEnd place unsent => simp [InputSender.isAdmitted, place] at own
  | enqueue event place accepts => simp [InputSender.isAdmitted, place] at own
  | clone live =>
    refine ⟨fun other member => ?_, rfl, rfl⟩
    rcases List.mem_append.mp member with old | new
    · exact empty other (split ▸ old)
    · rw [List.mem_singleton.mp new]
      rfl
  | none => exact ⟨split ▸ empty, rfl, rfl⟩

/-- Senders that are all dropped do nothing. -/
theorem dropped_sends (dropped : before.senders.all InputSender.isDropped = true)
    (split : before.senders = front ++ sender :: back) (effect : SenderEffect before front sender back after) :
    after = before := by
  have own : sender.isDropped = true := List.all_eq_true.mp dropped sender (by simp [split])
  cases effect with
  | none => rfl
  | clone live => exact Bool.noConfusion (live.symm.trans own)
  | leave event sendEnd leaving => rcases leaving with place | ⟨place, _⟩ <;> simp [InputSender.isDropped, place] at own
  | start event place | count event place | refuse event place | enter event place | withdraw event _ place
  | enqueue event place | drop place => simp [InputSender.isDropped, place] at own

theorem refuses_sends (refuses : before.channel.refuses = true) (effect : SenderEffect before front sender back after) :
    after.enqueued = before.enqueued ∧ after.channel.queue = before.channel.queue := by
  cases effect with
  | enqueue event place accepts => exact Bool.noConfusion (accepts.symm.trans refuses)
  | _ => exact ⟨rfl, rfl⟩

theorem Sealed.sends (isSealed : before.Sealed) (split : before.senders = front ++ sender :: back)
    (effect : SenderEffect before front sender back after) :
    after.Sealed ∧ after.enqueued = before.enqueued ∧ after.channel.queue = before.channel.queue := by
  obtain ⟨_, closed, refuses, _⟩ := effect.frame
  rcases isSealed with ⟨isClosed, empty⟩ | disconnected
  · obtain ⟨stillEmpty, same⟩ := gate_empty_sends isClosed empty split effect
    exact ⟨Or.inl ⟨closed.trans isClosed, stillEmpty⟩, same⟩
  · rcases Bool.or_eq_true_iff.mp disconnected with dropped | isRefusing
    · rw [dropped_sends dropped split effect]
      exact ⟨Or.inr disconnected, rfl, rfl⟩
    · refine ⟨Or.inr (Bool.or_eq_true_iff.mpr (Or.inr ?_)), refuses_sends isRefusing effect⟩
      rw [refuses, isRefusing]

end Senders

end ExternalInput

end Instancy
