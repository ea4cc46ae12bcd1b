import Instancy.Dataflow.Effects

namespace Instancy

open Relation Library

section Answers

variable {T : Type} [TimeOrder T]

namespace Justify

theorem justifies_iff (justify : Justify T) (reporter : ProgressReporter T) (time : T) :
    justify.justifies reporter time = true ↔ justify.consumed.lessEqual time = true ∨ reporter.justifies time = true := by
  unfold justifies
  rw [Bool.or_eq_true]

variable {justify : Justify T} {reporter : ProgressReporter T}

theorem justifies_mono {earlier later : T} (below : earlier ≤ later)
    (justified : justify.justifies reporter earlier = true) : justify.justifies reporter later = true := by
  rw [justifies_iff, ProgressReporter.justifies_iff] at justified ⊢
  rcases justified with consumed | ⟨released, same, covers⟩ | ⟨held, positive, under⟩
  · exact Or.inl (Antichain.lessEqual_mono consumed below)
  · exact Or.inr (Or.inl ⟨released, same, Antichain.lessEqual_mono covers below⟩)
  · exact Or.inr (Or.inr ⟨held, positive, le_trans under below⟩)

/-- A capability acquired at a justified time justifies nothing new. -/
theorem justifies_acquire {time : T} (justified : justify.justifies reporter time = true) (query : T) :
    justify.justifies (reporter.update time 1) query = true ↔ justify.justifies reporter query = true := by
  have released : (reporter.update time 1).releasedInCall = reporter.releasedInCall := rfl
  constructor
  · intro answered
    rw [justifies_iff, ProgressReporter.justifies_iff] at answered
    rcases answered with consumed | remembered | ⟨held, positive, below⟩
    · exact (justifies_iff _ _ _).mpr (Or.inl consumed)
    · exact (justifies_iff _ _ _).mpr (Or.inr ((reporter.justifies_iff query).mpr (Or.inl remembered)))
    · by_cases same : time = held
      · exact justifies_mono (same ▸ below) justified
      · rw [ProgressReporter.update_heldAt, if_neg same, Int.add_zero] at positive
        exact (justifies_iff _ _ _).mpr (Or.inr ((reporter.justifies_iff query).mpr (Or.inr ⟨held, positive, below⟩)))
  · intro answered
    rw [justifies_iff, ProgressReporter.justifies_iff] at answered ⊢
    rcases answered with consumed | remembered | ⟨held, positive, below⟩
    · exact Or.inl consumed
    · exact Or.inr (Or.inl remembered)
    · refine Or.inr (Or.inr ⟨held, ?_, below⟩)
      rw [ProgressReporter.update_heldAt]
      split <;> omega

/-- A capability released in the call justifies what it justified before. -/
theorem justifies_release {time : T}
    (remembers : reporter.releasedInCall.isSome = true) (held : 0 < reporter.heldAt time) (query : T) :
    justify.justifies (reporter.release time) query = true ↔ justify.justifies reporter query = true := by
  obtain ⟨released, isReleased⟩ := Option.isSome_iff_exists.mp remembers
  have after : (reporter.release time).releasedInCall = some (released.insert time).2 := by
    change (if (-1 : Int) < 0 then reporter.releasedInCall.map (fun times => (times.insert time).2)
      else reporter.releasedInCall) = _
    rw [isReleased]
    rfl
  have counts (other : T) : (reporter.release time).heldAt other = reporter.heldAt other + if time = other then -1 else 0 :=
    reporter.update_heldAt time (-1) other
  constructor
  · intro answered
    rw [justifies_iff, ProgressReporter.justifies_iff] at answered ⊢
    rcases answered with consumed | ⟨times, same, covers⟩ | ⟨other, positive, below⟩
    · exact Or.inl consumed
    · rw [after] at same
      cases same
      rcases (released.insert_lessEqual time query).mp covers with before | below
      · exact Or.inr (Or.inl ⟨released, isReleased, before⟩)
      · exact Or.inr (Or.inr ⟨time, held, below⟩)
    · rw [counts] at positive
      refine Or.inr (Or.inr ⟨other, ?_, below⟩)
      split at positive <;> omega
  · intro answered
    rw [justifies_iff, ProgressReporter.justifies_iff] at answered
    rcases answered with consumed | ⟨times, same, covers⟩ | ⟨other, positive, below⟩
    · exact (justifies_iff _ _ _).mpr (Or.inl consumed)
    · cases isReleased.symm.trans same
      apply (justifies_iff _ _ _).mpr
      exact Or.inr ((ProgressReporter.justifies_iff _ query).mpr
        (Or.inl ⟨_, after, (released.insert_lessEqual time query).mpr (Or.inl covers)⟩))
    · apply (justifies_iff _ _ _).mpr
      right
      by_cases same : time = other
      · exact ProgressReporter.release_justifies remembers (same ▸ below)
      · refine (ProgressReporter.justifies_iff _ query).mpr (Or.inr ⟨other, ?_, below⟩)
        rw [counts, if_neg same, Int.add_zero]
        exact positive

end Justify

end Answers

section Steps

variable {I T D : Type}

/-- The times of the batches that the events consume, as times of the outputs. -/
def consumedTimes (attach : I → Option T) (events : List (PortEvent I T D)) : List T :=
  events.filterMap fun event =>
    match event with
    | .consumed _ time _ => attach time
    | _ => none

variable [TimeOrder I] [TimeOrder T]

namespace Ports

/-- The code answers that the time is justified on the output. -/
def answers (ports : Ports I T D) (output : Nat) (time : T) : Prop :=
  ∃ port, ports.outputs[output]? = some port ∧ ports.justify.justifies port.reporter time = true

/-- Some request of the call was refused, and the call will fail for it. -/
def Refused (ports : Ports I T D) : Prop := ports.justify.violation.isSome = true ∨ ports.notify.error.isSome = true

/-- The errors that the requests of the call left behind say that it is unjustified. -/
structure RefusedUnjustified (ports : Ports I T D) : Prop where
  violation : ∀ error, ports.justify.violation = some error → error.IsUnjustified
  notify : ∀ error, ports.notify.error = some error → error.IsUnjustified

/-- What events do to the justification: the answers grow by the consumed times alone, what is acquired is justified,
and what is refused is remembered. -/
structure Answering (attach : I → Option T) (events : List (PortEvent I T D)) (before after : Ports I T D) : Prop where
  logged : after.events = before.events ++ events
  size : after.outputs.length = before.outputs.length
  answers : ∀ output time, after.answers output time ↔ before.answers output time ∨
    output < before.outputs.length ∧ ∃ earlier ∈ consumedTimes attach events, earlier ≤ time
  acquired : ∀ output time, .acquired output time ∈ events → after.answers output time
  refused : (∃ output time, .refused output time ∈ events) → after.Refused
  stays : before.Refused → after.Refused
  unjustified : before.RefusedUnjustified → after.RefusedUnjustified

namespace Answering

variable {attach : I → Option T}

theorem refl (ports : Ports I T D) : Answering attach [] ports ports where
  logged := (List.append_nil _).symm
  size := rfl
  answers output time := by simp [consumedTimes]
  acquired output time member := absurd member List.not_mem_nil
  refused found := by
    obtain ⟨_, _, member⟩ := found
    cases member
  stays := id
  unjustified := id

theorem trans {first second : List (PortEvent I T D)} {before middle after : Ports I T D}
    (one : Answering attach first before middle) (two : Answering attach second middle after) :
    Answering attach (first ++ second) before after where
  logged := by rw [two.logged, one.logged, List.append_assoc]
  size := two.size.trans one.size
  answers output time := by
    rw [two.answers, one.answers, one.size, or_assoc, ← and_or_left]
    have split : consumedTimes attach (first ++ second) = consumedTimes attach first ++ consumedTimes attach second :=
      List.filterMap_append
    simp only [split, List.mem_append, or_and_right, exists_or]
  acquired output time member := by
    rcases List.mem_append.mp member with earlier | later
    · exact (two.answers output time).mpr (Or.inl (one.acquired output time earlier))
    · exact two.acquired output time later
  refused found := by
    obtain ⟨output, time, member⟩ := found
    rcases List.mem_append.mp member with earlier | later
    · exact two.stays (one.refused ⟨output, time, earlier⟩)
    · exact two.refused ⟨output, time, later⟩
  stays refused := two.stays (one.stays refused)
  unjustified errors := two.unjustified (one.unjustified errors)

variable {events : List (PortEvent I T D)}

/-- The requests and the justification stay, and one output answers as before. -/
theorem of_set {ports next : Ports I T D} {index : Nat} {port changed : CountedOutput T D}
    (found : ports.outputs[index]? = some port) (logged : next.events = ports.events ++ events)
    (outputs : next.outputs = ports.outputs.set index changed) (justify : next.justify = ports.justify)
    (notify : next.notify = ports.notify) (silent : consumedTimes attach events = [])
    (same : ∀ query, ports.justify.justifies changed.reporter query = true ↔
      ports.justify.justifies port.reporter query = true)
    (acquired : ∀ output time, .acquired output time ∈ events → ports.answers output time)
    (accepted : ∀ output time, .refused output time ∉ events) : Answering attach events ports next := by
  have answered (output : Nat) (time : T) : next.answers output time ↔ ports.answers output time := by
    unfold Ports.answers
    rw [outputs, justify]
    constructor
    · rintro ⟨other, here, justified⟩
      rw [getElem?_set_of_some found] at here
      split at here
      · rename_i place
        cases here
        exact ⟨port, place ▸ found, (same time).mp justified⟩
      · exact ⟨other, here, justified⟩
    · rintro ⟨other, here, justified⟩
      rw [getElem?_set_of_some found]
      by_cases place : index = output
      · rw [if_pos place]
        subst place
        cases found.symm.trans here
        exact ⟨changed, rfl, (same time).mpr justified⟩
      · rw [if_neg place]
        exact ⟨other, here, justified⟩
  refine ⟨logged, by rw [outputs, List.length_set], fun output time => ?_, fun output time member => ?_, ?_, ?_, ?_⟩
  · rw [answered, silent]
    simp
  · exact (answered output time).mpr (acquired output time member)
  · rintro ⟨output, time, member⟩
    exact absurd member (accepted output time)
  · unfold Refused
    rw [justify, notify]
    exact id
  · intro errors
    exact ⟨justify ▸ errors.violation, notify ▸ errors.notify⟩

/-- The outputs stay, and the call consumes what its events say. -/
theorem of_inputs {ports next : Ports I T D}
    (logged : next.events = ports.events ++ events) (outputs : next.outputs = ports.outputs)
    (violation : next.justify.violation = ports.justify.violation) (notify : next.notify = ports.notify)
    (consumed : ∀ time, next.justify.consumed.lessEqual time = true ↔ ports.justify.consumed.lessEqual time = true ∨
      ∃ earlier ∈ consumedTimes attach events, earlier ≤ time)
    (unchanged : ∀ output time, .acquired output time ∉ events ∧ .refused output time ∉ events) :
    Answering attach events ports next := by
  refine ⟨logged, by rw [outputs], fun output time => ?_, fun output time member => ?_, ?_, ?_, ?_⟩
  · unfold Ports.answers
    rw [outputs]
    simp only [Justify.justifies_iff, consumed]
    constructor
    · rintro ⟨port, found, (old | fresh) | reporter⟩
      · exact Or.inl ⟨port, found, Or.inl old⟩
      · exact Or.inr ⟨(List.getElem?_eq_some_iff.mp found).1, fresh⟩
      · exact Or.inl ⟨port, found, Or.inr reporter⟩
    · rintro (⟨port, found, old | reporter⟩ | ⟨bound, fresh⟩)
      · exact ⟨port, found, Or.inl (Or.inl old)⟩
      · exact ⟨port, found, Or.inr reporter⟩
      · exact ⟨_, List.getElem?_eq_getElem bound, Or.inl (Or.inr fresh)⟩
  · exact absurd member (unchanged output time).1
  · rintro ⟨output, time, member⟩
    exact absurd member (unchanged output time).2
  · unfold Refused
    rw [violation, notify]
    exact id
  · intro errors
    exact ⟨violation ▸ errors.violation, notify ▸ errors.notify⟩

end Answering

theorem Refused.or_some (first : Option RunError) (error : RunError) : (first.or (some error)).isSome = true := by
  cases first <;> rfl

end Ports

theorem RunError.or_unjustified {first : Option RunError} {error : RunError} (unjustified : error.IsUnjustified)
    (old : ∀ e, first = some e → e.IsUnjustified) : ∀ e, first.or (some error) = some e → e.IsUnjustified := by
  intro e chosen
  cases first with
  | none =>
    cases chosen
    exact unjustified
  | some kept => exact old e chosen

/-- Every step of a call keeps the answers exact. -/
theorem PortStep.answering {attach : I → Option T} {ports next : Ports I T D} (inCall : ports.InCall)
    (step : PortStep attach ports next) : ∃ events, Ports.Answering attach events ports next := by
  cases step with
  | consume found popped =>
    rename_i input port batch handle
    refine ⟨_, Ports.Answering.of_inputs rfl rfl ?_ rfl (fun time => ?_) (by simp)⟩
    · unfold Justify.noteConsumed
      split
      · rfl
      · split <;> rfl
    · unfold Justify.noteConsumed
      cases attached : attach batch.1 with
      | none => simp [consumedTimes, attached]
      | some own => simp [consumedTimes, attached, inCall.inCall, Antichain.insert_lessEqual]
  | credit found popped => exact ⟨_, Ports.Answering.of_inputs rfl rfl rfl rfl (by simp [consumedTimes]) (by simp)⟩
  | redeem time count found => exact ⟨_, Ports.Answering.of_inputs rfl rfl rfl rfl (by simp [consumedTimes]) (by simp)⟩
  | emit time records found =>
    exact ⟨_, Ports.Answering.of_set found rfl rfl rfl rfl rfl (fun _ => Iff.rfl) (by simp) (by simp)⟩
  | acquire time found justified =>
    rename_i output port
    refine ⟨_, Ports.Answering.of_set found rfl rfl rfl rfl rfl (Justify.justifies_acquire justified) ?_ (by simp)⟩
    intro other query member
    cases List.mem_singleton.mp member
    exact ⟨port, found, justified⟩
  | release time found held =>
    exact ⟨_, Ports.Answering.of_set found rfl rfl rfl rfl rfl
      (Justify.justifies_release (inCall.remembers_at found) held) (by simp) (by simp)⟩
  | setRetained live found =>
    exact ⟨[], Ports.Answering.of_set found (List.append_nil _).symm rfl rfl rfl rfl (fun _ => Iff.rfl) (by simp)
      (by simp)⟩
  | hold capabilities =>
    have same : Ports.Answering attach [] ports ports := Ports.Answering.refl ports
    exact ⟨[], same.logged, rfl, same.answers, same.acquired, same.refused, same.stays, fun errors =>
      ⟨errors.violation, errors.notify⟩⟩
  | refuseRetain output time error unjustified =>
    refine ⟨[.refused output time], rfl, rfl, by simp [consumedTimes, Ports.answers, Justify.justifies], by simp,
      fun _ => Or.inl (Ports.Refused.or_some _ error), fun _ => Or.inl (Ports.Refused.or_some _ error), fun errors => ?_⟩
    exact ⟨RunError.or_unjustified unjustified errors.violation, errors.notify⟩
  | refuseNotify time error unjustified =>
    refine ⟨[.refused 0 time], rfl, rfl, by simp [consumedTimes, Ports.answers, Justify.justifies], by simp,
      fun _ => Or.inr (Ports.Refused.or_some _ error), fun _ => Or.inr (Ports.Refused.or_some _ error), fun errors => ?_⟩
    exact ⟨errors.violation, RunError.or_unjustified unjustified errors.notify⟩

theorem PortSteps.answering {attach : I → Option T} {ports next : Ports I T D} (inCall : ports.InCall)
    (steps : PortSteps attach ports next) : ∃ events, Ports.Answering attach events ports next := by
  induction steps with
  | refl => exact ⟨[], Ports.Answering.refl ports⟩
  | tail before last ih =>
    obtain ⟨first, one⟩ := ih
    obtain ⟨second, two⟩ := last.answering (inCall.steps before)
    exact ⟨first ++ second, one.trans two⟩

/-- The justification of events that start at the ports: an element at or before the time that is a capability of
the output held then or the time of a batch that the events consume. -/
def Ports.Justified (attach : I → Option T) (ports : Ports I T D) (events : List (PortEvent I T D)) (output : Nat)
    (time : T) : Prop :=
  (∃ port, ports.outputs[output]? = some port ∧ ∃ held, 0 < port.reporter.heldAt held ∧ held ≤ time) ∨
    output < ports.outputs.length ∧ ∃ consumed ∈ consumedTimes attach events, consumed ≤ time

theorem Ports.begin_answers (ports : Ports I T D) (output : Nat) (time : T) :
    ports.begin.answers output time ↔
      ∃ port, ports.outputs[output]? = some port ∧ ∃ held, 0 < port.reporter.heldAt held ∧ held ≤ time := by
  have justifies (port : CountedOutput T D) :
      ports.begin.justify.justifies port.reporter.beginCall time = true ↔
        ∃ held, 0 < port.reporter.heldAt held ∧ held ≤ time := by
    rw [Justify.justifies_iff, ProgressReporter.justifies_iff]
    simp [Ports.begin, ProgressReporter.beginCall, ProgressReporter.heldAt]
  constructor
  · rintro ⟨other, found, justified⟩
    change (ports.outputs.map _)[output]? = _ at found
    rw [List.getElem?_map] at found
    obtain ⟨port, here, same⟩ := Option.map_eq_some_iff.mp found
    subst same
    exact ⟨port, here, (justifies port).mp justified⟩
  · rintro ⟨port, found, held⟩
    refine ⟨{ port with reporter := port.reporter.beginCall }, ?_, (justifies port).mpr held⟩
    change (ports.outputs.map _)[output]? = _
    rw [List.getElem?_map, found]
    rfl

end Steps

section Call

variable {I T D L : Type} [TimeOrder I] [TimeOrder T] [ToString T]

namespace OperatorShell

variable (logic : OperatorLogic I T D L) (shell : OperatorShell I T D L)

/-- Some element at or before the time justifies it on the output in the next call: a capability that the output holds
when the call begins, or the time of a batch that the call consumes. -/
def Justified (output : Nat) (time : T) : Prop :=
  shell.ports.Justified logic.attach (shell.callEvents logic) output time

theorem callLogic_answering :
    Ports.Answering logic.attach (shell.callEvents logic) shell.ports.begin (shell.callLogic logic).2 := by
  obtain ⟨events, answering⟩ := (shell.callLogic_steps logic).answering shell.ports.begin_inCall
  have same : shell.callEvents logic = events := by
    have logged : (shell.callLogic logic).2.events = shell.ports.events ++ events := answering.logged
    rw [callEvents, logged, List.drop_left]
  exact same ▸ answering

/-- What the code answers at the end of a call is exactly the justification of the call. -/
theorem callLogic_answers (output : Nat) (time : T) :
    (shell.callLogic logic).2.answers output time ↔ shell.Justified logic output time := by
  rw [(shell.callLogic_answering logic).answers, Ports.begin_answers]
  have size : shell.ports.begin.outputs.length = shell.ports.outputs.length := List.length_map _
  rw [size]
  rfl

/-- The logic emits at the time on an output of the operator, or it asks for a capability there. -/
def Requests (output : Nat) (time : T) : Prop :=
  output < shell.ports.outputs.length ∧ ((∃ batch ∈ emittedOf output (shell.callEvents logic), batch.1 = time) ∨
    .acquired output time ∈ shell.callEvents logic ∨ .refused output time ∈ shell.callEvents logic)

omit [ToString T] in
theorem callError_error {result : Except RunError Bool} {ports : Ports I T D} {error : RunError}
    (failed : callError logic result ports = .error error) :
    result = .error error ∨
      (∃ did, result = .ok did) ∧ (ports.notify.error = some error ∨ ports.justify.violation = some error) := by
  unfold callError at failed
  cases result with
  | error own =>
    cases failed
    exact Or.inl rfl
  | ok did =>
    refine Or.inr ⟨⟨did, rfl⟩, ?_⟩
    dsimp only at failed
    split at failed
    · rename_i own _ same
      cases failed
      exact Or.inl same
    · rename_i same
      split at failed
      · cases failed
        exact Or.inr same
      · cases failed
    · cases failed

omit [ToString T] in
theorem callError_ok (checks : logic.checksJustification = true) {result : Except RunError Bool} {ports : Ports I T D}
    {did : Bool} (passed : callError logic result ports = .ok did) : result = .ok did ∧ ¬ ports.Refused := by
  unfold callError at passed
  cases result with
  | error own => cases passed
  | ok own =>
    dsimp only at passed
    split at passed
    · cases passed
    · rw [if_pos checks] at passed
      cases passed
    · rename_i notified violated
      cases passed
      exact ⟨rfl, by simp [Ports.Refused, notified, violated]⟩

theorem callLogic_unjustified : (shell.callLogic logic).2.RefusedUnjustified :=
  (shell.callLogic_answering logic).unjustified
    ⟨fun _ impossible => (by cases impossible), fun _ impossible => (by cases impossible)⟩

variable {output : Nat}

section

variable (checks : logic.checksJustification = true)
include checks

/-- Every batch of a session that passes the check is justified. -/
theorem justified_of_session {port : CountedOutput T D}
    (found : (shell.callLogic logic).2.outputs[output]? = some port)
    (fine : port.violates logic.checksJustification (shell.callLogic logic).2.justify = false) :
    ∀ batch ∈ port.handle.buffer, shell.Justified logic output batch.1 := by
  intro batch member
  have passes := List.any_eq_false.mp fine batch member
  rw [checks, Bool.true_and, Bool.not_eq_true, Bool.not_eq_false'] at passes
  exact (shell.callLogic_answers logic output batch.1).mp ⟨port, found, passes⟩

/-- A batch that is emitted without justification fails the check of its session. -/
theorem violates_of_emitted {batch : T × List D}
    (emitted : batch ∈ emittedOf output (shell.callEvents logic)) (unjustified : ¬ shell.Justified logic output batch.1)
    (present : output < shell.ports.outputs.length) : ∃ port ∈ (shell.callLogic logic).2.outputs,
      port.violates logic.checksJustification (shell.callLogic logic).2.justify = true := by
  obtain ⟨port, found, effect⟩ :=
    (shell.callLogic_effect logic).outputs.right_of_left (List.getElem?_eq_getElem present)
  refine ⟨port, List.mem_of_getElem? found, ?_⟩
  by_contra fine
  apply unjustified
  apply shell.justified_of_session logic checks found (Bool.eq_false_iff.mpr fine)
  rw [effect.buffer]
  exact List.mem_append_right _ emitted

/-- An unjustified request is in a session that fails its check, or the call was refused for it. -/
theorem unjustified_request {time : T}
    (requested : shell.Requests logic output time) (unjustified : ¬ shell.Justified logic output time) :
    (∃ port ∈ (shell.callLogic logic).2.outputs,
      port.violates logic.checksJustification (shell.callLogic logic).2.justify = true) ∨
      (shell.callLogic logic).2.Refused := by
  have answering := shell.callLogic_answering logic
  obtain ⟨present, ⟨batch, emitted, same⟩ | acquired | refused⟩ := requested
  · subst same
    exact Or.inl (shell.violates_of_emitted logic checks emitted unjustified present)
  · exact absurd ((shell.callLogic_answers logic output time).mp (answering.acquired output time acquired)) unjustified
  · exact Or.inr (answering.refused ⟨output, time, refused⟩)

end

/-- What a successful call adds to an output. -/
theorem runCall_output {did : Bool} (succeeded : (shell.runCall logic).1 = .ok did)
    {before after : CountedOutput T D} (start : shell.ports.outputs[output]? = some before)
    (ended : (shell.runCall logic).2.ports.outputs[output]? = some after) :
    ∃ port, (shell.callLogic logic).2.outputs[output]? = some port ∧
      port.violates logic.checksJustification (shell.callLogic logic).2.justify = false ∧
      OutputEffect (shell.callEvents logic) output before port ∧
      after = { port.queueSession with reporter := port.reporter.endCall } := by
  rcases shell.runCall_cases logic with ⟨error, _, ran⟩ | ⟨_, _, ⟨error, _, _, _, _, ran⟩ | ⟨fine, ran⟩⟩
  · rw [ran] at succeeded
    cases succeeded
  · rw [ran] at succeeded
    cases succeeded
  · obtain ⟨port, found, effect⟩ := (shell.callLogic_effect logic).outputs.right_of_left start
    refine ⟨port, found, fine port (List.mem_of_getElem? found), effect, ?_⟩
    rw [ran] at ended
    change (((shell.callLogic logic).2.outputs.map CountedOutput.queueSession).map _)[output]? = _ at ended
    rw [List.getElem?_map, List.getElem?_map, found] at ended
    exact (Option.some.inj ended).symm

/-- What a successful call of a checked logic produces and acquires is justified. A request without justification
fails the call: with the error of the logic if it returns one, and else as unjustified. -/
theorem runCall_justified (checks : logic.checksJustification = true) :
    (∀ did, (shell.runCall logic).1 = .ok did →
      (∀ output before after, shell.ports.outputs[output]? = some before →
        (shell.runCall logic).2.ports.outputs[output]? = some after →
        ∃ fresh, after.retry = before.retry ++ fresh ∧
          (∀ time, after.ledger.net time = before.ledger.net time + netOf (sizes fresh) time) ∧
          (∀ batch ∈ fresh, shell.Justified logic output batch.1) ∧
          ∀ time, before.reporter.pending.net time < after.reporter.pending.net time →
            shell.Justified logic output time) ∧
      ∀ output time, .acquired output time ∈ shell.callEvents logic → shell.Justified logic output time) ∧
    ∀ output time, shell.Requests logic output time → ¬ shell.Justified logic output time →
      (∀ error, (shell.callLogic logic).1.1 = .error error → (shell.runCall logic).1 = .error error) ∧
      ∀ did, (shell.callLogic logic).1.1 = .ok did →
        ∃ what justified, (shell.runCall logic).1 = .error (.unjustified what justified) := by
  have acquired (output : Nat) (time : T) (member : .acquired output time ∈ shell.callEvents logic) :
      shell.Justified logic output time :=
    (shell.callLogic_answers logic output time).mp ((shell.callLogic_answering logic).acquired output time member)
  refine ⟨fun did succeeded => ⟨fun output before after start ended => ?_, acquired⟩, ?_⟩
  · obtain ⟨port, found, fine, effect, same⟩ := shell.runCall_output logic succeeded start ended
    subst same
    refine ⟨port.handle.buffer, ?_, fun time => ?_, shell.justified_of_session logic checks found fine, fun time more => ?_⟩
    · exact port.queueSession_retry.trans (by rw [effect.retry])
    · exact (port.queueSession_ledger time).trans (by rw [effect.ledger])
    · have counted : 0 < netOf (capabilityChangesOf output (shell.callEvents logic)) time := by
        change before.reporter.pending.net time < port.reporter.pending.net time at more
        have changes := effect.changes time
        omega
      exact acquired output time (acquired_of_changes counted)
  · intro output time requested unjustified
    have reason := shell.unjustified_request logic checks requested unjustified
    have errors := shell.callLogic_unjustified logic
    rcases shell.runCall_cases logic with ⟨error, outcome, ran⟩ |
      ⟨did, outcome, ⟨error, outputs, _, ⟨what, justified, same⟩, _, ran⟩ | ⟨fine, ran⟩⟩
    · rw [ran]
      rcases callError_error logic outcome with own | ⟨⟨did, own⟩, notified | violated⟩
      · simp [own]
      · obtain ⟨what, justified, same⟩ := errors.notify error notified
        simp [own, same]
      · obtain ⟨what, justified, same⟩ := errors.violation error violated
        simp [own, same]
    · obtain ⟨own, _⟩ := callError_ok logic checks outcome
      simp [ran, own, same]
    · obtain ⟨_, accepted⟩ := callError_ok logic checks outcome
      rcases reason with ⟨port, member, violates⟩ | refused
      · rw [fine port member] at violates
        cases violates
      · exact absurd refused accepted

end OperatorShell

end Call

/-- An output that holds a capability at time 2. -/
def outputAtTwo : CountedOutput Nat Nat :=
  { CountedOutput.new (fun _ => .accept) (ProgressReporter.new.update 2 1) with retainedLive := 1 }

def shellAtTwo : OperatorShell Nat Nat Nat Unit where
  name := "two"
  state := ()
  ports := ⟨[], [outputAtTwo], ⟨Antichain.new, false, none⟩, ⟨OrderedSet.empty, none⟩, []⟩
  exhausted := false
  frontierChanged := false
  finalCalled := false
  frontierKnown := false
  shutDown := false

/-- The capability at 2 is dropped in the call, and it still justifies the record at 4 and the capability at 3. -/
theorem shellAtTwo_justified :
    (shellAtTwo.runCall (closureOf [.dropRetained 0 2, .pushVec 0 4 [7], .retain 0 3] (.ok true))).1 = .ok true ∧
      shellAtTwo.Justified (closureOf [.dropRetained 0 2, .pushVec 0 4 [7], .retain 0 3] (.ok true)) 0 3 := by
  have succeeded :
      (shellAtTwo.runCall (closureOf [.dropRetained 0 2, .pushVec 0 4 [7], .retain 0 3] (.ok true))).1 = .ok true := by
    decide
  have acquired : .acquired 0 3 ∈
      shellAtTwo.callEvents (closureOf [.dropRetained 0 2, .pushVec 0 4 [7], .retain 0 3] (.ok true)) := by
    decide
  exact ⟨succeeded, ((OperatorShell.runCall_justified _ shellAtTwo rfl).1 true succeeded).2 0 3 acquired⟩

/-- A closure that emits a record at 1 and fails itself: the call fails with the error of the closure. -/
theorem shellAtTwo_own_error :
    shellAtTwo.Requests (closureOf [.pushVec 0 1 [7]] (.error (.operator "closure"))) 0 1 ∧
      ¬ shellAtTwo.Justified (closureOf [.pushVec 0 1 [7]] (.error (.operator "closure"))) 0 1 ∧
      (shellAtTwo.runCall (closureOf [.pushVec 0 1 [7]] (.error (.operator "closure")))).1 =
        .error (.operator "closure") := by
  refine ⟨⟨by decide, Or.inl ⟨(1, [7]), by decide, rfl⟩⟩, ?_, by decide⟩
  rintro (⟨port, found, held, positive, below⟩ | ⟨_, consumed, member, _⟩)
  · cases found
    have counted : outputAtTwo.reporter.heldAt held = 0 + if 2 = held then 1 else 0 :=
      ProgressReporter.update_heldAt ProgressReporter.new 2 1 held
    split at counted <;> omega
  · cases member

end Instancy
