import Instancy.Dataflow.Justification
import Instancy.Dataflow.PerTimeCalls
import Instancy.Library.Fallible

namespace Instancy

open Library

section Run

variable {T D : Type} [TimeOrder T]

/-- The batches of all calls, in order. -/
def batchesOf (events : List (NotifyEvent T D)) : List (T × List D) :=
  events.flatMap fun event =>
    match event with
    | .call batches => batches
    | .updateFrontier _ => []

/-- The frontiers that are delivered, in order. -/
def frontiersOf (events : List (NotifyEvent T D)) : List (Antichain T) :=
  events.filterMap fun event =>
    match event with
    | .call _ => none
    | .updateFrontier frontier => some frontier

/-- No batch of a call is empty, and every frontier that was delivered before is a lower bound of its time. -/
def Sound : List (Antichain T) → List (NotifyEvent T D) → Prop
  | _, [] => True
  | delivered, .call batches :: rest =>
    (∀ batch ∈ batches, batch.2 ≠ [] ∧ ∀ frontier ∈ delivered, frontier.lessEqual batch.1 = true) ∧ Sound delivered rest
  | delivered, .updateFrontier frontier :: rest => Sound (delivered ++ [frontier]) rest

variable {next : OperatorShell T T D (NotifyLogic T D)}

namespace PerTime

variable {operator : PerTime T D} {delivered : List (Antichain T)} {assigned : List (T × List D)}
  {shell : OperatorShell T T D (NotifyLogic T D)}

/-- An operator between two calls: nothing waits at its input. -/
structure Settled (operator : PerTime T D) (delivered : List (Antichain T)) (assigned : List (T × List D))
    (shell : OperatorShell T T D (NotifyLogic T D)) : Prop where
  input : ∃ port, shell.ports.inputs[0]? = some port ∧ port.handle.pending = []
  output : ∃ port, shell.ports.outputs[0]? = some port
  tracks : Tracks operator delivered assigned shell.state shell.ports.notify.capabilities
    (emittedOf 0 shell.ports.events)

theorem new_settled (name : String) (minimum : T) (initial : Antichain T) (answers : Nat → PushAnswer)
    (reporter : ProgressReporter T) :
    Settled operator [initial] []
      (OperatorShell.new name (NotifyLogic.new initial) minimum 1 [(answers, reporter)]) where
  input := ⟨_, rfl, rfl⟩
  output := ⟨_, rfl⟩
  tracks := by
    refine ⟨Notificator.new_paired initial, fun time => ?_, nofun, rfl, nofun, nofun, List.nodup_nil, fun time some => ?_⟩
    · exact iff_of_false (Notificator.new_outstanding initial time) Bool.false_ne_true
    · exact absurd rfl some

theorem pushAll_pending (handle : InputHandle T D) (batches : List (T × List D))
    (filled : ∀ batch ∈ batches, batch.2 ≠ []) :
    (batches.foldl (fun handle batch => handle.pushVec batch.1 batch.2) handle).pending = handle.pending ++ batches := by
  induction batches generalizing handle with
  | nil => simp
  | cons batch rest ih =>
    obtain ⟨time, records⟩ := batch
    rw [List.foldl_cons, ih _ fun other member => filled other (List.mem_cons_of_mem _ member)]
    cases records with
    | nil => exact absurd rfl (filled (time, []) List.mem_cons_self)
    | cons first others => simp [InputHandle.pushVec]

variable [ToString T]

/-- A call that returns no error takes its batches and leaves no notification ready. -/
theorem Settled.call (lawful : operator.Lawful) (settled : Settled operator delivered assigned shell)
    {batches : List (T × List D)}
    (fine : ∀ batch ∈ batches, batch.2 ≠ [] ∧ ∀ frontier ∈ delivered, frontier.lessEqual batch.1 = true)
    (passed : operator.step shell (.call batches) = .ok next) :
    operator.Accepts batches ∧ Settled operator delivered (assigned ++ operator.placed batches) next ∧
      next.state.notificator.ready.elements = [] := by
  obtain ⟨port, found, empty⟩ := settled.input
  have fed : (feed shell batches).ports.begin.Calling batches := by
    refine ⟨⟨{ port with handle := batches.foldl (fun handle batch => handle.pushVec batch.1 batch.2) port.handle }, ?_, ?_⟩,
      ?_, rfl⟩
    · simp [feed, OperatorShell.withInputs, Ports.begin, found]
    · rw [pushAll_pending _ _ fun batch member => (fine batch member).1, empty, List.nil_append]
    · obtain ⟨output, there⟩ := settled.output
      refine ⟨{ output with reporter := output.reporter.beginCall }, ?_⟩
      simp [feed, OperatorShell.withInputs, Ports.begin, there]
  cases ran : (feed shell batches).runCall (NotifyLogic.logic operator) with
  | mk result after =>
    simp only [step, ran] at passed
    cases result with
    | error error => cases passed
    | ok did =>
      cases passed
      rcases (feed shell batches).runCall_cases (NotifyLogic.logic operator) with
        ⟨_, _, same⟩ | ⟨more, ended, ⟨_, _, _, _, _, same⟩ | ⟨_, same⟩⟩
      · cases ran.symm.trans same
      · cases ran.symm.trans same
      · cases ran.symm.trans same
        have returned := (OperatorShell.callError_ok (NotifyLogic.logic operator) rfl ended).1
        obtain ⟨accepts, calling, none, tracks⟩ := call_run lawful fed settled.tracks fine returned
        obtain ⟨input, there, pending⟩ := calling.input
        obtain ⟨output, here⟩ := calling.output
        refine ⟨accepts, ⟨⟨input.commit, ?_, pending⟩,
          ⟨{ output.queueSession with reporter := output.queueSession.reporter.endCall }, ?_⟩, tracks⟩, none⟩
        · change ((OperatorShell.callLogic _ _).2.inputs.map CountedInput.commit)[0]? = _
          rw [List.getElem?_map]
          exact congrArg (Option.map CountedInput.commit) there
        · change ((List.map CountedOutput.queueSession (OperatorShell.callLogic _ _).2.outputs).map _)[0]? = _
          rw [List.getElem?_map, List.getElem?_map]
          exact congrArg (fun port => (Option.map CountedOutput.queueSession port).map fun output =>
            { output with reporter := output.reporter.endCall }) here

theorem Settled.updateFrontier (settled : Settled operator delivered assigned shell) (frontier : Antichain T)
    (passed : operator.step shell (.updateFrontier frontier) = .ok next) :
    Settled operator (delivered ++ [frontier]) assigned next := by
  cases passed
  exact ⟨settled.input, settled.output, settled.tracks.updateFrontier frontier⟩

theorem Settled.run (lawful : operator.Lawful) (settled : Settled operator delivered assigned shell)
    {events : List (NotifyEvent T D)} (sound : Sound delivered events) {finish : OperatorShell T T D (NotifyLogic T D)}
    (ran : operator.run shell events = .ok finish) :
    operator.Accepts (batchesOf events) ∧
      Settled operator (delivered ++ frontiersOf events) (assigned ++ operator.placed (batchesOf events)) finish ∧
      ∀ batches, events.getLast? = some (.call batches) → finish.state.notificator.ready.elements = [] := by
  induction events generalizing shell delivered assigned with
  | nil =>
    cases ran
    exact ⟨nofun, by simpa [frontiersOf, batchesOf, placed] using settled, nofun⟩
  | cons event rest ih =>
    obtain ⟨next, passed, later⟩ := bind_eq_ok.mp ran
    cases event with
    | call batches =>
      obtain ⟨first, called, none⟩ := settled.call lawful sound.1 passed
      obtain ⟨others, after, quiet⟩ := ih called sound.2 later
      refine ⟨List.forall_mem_append.mpr ⟨first, others⟩, ?_, ?_⟩
      · simpa [frontiersOf, batchesOf, placed] using after
      · cases rest with
        | nil =>
          cases later
          exact fun _ _ => none
        | cons => exact quiet
    | updateFrontier frontier =>
      obtain ⟨accepts, after, quiet⟩ := ih (settled.updateFrontier frontier passed) sound later
      refine ⟨accepts, ?_, ?_⟩
      · simpa [frontiersOf, batchesOf] using after
      · cases rest with
        | nil => simp
        | cons => exact quiet

end PerTime

end Run

section Operators

variable {T D : Type} [TimeOrder T]

namespace PerTime

/-- An operator that keeps the times of its records is lawful if every stashed time has an output. -/
theorem keepTime_lawful {operator : PerTime T D} (place : operator.place = keepTime)
    (emits : ∀ records, records ≠ [] → ∃ output, operator.finish (some records) = some output ∧ output ≠ []) :
    operator.Lawful where
  later time data target items member := by
    rw [place] at member
    cases List.mem_singleton.mp member
    exact le_refl time
  filled time data target items filled member := by
    rw [place] at member
    cases List.mem_singleton.mp member
    exact filled
  emits := emits

theorem reduce_lawful (reducer : D → D → D) : (reduce reducer : PerTime T D).Lawful := by
  apply keepTime_lawful rfl
  intro records filled
  cases records with
  | nil => exact absurd rfl filled
  | cons first rest => exact ⟨_, rfl, List.cons_ne_nil _ _⟩

theorem fold_lawful {A : Type} (init : A) (folder : A → D → A) (record : A → D) :
    (fold init folder record : PerTime T D).Lawful := by
  apply keepTime_lawful rfl
  intro records _
  exact ⟨_, rfl, List.cons_ne_nil _ _⟩

theorem mem_unique [DecidableEq D] (seen data : List D) (item : D) :
    item ∈ unique seen data ↔ item ∈ data ∧ item ∉ seen := by
  induction data generalizing seen with
  | nil => simp [unique]
  | cons first rest ih =>
    unfold unique
    by_cases same : item = first <;> split <;> simp_all

theorem unique_nodup [DecidableEq D] (seen data : List D) : (unique seen data).Nodup := by
  induction data generalizing seen with
  | nil => exact List.nodup_nil
  | cons first rest ih =>
    unfold unique
    split
    · exact ih seen
    · rw [List.nodup_cons, mem_unique]
      exact ⟨fun found => found.2 List.mem_cons_self, ih (first :: seen)⟩

theorem unique_ne_nil [DecidableEq D] {data : List D} (filled : data ≠ []) : unique [] data ≠ [] := by
  obtain ⟨item, member⟩ := List.exists_mem_of_ne_nil data filled
  exact List.ne_nil_of_mem ((mem_unique [] data item).mpr ⟨member, List.not_mem_nil⟩)

theorem distinct_lawful [DecidableEq D] : (distinct : PerTime T D).Lawful := by
  apply keepTime_lawful rfl
  intro records filled
  have some := unique_ne_nil filled
  exact ⟨unique [] records, by simp [distinct, some], some⟩

theorem delay_lawful (delayFn : T → D → T) : (delay delayFn).Lawful where
  later time data target items member := by
    obtain ⟨item, _, placed⟩ := List.mem_map.mp member
    split at placed
    · rename_i below
      cases placed
      exact below
    · cases placed
  filled time data target items _ member := by
    obtain ⟨item, _, placed⟩ := List.mem_map.mp member
    split at placed
    · cases placed
      exact List.cons_ne_nil item []
    · cases placed
  emits records filled := ⟨records, rfl, filled⟩

theorem delayBatch_lawful (delayFn : T → T) : (delayBatch delayFn : PerTime T D).Lawful where
  later time data target items member := by
    have placed := List.mem_singleton.mp member
    split at placed
    · rename_i below
      cases placed
      exact below
    · cases placed
  filled time data target items filled member := by
    have placed := List.mem_singleton.mp member
    split at placed
    · cases placed
      exact filled
    · cases placed
  emits records filled := ⟨records, rfl, filled⟩

omit [TimeOrder T] in
theorem keepTime_placed {operator : PerTime T D} (place : operator.place = keepTime) (batches : List (T × List D)) :
    operator.placed batches = batches := by
  unfold placed
  rw [place]
  induction batches with
  | nil => rfl
  | cons batch rest ih =>
    rw [List.flatMap_cons, ih]
    rfl

variable {batches : List (T × List D)}

/-- The records that an operator assigns to a time come from its batches one after the other. -/
theorem recordsAt_placed {operator : PerTime T D} (view : T → List D → List D) {time : T}
    (each : ∀ batch ∈ batches, recordsAt time ((operator.place batch.1 batch.2).filterMap Except.toOption) =
      view batch.1 batch.2) :
    recordsAt time (operator.placed batches) = batches.flatMap fun batch => view batch.1 batch.2 := by
  induction batches with
  | nil => rfl
  | cons batch rest ih =>
    obtain ⟨first, others⟩ := List.forall_mem_cons.mp each
    rw [show operator.placed (batch :: rest) =
      (operator.place batch.1 batch.2).filterMap Except.toOption ++ operator.placed rest from rfl]
    rw [recordsAt_append, first, ih others, List.flatMap_cons]

/-- The records that a delay assigns to a time. -/
theorem delay_records {delayFn : T → D → T} (accepts : (delay delayFn).Accepts batches) (time : T) : recordsAt time
    ((delay delayFn).placed batches) =
      batches.flatMap fun batch => batch.2.filter fun item => delayFn batch.1 item = time := by
  apply recordsAt_placed fun early items => items.filter fun item => delayFn early item = time
  rintro ⟨early, items⟩ member
  have later (item : D) (found : item ∈ items) : early ≤ delayFn early item := by
    by_contra above
    apply accepts (early, items) member delayError
    exact List.mem_map.mpr ⟨item, found, if_neg above⟩
  clear accepts member
  simp only [delay]
  induction items with
  | nil => rfl
  | cons item rest ih =>
    by_cases same : delayFn early item = time
    · simp_all [recordsAt, Except.toOption]
    · simp_all [recordsAt, Except.toOption]

/-- The records that a delay of whole batches assigns to a time. -/
theorem delayBatch_records {delayFn : T → T} (accepts : (delayBatch delayFn).Accepts batches) (time : T) :
    recordsAt time ((delayBatch delayFn).placed batches) =
      batches.flatMap fun batch => if delayFn batch.1 = time then batch.2 else [] := by
  apply recordsAt_placed fun early items => if delayFn early = time then items else []
  rintro ⟨early, items⟩ member
  have later : early ≤ delayFn early := by
    by_contra above
    apply accepts (early, items) member delayError
    exact List.mem_singleton.mpr (if_neg above).symm
  simp [delayBatch, later, Except.toOption]

end PerTime

end Operators

section Whole

variable {T D : Type} [TimeOrder T] [ToString T]

namespace PerTime

/-- The operator sees whole times, once. The batches of a run assign records to times, and the output at a time is the
result of all records that the run ever assigns to it. Each time is emitted at most once, and only once a frontier
without an element at or before it was delivered: the latest one, unless the frontiers went back. The held
capabilities are at the stashed times. A call takes every ready notification, so that after it all records of the times
that the latest frontier has passed are emitted. Once the frontier is empty and no notification is ready, everything is
emitted. -/
def SeesWholeTimes (operator : PerTime T D) (assigned : List (T × List D) → T → List D)
    (result : List D → List D → Prop) : Prop :=
  ∀ (name : String) (minimum : T) (initial : Antichain T) (answers : Nat → PushAnswer) (reporter : ProgressReporter T)
    (events : List (NotifyEvent T D)) (shell : OperatorShell T T D (NotifyLogic T D)),
    Sound [initial] events →
    operator.run (OperatorShell.new name (NotifyLogic.new initial) minimum 1 [(answers, reporter)]) events = .ok shell →
    ((emittedOf 0 shell.ports.events).map Prod.fst).Nodup ∧
    (∀ batch ∈ emittedOf 0 shell.ports.events,
      result (assigned (batchesOf events) batch.1) batch.2 ∧
      (∃ frontier ∈ initial :: frontiersOf events, frontier.lessEqual batch.1 = false) ∧
      ∀ latest, (initial :: frontiersOf events).getLast? = some latest →
        (∀ frontier ∈ initial :: frontiersOf events, ∀ time, latest.lessEqual time = true → frontier.lessEqual time = true) →
        latest.lessEqual batch.1 = false) ∧
    (∀ time, time ∈ shell.ports.notify.capabilities.elements ↔ (shell.state.stash time).isSome = true) ∧
    (∀ batches, events.getLast? = some (.call batches) → shell.state.notificator.hasReady = false ∧
      ∀ latest, (initial :: frontiersOf events).getLast? = some latest → ∀ time, latest.lessEqual time = false →
        assigned (batchesOf events) time ≠ [] → ∃ output, (time, output) ∈ emittedOf 0 shell.ports.events) ∧
    ((initial :: frontiersOf events).getLast? = some Antichain.new → shell.state.notificator.hasReady = false →
      shell.ports.notify.capabilities.elements = [] ∧
      ∀ time, assigned (batchesOf events) time ≠ [] → ∃ output, (time, output) ∈ emittedOf 0 shell.ports.events)

theorem Lawful.seesWholeTimes {operator : PerTime T D} (lawful : operator.Lawful)
    {assigned : List (T × List D) → T → List D} {result : List D → List D → Prop}
    (records : ∀ batches, operator.Accepts batches → ∀ time, recordsAt time (operator.placed batches) = assigned batches time)
    (finishes : ∀ records output, operator.finish (some records) = some output → result records output) :
    operator.SeesWholeTimes assigned result := by
  intro name minimum initial answers reporter events shell sound ran
  obtain ⟨accepts, settled, quiet⟩ := (new_settled name minimum initial answers reporter).run lawful sound ran
  have tracks := settled.tracks
  rw [List.nil_append] at tracks
  have same := records (batchesOf events) accepts
  have hasReady : shell.state.notificator.hasReady = false ↔ shell.state.notificator.ready.elements = [] := by
    rw [Notificator.hasReady, Bool.not_eq_false', List.isEmpty_iff]
  refine ⟨tracks.once, fun batch member => ?_, fun _ => tracks.held, fun batches called => ?_, fun last none => ?_⟩
  · obtain ⟨finished, frontier, delivery, passed⟩ := tracks.whole batch member
    rw [same] at finished
    refine ⟨finishes _ _ finished, ⟨frontier, delivery, passed⟩, fun latest _ advanced => ?_⟩
    by_contra covered
    have back := advanced frontier delivery batch.1 (Bool.eq_true_of_not_eq_false covered)
    cases passed.symm.trans back
  · have none := quiet batches called
    exact ⟨hasReady.mpr none, fun latest last time complete some => tracks.emits none last complete (same time ▸ some)⟩
  · have none := hasReady.mp none
    constructor
    · apply List.eq_nil_iff_forall_not_mem.mpr
      intro time held
      exact tracks.not_stashed none last rfl (tracks.held.mp held)
    · exact fun time some => tracks.emits none last rfl (same time ▸ some)

/-- The operators on whole times see each time as a whole, once. -/
theorem operators_see_whole_times :
    (∀ reducer : D → D → D, (reduce reducer : PerTime T D).SeesWholeTimes (fun batches time => recordsAt time batches)
      fun records output => ∃ first rest, records = first :: rest ∧ output = [rest.foldl reducer first]) ∧
    (∀ (A : Type) (init : A) (folder : A → D → A) (record : A → D), (fold init folder record : PerTime T D).SeesWholeTimes
      (fun batches time => recordsAt time batches) fun records output => output = [record (records.foldl folder init)]) ∧
    (∀ record : Nat → D, (count record : PerTime T D).SeesWholeTimes (fun batches time => recordsAt time batches)
      fun records output => output = [record records.length]) ∧
    (∀ _ : DecidableEq D, (distinct : PerTime T D).SeesWholeTimes (fun batches time => recordsAt time batches)
      fun records output => output.Nodup ∧ ∀ item, item ∈ output ↔ item ∈ records) ∧
    (∀ delayFn : T → D → T, (delay delayFn).SeesWholeTimes
      (fun batches time => batches.flatMap fun batch => batch.2.filter fun item => delayFn batch.1 item = time)
      fun records output => output = records) ∧
    ∀ delayFn : T → T, (delayBatch delayFn : PerTime T D).SeesWholeTimes
      (fun batches time => batches.flatMap fun batch => if delayFn batch.1 = time then batch.2 else [])
      fun records output => output = records := by
  have kept {operator : PerTime T D} (place : operator.place = keepTime) (batches : List (T × List D))
      (_ : operator.Accepts batches) (time : T) : recordsAt time (operator.placed batches) = recordsAt time batches := by
    rw [keepTime_placed place]
  refine ⟨fun reducer => ?_, fun A init folder record => ?_, fun record => ?_, fun _ => ?_, fun delayFn => ?_, fun delayFn => ?_⟩
  · refine (reduce_lawful reducer).seesWholeTimes (kept rfl) fun records output finished => ?_
    cases records with
    | nil => cases finished
    | cons first rest =>
      cases finished
      exact ⟨first, rest, rfl, rfl⟩
  · refine (fold_lawful init folder record).seesWholeTimes (kept rfl) fun records output finished => ?_
    cases finished
    rfl
  · refine (fold_lawful 0 (fun total _ => total + 1) record).seesWholeTimes (kept rfl) fun records output finished => ?_
    cases finished
    simp
  · refine distinct_lawful.seesWholeTimes (kept rfl) fun records output finished => ?_
    simp only [distinct] at finished
    split at finished
    · cases finished
    · cases finished
      exact ⟨unique_nodup [] records, fun item => by simp [mem_unique]⟩
  · refine (delay_lawful delayFn).seesWholeTimes (fun batches accepts => delay_records accepts) fun records output finished => ?_
    exact (Option.some.inj finished).symm
  · refine (delayBatch_lawful delayFn).seesWholeTimes (fun batches accepts => delayBatch_records accepts)
      fun records output finished => ?_
    exact (Option.some.inj finished).symm

def counting : Except RunError (OperatorShell Nat Nat Nat (NotifyLogic Nat Nat)) :=
  (count id).run (OperatorShell.new "count" (NotifyLogic.new (Antichain.fromElem 0)) 0 1
    [(fun _ => .accept, ProgressReporter.new)])
    [.call [(3, [7, 8])], .call [(3, [9]), (5, [1])], .updateFrontier (Antichain.fromElem 4), .call []]

/-- Three records of one time arrive in two calls, and are counted in the call after the frontier has passed the time. -/
theorem count_three : ∃ shell, counting = .ok shell ∧ (3, [3]) ∈ emittedOf 0 shell.ports.events := by
  obtain ⟨shell, ran⟩ : ∃ shell, counting = .ok shell := ⟨_, rfl⟩
  have sees := operators_see_whole_times.2.2.1 id _ _ _ _ _ _ _ (by simp [Sound]) ran
  obtain ⟨output, emitted⟩ := (sees.2.2.2.1 [] rfl).2 (Antichain.fromElem 4) rfl 3 (by decide) (by decide)
  have whole := (sees.2.1 _ emitted).1
  exact ⟨shell, ran, whole ▸ emitted⟩

end PerTime

end Whole

end Instancy
