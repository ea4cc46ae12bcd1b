import Mathlib.Data.List.Forall2
import Mathlib.Logic.Function.Iterate

namespace Instancy.Library

/-- The answer to an offered job: it is accepted, or it is handed back with an error. -/
abbrev Answer (Error Job : Type) := Except (Error × Job) Unit

section Interim

variable {A : Type}

/-- Each entry is the one from before or the one from after. -/
inductive Interim : List A → List A → List A → Prop
  | nil : Interim [] [] []
  | cons {before after now befores afters nows} : now = before ∨ now = after → Interim befores afters nows →
      Interim (before :: befores) (after :: afters) (now :: nows)

theorem Interim.ends {before after : List A} (same : after.length = before.length) :
    Interim before after before ∧ Interim before after after := by
  induction before generalizing after with
  | nil =>
    rw [List.eq_nil_of_length_eq_zero same]
    exact ⟨.nil, .nil⟩
  | cons first rest ih =>
    cases after with
    | nil => cases same
    | cons other more =>
      obtain ⟨old, new⟩ := ih (Nat.succ.inj same)
      exact ⟨.cons (Or.inl rfl) old, .cons (Or.inr rfl) new⟩

theorem Interim.append {before after now befores afters nows : List A} (first : Interim before after now)
    (rest : Interim befores afters nows) : Interim (before ++ befores) (after ++ afters) (now ++ nows) := by
  induction first with
  | nil => exact rest
  | cons choice _ ih => exact .cons choice ih

end Interim

/-- A receiver takes each proper job exactly once, over as many offers as it needs. A settled receiver has nothing
outstanding; a partial one has taken a part of the job and must be offered the same job again. What is seen of it is
at every place what is shown before the job or after it. -/
structure RetryProtocol (State Job Error View Seen : Type) (busy : Error) (proper : Job → Prop) where
  offer : State → Job → Answer Error Job × State
  deliver : View → Job → View
  settled : View → State → Prop
  partly : View → Job → State → Prop
  seen : State → List Seen
  shown : View → List Seen
  step : ∀ {view job state}, proper job → settled view state ∨ partly view job state →
    ((offer state job).1 = .ok () ∧ settled (deliver view job) (offer state job).2) ∨
      ((offer state job).1 = .error (busy, job) ∧ partly view job (offer state job).2)
  sameSize : ∀ view job, (shown (deliver view job)).length = (shown view).length
  seen_settled : ∀ {view state}, settled view state → seen state = shown view
  seen_partly : ∀ {view job state}, partly view job state → Interim (shown view) (shown (deliver view job)) (seen state)

section Attempts

variable {State Job Error View Seen : Type} {busy : Error} {proper : Job → Prop}

/-- The caller offers its first job and keeps what is handed back. -/
def attempt (offer : State → Job → Answer Error Job × State) : State × List Job → State × List Job
  | (state, []) => (state, [])
  | (state, job :: jobs) =>
    match offer state job with
    | (.ok _, next) => (next, jobs)
    | (.error (_, returned), next) => (next, returned :: jobs)

variable {offer : State → Job → Answer Error Job × State} {state : State} {job : Job}

theorem attempt_of_ok {next : State} (accepted : offer state job = (.ok (), next)) (jobs : List Job) :
    attempt offer (state, job :: jobs) = (next, jobs) := by
  simp only [attempt, accepted]

theorem attempt_of_error {next : State} {error : Error} {returned : Job}
    (refused : offer state job = (.error (error, returned), next)) (jobs : List Job) :
    attempt offer (state, job :: jobs) = (next, returned :: jobs) := by
  simp only [attempt, refused]

/-- The jobs that are done are delivered, and at most the next one is taken in part. -/
def RetryProtocol.Reached (protocol : RetryProtocol State Job Error View Seen busy proper) (view : View) (jobs : List Job)
    (state : State) (rest : List Job) : Prop :=
  ∃ done, jobs = done ++ rest ∧ (protocol.settled (done.foldl protocol.deliver view) state ∨
    ∃ job more, rest = job :: more ∧ protocol.partly (done.foldl protocol.deliver view) job state)

/-- Every state that a retrying caller reaches has delivered each finished job once and in order. -/
theorem RetryProtocol.attempts (protocol : RetryProtocol State Job Error View Seen busy proper) {view : View}
    (start : protocol.settled view state) {jobs : List Job} (all : ∀ job ∈ jobs, proper job)
    (count : Nat) :
    protocol.Reached view jobs ((attempt protocol.offer)^[count] (state, jobs)).1
      ((attempt protocol.offer)^[count] (state, jobs)).2 := by
  induction count with
  | zero => exact ⟨[], rfl, Or.inl start⟩
  | succ count ih =>
    rw [Function.iterate_succ_apply']
    generalize (attempt protocol.offer)^[count] (state, jobs) = reached at ih
    obtain ⟨now, rest⟩ := reached
    obtain ⟨done, split, ready⟩ := ih
    cases rest with
    | nil => exact ⟨done, split, ready⟩
    | cons job more =>
      have member : job ∈ jobs := by
        rw [split]
        exact List.mem_append_right done List.mem_cons_self
      have ready : protocol.settled (done.foldl protocol.deliver view) now ∨
          protocol.partly (done.foldl protocol.deliver view) job now := by
        rcases ready with settled | ⟨_, _, same, partly⟩
        · exact Or.inl settled
        · obtain ⟨rfl, rfl⟩ := List.cons.inj same
          exact Or.inr partly
      rcases protocol.step (all job member) ready with ⟨accepted, settled⟩ | ⟨refused, partly⟩
      · rw [attempt_of_ok (Prod.ext accepted rfl)]
        refine ⟨done ++ [job], ?_, Or.inl ?_⟩
        · rw [split, List.append_assoc, List.singleton_append]
        · rw [List.foldl_append]
          exact settled
      · rw [attempt_of_error (Prod.ext refused rfl)]
        exact ⟨done, split, Or.inr ⟨job, more, rfl, partly⟩⟩

/-- What is seen while a job is offered is what is shown before it or after it. -/
theorem RetryProtocol.seen_ready {protocol : RetryProtocol State Job Error View Seen busy proper} {view : View}
    (ready : protocol.settled view state ∨ protocol.partly view job state) :
    Interim (protocol.shown view) (protocol.shown (protocol.deliver view job)) (protocol.seen state) := by
  rcases ready with settled | partly
  · rw [protocol.seen_settled settled]
    exact (Interim.ends (protocol.sameSize view job)).1
  · exact protocol.seen_partly partly

end Attempts

section Each

variable {State Job Error Slot : Type} [DecidableEq Error]

/-- The loop offers each receiver the part that its slot still holds. It goes on behind a busy receiver and stops at
any other error. -/
def offerEach (offer : State → Job → Answer Error Job × State) (busy : Error) (part : Slot → Option Job)
    (accepted : Slot → Slot) (refused : Slot → Job → Except Error Slot) :
    List State → List Slot → Bool → Except Error Unit × List State × List Slot
  | state :: states, slot :: slots, waiting =>
    match part slot with
    | none =>
      let (result, later, kept) := offerEach offer busy part accepted refused states slots waiting
      (result, state :: later, slot :: kept)
    | some job =>
      match offer state job with
      | (.ok _, next) =>
        let (result, later, kept) := offerEach offer busy part accepted refused states slots waiting
        (result, next :: later, accepted slot :: kept)
      | (.error (error, returned), next) =>
        match refused slot returned with
        | .error wrong => (.error wrong, next :: states, accepted slot :: slots)
        | .ok restored =>
          if error = busy then
            let (result, later, kept) := offerEach offer busy part accepted refused states slots true
            (result, next :: later, restored :: kept)
          else (.error error, next :: states, restored :: slots)
  | states, slots, waiting => (if waiting then .error busy else .ok (), states, slots)

section Equations

variable {offer : State → Job → Answer Error Job × State} {busy : Error} {part : Slot → Option Job}
  {accepted : Slot → Slot} {refused : Slot → Job → Except Error Slot} {state : State} {slot : Slot} {job : Job}
  {states : List State} {slots : List Slot} {next : State}

theorem offerEach_of_none (none : part slot = none) (waiting : Bool) :
    offerEach offer busy part accepted refused (state :: states) (slot :: slots) waiting =
      let rest := offerEach offer busy part accepted refused states slots waiting
      (rest.1, state :: rest.2.1, slot :: rest.2.2) := by
  simp only [offerEach, none]

theorem offerEach_of_ok (holds : part slot = some job) (taken : offer state job = (.ok (), next)) (waiting : Bool) :
    offerEach offer busy part accepted refused (state :: states) (slot :: slots) waiting =
      let rest := offerEach offer busy part accepted refused states slots waiting
      (rest.1, next :: rest.2.1, accepted slot :: rest.2.2) := by
  simp only [offerEach, holds, taken]

theorem offerEach_of_busy (holds : part slot = some job) (full : offer state job = (.error (busy, job), next))
    (restores : refused slot job = .ok slot) (waiting : Bool) :
    offerEach offer busy part accepted refused (state :: states) (slot :: slots) waiting =
      let rest := offerEach offer busy part accepted refused states slots true
      (rest.1, next :: rest.2.1, slot :: rest.2.2) := by
  simp only [offerEach, holds, full, restores, if_pos]

end Equations

variable {View Seen : Type} {busy : Error} {proper : Job → Prop}
  (protocol : RetryProtocol State Job Error View Seen busy proper) (part : Slot → Option Job)

/-- Each receiver has its part, or its slot still holds it. The views are those before and after the delivery. -/
inductive OwedEach : List State → List Slot → List View → List View → Prop
  | nil : OwedEach [] [] [] []
  | done {state slot before after states slots befores afters} : part slot = none → protocol.settled after state →
      (protocol.shown after).length = (protocol.shown before).length →
      OwedEach states slots befores afters →
      OwedEach (state :: states) (slot :: slots) (before :: befores) (after :: afters)
  | due {state slot before after states slots befores afters job} : part slot = some job → proper job →
      protocol.settled before state ∨ protocol.partly before job state → after = protocol.deliver before job →
      OwedEach states slots befores afters →
      OwedEach (state :: states) (slot :: slots) (before :: befores) (after :: afters)

variable {part}

omit [DecidableEq Error] in
theorem OwedEach.settled {states : List State} {slots : List Slot} {befores afters : List View}
    (owed : OwedEach protocol part states slots befores afters) (none : ∀ slot ∈ slots, part slot = none) :
    List.Forall₂ protocol.settled afters states := by
  induction owed with
  | nil => exact .nil
  | done _ settled _ _ ih => exact .cons settled (ih fun slot member => none slot (List.mem_cons_of_mem _ member))
  | due some _ _ _ _ _ =>
    rw [none _ List.mem_cons_self] at some
    cases some

omit [DecidableEq Error] in
theorem OwedEach.length {states : List State} {slots : List Slot} {befores afters : List View}
    (owed : OwedEach protocol part states slots befores afters) :
    slots.length = states.length ∧ befores.length = states.length := by
  induction owed with
  | nil => exact ⟨rfl, rfl⟩
  | done _ _ _ _ ih | due _ _ _ _ _ ih =>
    simp only [List.length_cons]
    omega

omit [DecidableEq Error] in
theorem OwedEach.seen {states : List State} {slots : List Slot} {befores afters : List View}
    (owed : OwedEach protocol part states slots befores afters) :
    Interim (befores.flatMap protocol.shown) (afters.flatMap protocol.shown) (states.flatMap protocol.seen) := by
  induction owed with
  | nil => exact .nil
  | done _ settled size _ ih =>
    simp only [List.flatMap_cons, protocol.seen_settled settled]
    exact (Interim.ends size).2.append ih
  | due _ _ ready goal _ ih =>
    simp only [List.flatMap_cons, goal]
    exact (RetryProtocol.seen_ready ready).append ih

/-- The loop ends with every part delivered, or with the busy error and the rest still owed. -/
theorem offerEach_spec {accepted : Slot → Slot} {refused : Slot → Job → Except Error Slot}
    (emptied : ∀ slot, part (accepted slot) = none)
    (restores : ∀ slot job, part slot = some job → refused slot job = .ok slot)
    {states : List State} {slots : List Slot} {befores afters : List View}
    (owed : OwedEach protocol part states slots befores afters) (waiting : Bool) :
    let ended := offerEach protocol.offer busy part accepted refused states slots waiting
    OwedEach protocol part ended.2.1 ended.2.2 befores afters ∧
      ((ended.1 = .ok () ∧ waiting = false ∧ ∀ slot ∈ ended.2.2, part slot = none) ∨
        ended.1 = .error busy) := by
  induction owed generalizing waiting with
  | nil =>
    cases waiting with
    | false => exact ⟨.nil, Or.inl ⟨rfl, rfl, nofun⟩⟩
    | true => exact ⟨.nil, Or.inr rfl⟩
  | done empty settled size _ ih =>
    obtain ⟨later, result⟩ := ih waiting
    rw [offerEach_of_none empty]
    refine ⟨.done empty settled size later, ?_⟩
    rcases result with ⟨ok, quiet, none⟩ | busy
    · exact Or.inl ⟨ok, quiet, List.forall_mem_cons.mpr ⟨empty, none⟩⟩
    · exact Or.inr busy
  | @due state slot _ _ _ _ _ _ job holds fits ready goal _ ih =>
    rcases protocol.step fits ready with ⟨taken, settled⟩ | ⟨full, partly⟩
    · obtain ⟨later, result⟩ := ih waiting
      rw [offerEach_of_ok holds (Prod.ext taken rfl)]
      refine ⟨.done (emptied slot) (goal ▸ settled) (goal ▸ protocol.sameSize _ job) later, ?_⟩
      rcases result with ⟨ok, quiet, none⟩ | busy
      · exact Or.inl ⟨ok, quiet, List.forall_mem_cons.mpr ⟨emptied slot, none⟩⟩
      · exact Or.inr busy
    · obtain ⟨later, result⟩ := ih true
      rw [offerEach_of_busy holds (Prod.ext full rfl) (restores slot job holds)]
      refine ⟨.due holds fits (Or.inr partly) goal later, ?_⟩
      rcases result with ⟨_, quiet, _⟩ | busy
      · cases quiet
      · exact Or.inr busy

end Each

section FromCursor

variable {State Job Error : Type}

/-- The loop offers one job to the receivers from a cursor on and stops at the first error. -/
def offerFrom (offer : State → Job → Answer Error Job × State) (job : Job) (start : Nat) :
    Nat → List State → Except (Nat × Error) Unit × List State
  | _, [] => (.ok (), [])
  | index, state :: states =>
    if index < start then
      let (result, later) := offerFrom offer job start (index + 1) states
      (result, state :: later)
    else
      match offer state job with
      | (.ok _, next) =>
        let (result, later) := offerFrom offer job start (index + 1) states
        (result, next :: later)
      | (.error (error, _), next) => (.error (index, error), next :: states)

section Equations

variable {offer : State → Job → Answer Error Job × State} {job : Job} {start index : Nat} {state next : State}

theorem offerFrom_of_lt (early : index < start) (states : List State) :
    offerFrom offer job start index (state :: states) =
      let rest := offerFrom offer job start (index + 1) states
      (rest.1, state :: rest.2) := by
  simp only [offerFrom, if_pos early]

theorem offerFrom_of_ok (reached : start ≤ index) (taken : offer state job = (.ok (), next)) (states : List State) :
    offerFrom offer job start index (state :: states) =
      let rest := offerFrom offer job start (index + 1) states
      (rest.1, next :: rest.2) := by
  simp only [offerFrom, if_neg (Nat.not_lt.mpr reached), taken]

theorem offerFrom_of_error {error : Error} {returned : Job} (reached : start ≤ index)
    (failed : offer state job = (.error (error, returned), next)) (states : List State) :
    offerFrom offer job start index (state :: states) = (.error (index, error), next :: states) := by
  simp only [offerFrom, if_neg (Nat.not_lt.mpr reached), failed]

/-- A cursor behind the last receiver skips them all. -/
theorem offerFrom_skip (states : List State) (past : index + states.length ≤ start) :
    offerFrom offer job start index states = (.ok (), states) := by
  induction states generalizing index with
  | nil => rfl
  | cons state states ih =>
    rw [List.length_cons] at past
    rw [offerFrom_of_lt (by omega), ih (by omega)]

end Equations

variable {View Seen : Type} {busy : Error} {proper : Job → Prop}
  (protocol : RetryProtocol State Job Error View Seen busy proper)

/-- The receivers before the cursor have the job, the one at the cursor may have a part of it, the others have
nothing of it. -/
inductive CursorAt (job : Job) (cursor : Nat) : Nat → List View → List State → Prop
  | nil {index} : CursorAt job cursor index [] []
  | before {index view state views states} : index < cursor → protocol.settled (protocol.deliver view job) state →
      CursorAt job cursor (index + 1) views states → CursorAt job cursor index (view :: views) (state :: states)
  | here {view state views states} : protocol.settled view state ∨ protocol.partly view job state →
      List.Forall₂ protocol.settled views states → CursorAt job cursor cursor (view :: views) (state :: states)

/-- The loop served every receiver, or it stopped at a busy one. -/
def OfferEnded (job : Job) (index : Nat) (views : List View) (ended : Except (Nat × Error) Unit × List State) : Prop :=
  (ended.1 = .ok () ∧ List.Forall₂ protocol.settled (views.map (protocol.deliver · job)) ended.2) ∨
    ∃ place, ended.1 = .error (place, busy) ∧ index ≤ place ∧ CursorAt protocol job place index views ended.2

variable {protocol} {job : Job} {index start : Nat} {view : View} {views : List View} {state : State}
  {states : List State}

theorem OfferEnded.cons {ended : Except (Nat × Error) Unit × List State}
    (settled : protocol.settled (protocol.deliver view job) state)
    (later : OfferEnded protocol job (index + 1) views ended) :
    OfferEnded protocol job index (view :: views) (ended.1, state :: ended.2) := by
  rcases later with ⟨ok, all⟩ | ⟨place, busy, low, placed⟩
  · exact Or.inl ⟨ok, .cons settled all⟩
  · exact Or.inr ⟨place, busy, by omega, .before low settled placed⟩

section

variable (fits : proper job)
include fits

theorem offerFrom_first (reached : start ≤ index) (ready : protocol.settled view state ∨ protocol.partly view job state)
    (rest : List.Forall₂ protocol.settled views states)
    (later : OfferEnded protocol job (index + 1) views (offerFrom protocol.offer job start (index + 1) states)) :
    OfferEnded protocol job index (view :: views) (offerFrom protocol.offer job start index (state :: states)) := by
  rcases protocol.step fits ready with ⟨taken, settled⟩ | ⟨busy, partly⟩
  · rw [offerFrom_of_ok reached (Prod.ext taken rfl)]
    exact later.cons settled
  · rw [offerFrom_of_error reached (Prod.ext busy rfl)]
    exact Or.inr ⟨index, rfl, Nat.le_refl _, .here (Or.inr partly) rest⟩

/-- Receivers that have nothing of the job are given it from the first one on. -/
theorem offerFrom_fresh (reached : start ≤ index) (settled : List.Forall₂ protocol.settled views states) :
    OfferEnded protocol job index views (offerFrom protocol.offer job start index states) := by
  induction settled generalizing index with
  | nil => exact Or.inl ⟨rfl, .nil⟩
  | cons first rest ih => exact offerFrom_first fits reached (Or.inl first) rest (ih (Nat.le_succ_of_le reached))

/-- The loop gives the job to every receiver, or moves the cursor to the one that was busy. -/
theorem offerFrom_spec (placed : CursorAt protocol job start index views states) :
    OfferEnded protocol job index views (offerFrom protocol.offer job start index states) := by
  induction placed with
  | nil => exact Or.inl ⟨rfl, .nil⟩
  | before early settled _ ih =>
    rw [offerFrom_of_lt early]
    exact ih.cons settled
  | here ready rest =>
    exact offerFrom_first fits (Nat.le_refl _) ready rest (offerFrom_fresh fits (Nat.le_succ start) rest)

end

theorem forall₂_seen {states : List State} (settled : List.Forall₂ protocol.settled views states) :
    states.flatMap protocol.seen = views.flatMap protocol.shown := by
  induction settled with
  | nil => rfl
  | cons first _ ih => rw [List.flatMap_cons, List.flatMap_cons, protocol.seen_settled first, ih]

theorem sameSize_flatMap (views : List View) (job : Job) :
    ((views.map (protocol.deliver · job)).flatMap protocol.shown).length = (views.flatMap protocol.shown).length := by
  induction views with
  | nil => rfl
  | cons view views ih =>
    rw [List.map_cons, List.flatMap_cons, List.flatMap_cons, List.length_append, List.length_append, ih,
      protocol.sameSize]

theorem CursorAt.seen {cursor index : Nat} {states : List State}
    (placed : CursorAt protocol job cursor index views states) :
    Interim (views.flatMap protocol.shown) ((views.map (protocol.deliver · job)).flatMap protocol.shown)
      (states.flatMap protocol.seen) := by
  induction placed with
  | nil => exact .nil
  | before _ settled _ ih =>
    rw [List.map_cons, List.flatMap_cons, List.flatMap_cons, List.flatMap_cons, protocol.seen_settled settled]
    exact (Interim.ends (protocol.sameSize _ job)).2.append ih
  | here ready rest =>
    rw [List.map_cons, List.flatMap_cons, List.flatMap_cons, List.flatMap_cons, forall₂_seen rest]
    exact (RetryProtocol.seen_ready ready).append (Interim.ends (sameSize_flatMap _ job)).1

end FromCursor

end Instancy.Library
