import Mathlib.Data.List.Forall2

namespace Instancy.Library

variable {A B E : Type}

/-- A sequence succeeds exactly if both of its steps do. -/
theorem bind_eq_ok {result : Except E A} {next : A → Except E B} {value : B} :
    (result >>= next) = .ok value ↔ ∃ middle, result = .ok middle ∧ next middle = .ok value := by
  cases result with
  | error failure =>
    constructor
    · intro failed
      cases failed
    · rintro ⟨_, failed, _⟩
      cases failed
  | ok middle =>
    constructor
    · exact fun done => ⟨middle, rfl, done⟩
    · rintro ⟨_, same, done⟩
      cases same
      exact done

/-- A sequence whose last step never gives a value never gives it. -/
theorem bind_ne_ok {result : Except E A} {next : A → Except E B} {value : B}
    (never : ∀ middle, next middle ≠ .ok value) : (result >>= next) ≠ .ok value := by
  intro done
  obtain ⟨middle, _, last⟩ := bind_eq_ok.mp done
  exact never middle last

/-- A fallible map succeeds exactly with the list of the results. -/
theorem mapM_eq_ok_iff {step : A → Except E B} {items : List A} {results : List B} :
    items.mapM step = .ok results ↔ List.Forall₂ (fun item result => step item = .ok result) items results := by
  induction items generalizing results with
  | nil => simp only [List.mapM_nil, List.forall₂_nil_left_iff, pure, Except.pure, Except.ok.injEq, eq_comm]
  | cons item items ih =>
    rw [List.mapM_cons, List.forall₂_cons_left_iff]
    simp only [bind_eq_ok, ih, pure, Except.pure, Except.ok.injEq]
    constructor
    · rintro ⟨first, done, rest, later, rfl⟩
      exact ⟨first, rest, done, later, rfl⟩
    · rintro ⟨first, rest, done, later, rfl⟩
      exact ⟨first, done, rest, later, rfl⟩

/-- Every result of a partial map comes from one of its items. -/
theorem exists_of_mem_mapM {step : A → Option B} {items : List A} {results : List B}
    (done : items.mapM step = some results) {result : B} (member : result ∈ results) :
    ∃ item ∈ items, step item = some result := by
  induction items generalizing results with
  | nil =>
    cases done
    cases member
  | cons item items ih =>
    rw [List.mapM_cons] at done
    obtain ⟨first, found, done⟩ := Option.bind_eq_some_iff.mp done
    obtain ⟨rest, later, same⟩ := Option.bind_eq_some_iff.mp done
    cases same
    rcases List.mem_cons.mp member with here | there
    · exact ⟨item, List.mem_cons_self, here ▸ found⟩
    · obtain ⟨other, listed, known⟩ := ih later there
      exact ⟨other, List.mem_cons_of_mem item listed, known⟩

/-- A fold that succeeds keeps what each of its steps keeps. -/
theorem foldlM_ok_invariant {step : B → A → Except E B} (holds : B → Prop) (items : List A)
    (keeps : ∀ item ∈ items, ∀ before after, holds before → step before item = .ok after → holds after)
    {start result : B} (began : holds start) (done : items.foldlM step start = .ok result) : holds result := by
  induction items generalizing start with
  | nil =>
    cases done
    exact began
  | cons item rest ih =>
    rw [List.foldlM_cons] at done
    cases first : step start item with
    | error error =>
      rw [first] at done
      cases done
    | ok next =>
      rw [first] at done
      exact ih (fun other member => keeps other (List.mem_cons_of_mem item member))
        (keeps item List.mem_cons_self start next began first) done

/-- A partial fold that has a result keeps what each of its steps keeps. -/
theorem foldlM_some_invariant {step : B → A → Option B} (holds : B → Prop)
    (items : List A) (keeps : ∀ item ∈ items, ∀ before after, holds before → step before item = some after → holds after)
    {start result : B} (began : holds start) (done : items.foldlM step start = some result) : holds result := by
  induction items generalizing start with
  | nil =>
    cases done
    exact began
  | cons item rest ih =>
    obtain ⟨next, first, done⟩ := Option.bind_eq_some_iff.mp done
    exact ih (fun other member => keeps other (List.mem_cons_of_mem item member))
      (keeps item List.mem_cons_self start next began first) done

/-- A program that can fail and that leaves a state in both cases. -/
def Attempt (S E A : Type) := S → Except E A × S

namespace Attempt

variable {S : Type}

/-- The second program runs where the first one ended, unless that one failed. -/
def andThen (first : Attempt S E A) (next : A → Attempt S E B) : Attempt S E B := fun state =>
  match first state with
  | (.ok value, after) => next value after
  | (.error error, after) => (.error error, after)

instance : Monad (Attempt S E) where
  pure value := fun state => (.ok value, state)
  bind := andThen

def fail (error : E) : Attempt S E A := fun state => (.error error, state)

def failIf (condition : Prop) [Decidable condition] (error : E) : Attempt S E Unit :=
  if condition then fail error else pure ()

def modify (change : S → S) : Attempt S E Unit := fun state => (.ok (), change state)

variable {first : Attempt S E A} {state : S} {next : A → Attempt S E B}

theorem bind_ok {after : S} {value : A} (done : first state = (.ok value, after)) :
    (first >>= next) state = next value after := by
  show andThen first next state = _
  rw [andThen, done]

theorem bind_error {after : S} {error : E}
    (failed : first state = (.error error, after)) : (first >>= next) state = (.error error, after) := by
  show andThen first next state = _
  rw [andThen, failed]

/-- A fact holds after a sequence if it holds where its first step fails and where its second step ends. -/
theorem bind_cases {holds : Except E B × S → Prop}
    (fails : ∀ error after, first state = (.error error, after) → holds (.error error, after))
    (goes : ∀ value after, first state = (.ok value, after) → holds (next value after)) :
    holds ((first >>= next) state) := by
  match outcome : first state with
  | (.ok value, after) =>
    rw [bind_ok outcome]
    exact goes value after outcome
  | (.error error, after) =>
    rw [bind_error outcome]
    exact fails error after outcome

theorem modify_bind {change : S → S} {next : Unit → Attempt S E B} :
    (modify change >>= next) state = next () (change state) := rfl

theorem failIf_bind {condition : Prop} [Decidable condition] {error : E} {next : Unit → Attempt S E B} :
    (failIf condition error >>= next) state = if condition then (.error error, state) else next () state := by
  by_cases holds : condition
  · rw [if_pos holds]
    exact bind_error (by rw [failIf, if_pos holds]; rfl)
  · rw [if_neg holds]
    exact bind_ok (by rw [failIf, if_neg holds]; rfl)

end Attempt

end Instancy.Library
