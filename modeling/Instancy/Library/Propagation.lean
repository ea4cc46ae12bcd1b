import Instancy.Library.Frontier

namespace Instancy.Library

open Relation

variable {L T : Type} {step : L × T → L × T → Prop}

/-- This predicate holds at the times that some held pointstamp can reach. -/
def Reached (step : L × T → L × T → Prop) (holds : L → T → Prop) (location : L) (time : T) : Prop :=
  ∃ origin start, holds origin start ∧ ReflTransGen step (origin, start) (location, time)

variable {holds : L → T → Prop}

theorem Reached.of_step {origin location : L} {start time : T}
    (reached : Reached step holds origin start) (taken : step (origin, start) (location, time)) :
    Reached step holds location time := by
  obtain ⟨first, early, held, walk⟩ := reached
  exact ⟨first, early, held, walk.tail taken⟩

theorem Reached.of_holds {location : L} {time : T} (held : holds location time) :
    Reached step holds location time := ⟨location, time, held, ReflTransGen.refl⟩

variable [PartialOrder T]

/-- An earlier time at the start of a step gives an earlier time at its end. -/
def StepMonotone (step : L × T → L × T → Prop) : Prop :=
  ∀ ⦃origin : L⦄ ⦃early late : T⦄ ⦃goal : L⦄ ⦃result : T⦄, early ≤ late → step (origin, late) (goal, result) →
    ∃ lower ≤ result, step (origin, early) (goal, lower)

/-- Each frontier is the frontier of its seeds and of what arrives from other frontiers. -/
def LocallyExact (step : L × T → L × T → Prop) (seeds frontier : L → List T) : Prop :=
  ∀ location, IsFrontier (frontier location) fun time =>
    time ∈ seeds location ∨ ∃ origin start, start ∈ frontier origin ∧ step (origin, start) (location, time)

variable {seeds frontier : L → List T}

/-- A walk from an earlier time ends at an earlier time. -/
theorem StepMonotone.walk (monotone : StepMonotone step) {origin location : L} {early late time : T}
    (ordered : early ≤ late) (walk : ReflTransGen step (origin, late) (location, time)) :
    ∃ lower ≤ time, ReflTransGen step (origin, early) (location, lower) := by
  -- The induction is on the walk, whose end is generalised to a pair.
  generalize same : (location, time) = finish at walk
  induction walk generalizing location time with
  | refl =>
    cases same
    exact ⟨early, ordered, ReflTransGen.refl⟩
  | tail _ last ih =>
    rename_i middle finish _
    obtain ⟨place, instant⟩ := middle
    subst same
    obtain ⟨lower, below, shorter⟩ := ih rfl
    obtain ⟨lowest, under, taken⟩ := monotone below last
    exact ⟨lowest, under, shorter.tail taken⟩

section

variable (isExact : LocallyExact step seeds frontier)
include isExact

/-- Every reached time has a frontier element at or below it. -/
theorem LocallyExact.covers (monotone : StepMonotone step)
    {origin location : L} {start time : T} (seeded : start ∈ seeds origin)
    (walk : ReflTransGen step (origin, start) (location, time)) : ∃ below ∈ frontier location, below ≤ time := by
  generalize same : (location, time) = finish at walk
  induction walk generalizing location time with
  | refl =>
    cases same
    exact (isExact origin).covers start (Or.inl seeded)
  | tail _ last ih =>
    rename_i middle finish _
    obtain ⟨place, instant⟩ := middle
    subst same
    obtain ⟨below, member, under⟩ := ih rfl
    obtain ⟨lower, low, taken⟩ := monotone under last
    obtain ⟨least, found, least_le⟩ := (isExact location).covers lower (Or.inr ⟨place, below, member, taken⟩)
    exact ⟨least, found, least_le.trans low⟩

/-- Without endless chains of steps, every frontier element comes from a seed. -/
theorem LocallyExact.sound (wellFounded : WellFounded step)
    (location : L) (time : T) (member : time ∈ frontier location) :
    Reached step (fun origin start => start ∈ seeds origin) location time := by
  generalize same : (location, time) = finish
  induction finish using wellFounded.induction generalizing location time with
  | _ finish ih =>
    subst same
    rcases (isExact location).sound time member with seeded | arrived
    · exact Reached.of_holds seeded
    · obtain ⟨origin, start, found, taken⟩ := arrived
      exact (ih (origin, start) taken origin start found rfl).of_step taken

/-- Locally exact frontiers are the frontiers of everything the seeds reach. -/
theorem LocallyExact.isFrontier (monotone : StepMonotone step) (wellFounded : WellFounded step) (location : L) :
    IsFrontier (frontier location) (Reached step (fun origin start => start ∈ seeds origin) location) := by
  refine ⟨(isExact location).incomparable, isExact.sound wellFounded location, fun time reached => ?_⟩
  obtain ⟨origin, start, seeded, walk⟩ := reached
  exact isExact.covers monotone seeded walk

/-- Seeds that are themselves frontiers stand for every held pointstamp. -/
theorem LocallyExact.isFrontier_of_holds (monotone : StepMonotone step) (wellFounded : WellFounded step)
    (seedFrontier : ∀ origin, IsFrontier (seeds origin) (holds origin)) (location : L) :
    IsFrontier (frontier location) (Reached step holds location) := by
  have fromSeeds := isExact.isFrontier monotone wellFounded location
  refine ⟨fromSeeds.incomparable, fun time member => ?_, fun time reached => ?_⟩
  · obtain ⟨origin, start, seeded, walk⟩ := fromSeeds.sound time member
    exact ⟨origin, start, (seedFrontier origin).sound start seeded, walk⟩
  · obtain ⟨origin, start, held, walk⟩ := reached
    obtain ⟨seed, seeded, below⟩ := (seedFrontier origin).covers start held
    obtain ⟨lower, under, earlier⟩ := monotone.walk below walk
    obtain ⟨least, found, least_le⟩ := fromSeeds.covers lower ⟨origin, seed, seeded, earlier⟩
    exact ⟨least, found, least_le.trans under⟩

end

end Instancy.Library
