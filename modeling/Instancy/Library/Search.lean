import Instancy.Library.Loop

namespace Instancy.Library

open Relation

variable {V : Type} [DecidableEq V]

/-- The places that a search still has to look at and those that it has seen. -/
structure Search (V : Type) where
  stack : List V
  seen : List V

/-- The ends of the edges that start at a place. -/
def successors (edges : List (V × V)) (place : V) : List V :=
  (edges.filter fun edge => edge.1 = place).map Prod.snd

theorem mem_successors {edges : List (V × V)} {place next : V} :
    next ∈ successors edges place ↔ (place, next) ∈ edges := by
  simp [successors]

namespace Search

/-- One round pops a place; a place that is seen for the first time pushes the ends of its edges. -/
def step (edges : List (V × V)) (search : Search V) : Option (Search V) :=
  match search.stack with
  | [] => none
  | place :: rest =>
    if place ∈ search.seen then some { search with stack := rest }
    else some { stack := (successors edges place).reverse ++ rest, seen := place :: search.seen }

/-- The search has only met what the seeds reach, and what is next to a seen place is met. -/
structure Sound (edges : List (V × V)) (seeds : List V) (search : Search V) : Prop where
  reached : ∀ place, place ∈ search.stack ∨ place ∈ search.seen →
    ∃ seed ∈ seeds, ReflTransGen (fun before after => (before, after) ∈ edges) seed place
  seeded : ∀ seed ∈ seeds, seed ∈ search.stack ∨ seed ∈ search.seen
  closed : ∀ place ∈ search.seen, ∀ next, (place, next) ∈ edges → next ∈ search.stack ∨ next ∈ search.seen

/-- The pops that are left: the stack, and the edges that are not followed yet. -/
def rounds (edges : List (V × V)) (search : Search V) : Nat :=
  search.stack.length + edges.countP fun edge => edge.1 ∉ search.seen

variable {edges : List (V × V)} {seeds : List V} {search next : Search V}

theorem Sound.step (sound : Sound edges seeds search) (taken : search.step edges = some next) :
    Sound edges seeds next := by
  unfold Search.step at taken
  split at taken
  · cases taken
  · rename_i place rest shape
    have inStack : ∀ other, other ∈ search.stack ↔ other = place ∨ other ∈ rest := by
      intro other
      rw [shape, List.mem_cons]
    split at taken
    · rename_i old
      cases taken
      -- A place that was seen before only leaves the stack.
      have moved : ∀ other, other ∈ search.stack ∨ other ∈ search.seen → other ∈ rest ∨ other ∈ search.seen := by
        intro other met
        rw [inStack] at met
        rcases met with (same | later) | seen
        · exact Or.inr (same ▸ old)
        · exact Or.inl later
        · exact Or.inr seen
      refine ⟨fun other met => sound.reached other (met.imp_left fun later => (inStack other).mpr (Or.inr later)),
        fun seed member => moved seed (sound.seeded seed member),
        fun seen member other edge => moved other (sound.closed seen member other edge)⟩
    · cases taken
      have moved : ∀ other, other ∈ search.stack ∨ other ∈ search.seen →
          other ∈ (successors edges place).reverse ++ rest ∨ other ∈ place :: search.seen := by
        intro other met
        rw [inStack] at met
        simp only [List.mem_append, List.mem_cons]
        tauto
      refine ⟨fun other met => ?_, fun seed member => moved seed (sound.seeded seed member),
        fun seen member other edge => ?_⟩
      · simp only [List.mem_append, List.mem_reverse, mem_successors, List.mem_cons] at met
        rcases met with (edge | later) | same | seen
        · obtain ⟨seed, member, walk⟩ := sound.reached place (Or.inl ((inStack place).mpr (Or.inl rfl)))
          exact ⟨seed, member, walk.tail edge⟩
        · exact sound.reached other (Or.inl ((inStack other).mpr (Or.inr later)))
        · exact sound.reached other (Or.inl ((inStack other).mpr (Or.inl same)))
        · exact sound.reached other (Or.inr seen)
      · rcases List.mem_cons.mp member with same | old
        · subst same
          simp [mem_successors, edge]
        · exact moved other (sound.closed seen old other edge)

theorem rounds_step (taken : search.step edges = some next) : next.rounds edges < search.rounds edges := by
  unfold Search.step at taken
  split at taken
  · cases taken
  · rename_i place rest shape
    split at taken
    · cases taken
      simp [rounds, shape]
    · rename_i fresh
      cases taken
      -- The edges that are pushed are exactly those that stop being counted.
      have split : edges.countP (fun edge => edge.1 ∉ place :: search.seen) +
          edges.countP (fun edge => edge.1 = place) = edges.countP fun edge => edge.1 ∉ search.seen := by
        induction edges with
        | nil => rfl
        | cons edge others ih =>
          simp only [List.countP_cons, List.mem_cons, not_or, decide_eq_true_eq] at ih ⊢
          by_cases same : edge.1 = place
          · simp only [same, fresh, not_true_eq_false, false_and, if_false, not_false_eq_true, if_true]
            omega
          · simp only [same, not_false_eq_true, true_and, if_false]
            omega
      simp only [rounds, shape, successors, List.length_append, List.length_reverse, List.length_map,
        List.length_cons, ← List.countP_eq_length_filter]
      omega

end Search

/-- Everything that the seeds reach along the edges. -/
def searchFrom (edges : List (V × V)) (fuel : Nat) (seeds : List V) : Option (List V) :=
  (loop (Search.step edges) fuel ⟨seeds.reverse, []⟩).map Search.seen

theorem searchFrom_mono {edges : List (V × V)} {seeds seen : List V} {fuel more : Nat} (enough : fuel ≤ more)
    (ended : searchFrom edges fuel seeds = some seen) : searchFrom edges more seeds = some seen := by
  obtain ⟨result, looped, same⟩ := Option.map_eq_some_iff.mp ended
  rw [searchFrom, loop_mono enough looped, Option.map_some, same]

/-- With enough fuel a search finds exactly what the seeds reach. -/
theorem searchFrom_spec (edges : List (V × V)) (seeds : List V) :
    ∃ bound seen, (∀ fuel, bound ≤ fuel → searchFrom edges fuel seeds = some seen) ∧
      ∀ place, place ∈ seen ↔
        ∃ seed ∈ seeds, ReflTransGen (fun before after => (before, after) ∈ edges) seed place := by
  have start : Search.Sound edges seeds ⟨seeds.reverse, []⟩ := by
    refine ⟨fun place met => ?_, fun seed member => Or.inl (List.mem_reverse.mpr member),
      nofun⟩
    rcases met with waiting | seen
    · exact ⟨place, List.mem_reverse.mp waiting, ReflTransGen.refl⟩
    · cases seen
  obtain ⟨bound, result, ended⟩ := loop_terminates (Search.Sound edges seeds)
    (InvImage.wf (Search.rounds edges) Nat.lt_wfRel.wf) (fun _ _ sound taken => sound.step taken)
    (fun _ _ _ taken => Search.rounds_step taken) _ start
  obtain ⟨sound, stuck⟩ := loop_invariant (Search.Sound edges seeds) (fun _ _ held taken => held.step taken) start
    (ended bound le_rfl)
  have empty : result.stack = [] := by
    unfold Search.step at stuck
    split at stuck
    · assumption
    · split at stuck <;> cases stuck
  have met : ∀ place, place ∈ result.stack ∨ place ∈ result.seen ↔ place ∈ result.seen := by
    simp [empty]
  refine ⟨bound, result.seen, fun fuel enough => by rw [searchFrom, ended fuel enough]; rfl, fun place => ?_⟩
  constructor
  · intro member
    exact sound.reached place (Or.inr member)
  · intro reached
    obtain ⟨seed, member, walk⟩ := reached
    induction walk with
    | refl => exact (met seed).mp (sound.seeded seed member)
    | tail _ edge ih => exact (met _).mp (sound.closed _ ih _ edge)

end Instancy.Library
