import Instancy.Progress.Reachability.Tables

namespace Instancy

open Library Relation

variable {location : Location}

namespace Builder

variable {S : Type} [UnsignedSummary S] {builder : Builder S} {start : Location}

/-- The location is an input port of an operator. -/
def IsOperatorInput (builder : Builder S) (location : Location) : Prop :=
  builder.IsInput location ∧ location.node ≠ 0

/-- A closed walk through a location: it starts at some place, passes the location and returns in one hop or more. -/
def ClosedWalk (builder : Builder S) (location : Location) (summary : S) : Prop :=
  ∃ place middle before between last back, builder.Walk place location before ∧
    builder.Walk location middle between ∧ (place, last) ∈ builder.hops middle ∧
    followedBy between last = some back ∧ followedBy before back = some summary

variable {summary : S}

section Identity

theorem le_followedBy {first second total : S} (composed : followedBy first second = some total) :
    first ≤ total ∧ second ≤ total := by
  obtain ⟨left, kept, below⟩ := UnsignedSummary.followedBy_mono first first identity second total le_rfl
    (UnsignedSummary.identity_least second) composed
  obtain ⟨right, keptRight, belowRight⟩ := UnsignedSummary.followedBy_mono identity first second second total
    (UnsignedSummary.identity_least first) le_rfl composed
  rw [UnsignedSummary.followedBy_identity, Option.some.injEq] at kept
  rw [UnsignedSummary.identity_followedBy, Option.some.injEq] at keptRight
  exact ⟨kept ▸ below, keptRight ▸ belowRight⟩

/-- A walk that does not advance the time consists of identity hops. -/
theorem Walk.identityHops {origin finish : Location} (walk : builder.Walk origin finish summary)
    (low : summary ≤ identity) : ReflTransGen builder.IdentityHop origin finish := by
  induction walk with
  | empty => exact ReflTransGen.refl
  | snoc walk hop composed ih =>
    obtain ⟨before_le, last_le⟩ := le_followedBy composed
    rw [eq_identity_of_le (last_le.trans low)] at hop
    exact (ih (before_le.trans low)).tail hop

/-- A closed walk that does not advance the time is a cycle of identity hops through each of its locations. -/
theorem ClosedWalk.identityCycle (closed : builder.ClosedWalk location summary)
    (low : summary ≤ identity) : TransGen builder.IdentityHop location location := by
  obtain ⟨place, middle, before, between, last, back, arrive, leave, hop, around, total⟩ := closed
  obtain ⟨before_le, back_le⟩ := le_followedBy total
  obtain ⟨between_le, last_le⟩ := le_followedBy around
  rw [eq_identity_of_le (last_le.trans (back_le.trans low))] at hop
  have returned := TransGen.tail' (leave.identityHops (between_le.trans (back_le.trans low))) hop
  exact returned.trans_left (arrive.identityHops (before_le.trans low))

end Identity

section Found

/-- Every path on the stack is a walk from the start. -/
def CycleSearch.Walks (builder : Builder S) (start : Location) (search : CycleSearch S) : Prop :=
  ∀ path ∈ search.stack, builder.Walk start path.1 path.2

variable {search : CycleSearch S} {visits : List (Location × S)}

theorem CycleSearch.visit_walks (walks : search.Walks builder start)
    (continued : ∀ path ∈ visits, builder.Walk start path.1 path.2)
    {next : CycleSearch S} (visited : CycleSearch.visit start search visits = .ok next) : next.Walks builder start := by
  induction visits generalizing search with
  | nil =>
    cases visited
    exact walks
  | cons path rest ih =>
    have later : ∀ other ∈ rest, builder.Walk start other.1 other.2 :=
      fun other member => continued other (List.mem_cons_of_mem path member)
    unfold CycleSearch.visit at visited
    dsimp only at visited
    split at visited
    · split at visited
      · cases visited
      · exact ih walks later visited
    · split at visited
      · apply ih _ later visited
        intro other member
        rcases List.mem_cons.mp member with same | old
        · rw [same]
          exact continued path List.mem_cons_self
        · exact walks other old
      · apply ih _ later visited
        exact walks

variable {found : Location × S}

/-- A visit ends the search only at a path that returns to the start without advancing. -/
theorem CycleSearch.visit_error (visited : CycleSearch.visit start search visits = .error found) :
    found ∈ visits ∧ found.1 = start ∧ found.2 ≤ identity := by
  induction visits generalizing search with
  | nil => cases visited
  | cons path rest ih =>
    unfold CycleSearch.visit at visited
    dsimp only at visited
    split at visited
    · rename_i returns
      split at visited
      · rename_i closes
        cases visited
        refine ⟨?_, rfl, closes⟩
        rw [← returns]
        exact List.mem_cons_self
      · obtain ⟨member, rest⟩ := ih visited
        exact ⟨List.mem_cons_of_mem path member, rest⟩
    · split at visited
      · obtain ⟨member, rest⟩ := ih visited
        exact ⟨List.mem_cons_of_mem path member, rest⟩
      · obtain ⟨member, rest⟩ := ih visited
        exact ⟨List.mem_cons_of_mem path member, rest⟩

/-- A continuation of a walk is a walk. -/
theorem Walk.continuations (walk : builder.Walk start location summary) :
    ∀ path ∈ builder.continuations location summary, builder.Walk start path.1 path.2 := by
  intro path member
  obtain ⟨last, hop, composed⟩ := mem_continuations.mp member
  exact walk.snoc hop composed

/-- What a search finds is a closed walk through its start that does not advance the time. -/
theorem cycleSearch_found {fuel : Nat} (walks : search.Walks builder start)
    (ended : builder.cycleSearch start fuel search = some (some found)) :
    found.1 = start ∧ found.2 ≤ identity ∧ builder.ClosedWalk start found.2 := by
  induction fuel generalizing search with
  | zero => cases ended
  | succ fuel ih =>
    unfold cycleSearch at ended
    split at ended
    · cases ended
    · rename_i location summary rest stack
      have walk : builder.Walk start location summary := walks (location, summary) (stack ▸ List.mem_cons_self)
      split at ended
      · rename_i visited
        cases ended
        obtain ⟨member, returns, low⟩ := CycleSearch.visit_error visited
        obtain ⟨last, hop, composed⟩ := mem_continuations.mp member
        rw [returns] at hop
        refine ⟨returns, low, ?_⟩
        exact ⟨start, location, identity, summary, last, found.2, Walk.empty, walk, hop, composed,
          UnsignedSummary.identity_followedBy found.2⟩
      · rename_i next visited
        refine ih (CycleSearch.visit_walks (fun path member => ?_) walk.continuations visited) ended
        exact walks path (stack ▸ List.mem_cons_of_mem _ member)

theorem cycleSearches_found {fuel : Nat} {starts : List Location}
    (ended : builder.cycleSearches fuel starts = some (some found)) :
    found.1 ∈ starts ∧ found.2 ≤ identity ∧ builder.ClosedWalk found.1 found.2 := by
  induction starts with
  | nil => cases ended
  | cons first rest ih =>
    unfold cycleSearches at ended
    split at ended
    · cases ended
    · rename_i searched
      cases ended
      have initial : CycleSearch.Walks builder first ⟨fun _ => Antichain.new, [(first, identity)]⟩ := by
        intro path member
        rw [List.mem_singleton.mp member]
        exact Walk.empty
      obtain ⟨returns, low, closed⟩ := cycleSearch_found initial searched
      exact ⟨returns ▸ List.mem_cons_self, low, returns ▸ closed⟩
    · obtain ⟨member, rest⟩ := ih ended
      exact ⟨List.mem_cons_of_mem first member, rest⟩

end Found

section Termination

/-- The locations at which some hop ends. -/
def arrivals (builder : Builder S) : Set Location := {finish | ∃ origin summary, (finish, summary) ∈ builder.hops origin}

theorem arrivals_finite (wellFormed : builder.WellFormed) : builder.arrivals.Finite := by
  refine (builder.locations.flatMap fun origin => (builder.hops origin).map Prod.fst).finite_toSet.subset ?_
  intro finish found
  obtain ⟨origin, summary, hop⟩ := found
  exact List.mem_flatMap.mpr ⟨origin, wellFormed.hop_origin hop, List.mem_map_of_mem hop⟩

/-- What the search has reached, location by location. -/
def CycleSearch.Covers (search : CycleSearch S) (location : Location) (summary : S) : Prop :=
  (search.reached location).lessEqual summary = true

/-- An insertion that is not refused makes its location cover more. -/
theorem CycleSearch.insert_grows {keys : Set Location} (search : CycleSearch S)
    (inside : location ∈ keys) (stack : List (Location × S))
    (inserted : ((search.reached location).insert summary).1 = true) :
    Grows keys (CycleSearch.Covers ⟨Function.update search.reached location
      ((search.reached location).insert summary).2, stack⟩) search.Covers := by
  have covers : ∀ place item, CycleSearch.Covers ⟨Function.update search.reached location
      ((search.reached location).insert summary).2, stack⟩ place item ↔
      search.Covers place item ∨ (place = location ∧ summary ≤ item) := by
    intro place item
    unfold CycleSearch.Covers
    by_cases same : place = location
    · subst same
      simp only [Function.update_self, Antichain.insert_lessEqual, true_and]
    · simp only [Function.update_of_ne same, same, false_and, or_false]
  refine ⟨fun _ _ _ below covered => Antichain.lessEqual_mono covered below,
    fun place item covered => (covers place item).mpr (Or.inl covered), location, inside, summary,
    (covers location summary).mpr (Or.inr ⟨rfl, le_rfl⟩), fun covered => ?_⟩
  unfold Antichain.insert at inserted
  rw [dif_pos (show (search.reached location).lessEqual summary = true from covered)] at inserted
  cases inserted

/-- A visit leaves the search as it is or makes it cover more. -/
theorem CycleSearch.visit_grows {keys : Set Location} {search next : CycleSearch S} {visits : List (Location × S)}
    (inside : ∀ path ∈ visits, path.1 ∈ keys) (visited : CycleSearch.visit start search visits = .ok next) :
    next = search ∨ Grows keys next.Covers search.Covers := by
  induction visits generalizing search with
  | nil =>
    cases visited
    exact Or.inl rfl
  | cons path rest ih =>
    obtain ⟨location, summary⟩ := path
    have later : ∀ other ∈ rest, other.1 ∈ keys := fun other member => inside other (List.mem_cons_of_mem _ member)
    unfold CycleSearch.visit at visited
    dsimp only at visited
    split at visited
    · split at visited
      · cases visited
      · exact ih later visited
    · split at visited
      · rename_i inserted
        have grown := search.insert_grows (inside (location, summary) List.mem_cons_self)
          ((location, summary) :: search.stack) inserted
        rcases ih later visited with same | more
        · rw [same]
          exact Or.inr grown
        · exact Or.inr (more.trans grown)
      · rename_i refused
        obtain ⟨unchanged, _⟩ := Antichain.insert_refused (Bool.eq_false_iff.mpr refused)
        rw [unchanged, Function.update_eq_self] at visited
        exact ih later visited

/-- A search ends, because every round makes it cover more or shortens its stack. -/
theorem cycleSearch_terminates [WellQuasiOrderedLE S] (wellFormed : builder.WellFormed) (start : Location)
    (search : CycleSearch S) :
    ∃ bound result, ∀ fuel, bound ≤ fuel → builder.cycleSearch start fuel search = some result := by
  have lex := WellFounded.prod_lex (grows_wellFounded (S := S) (arrivals_finite wellFormed))
    (wellFounded_lt : WellFounded ((· < ·) : Nat → Nat → Prop))
  have measured := InvImage.wf (fun search : CycleSearch S => (search.Covers, search.stack.length)) lex
  induction search using measured.induction with
  | _ search ih =>
    cases stack : search.stack with
    | nil =>
      refine ⟨1, none, fun fuel enough => ?_⟩
      obtain ⟨more, same⟩ : ∃ more, fuel = more + 1 := ⟨fuel - 1, by omega⟩
      subst same
      simp only [cycleSearch, stack]
    | cons path rest =>
      obtain ⟨location, summary⟩ := path
      cases visited : CycleSearch.visit start ⟨search.reached, rest⟩ (builder.continuations location summary) with
      | error found =>
        refine ⟨1, some found, fun fuel enough => ?_⟩
        obtain ⟨more, same⟩ : ∃ more, fuel = more + 1 := ⟨fuel - 1, by omega⟩
        subst same
        simp only [cycleSearch, stack, visited]
      | ok next =>
        have inside : ∀ path ∈ builder.continuations location summary, path.1 ∈ builder.arrivals := by
          intro path member
          obtain ⟨last, hop, _⟩ := mem_continuations.mp member
          exact ⟨location, last, hop⟩
        obtain ⟨bound, result, ended⟩ := ih next (by
          rcases CycleSearch.visit_grows inside visited with same | grown
          · refine Prod.lex_def.mpr (Or.inr ⟨?_, ?_⟩)
            · rw [same]
              rfl
            · dsimp only
              rw [same, stack]
              exact Nat.lt_succ_self rest.length
          · exact Prod.lex_def.mpr (Or.inl grown))
        refine ⟨bound + 1, result, fun fuel enough => ?_⟩
        obtain ⟨more, same⟩ : ∃ more, fuel = more + 1 := ⟨fuel - 1, by omega⟩
        subst same
        simp only [cycleSearch, stack, visited]
        exact ended more (by omega)

theorem cycleSearches_terminates [WellQuasiOrderedLE S] (wellFormed : builder.WellFormed) (starts : List Location) :
    ∃ bound result, ∀ fuel, bound ≤ fuel → builder.cycleSearches fuel starts = some result := by
  induction starts with
  | nil => exact ⟨0, none, fun _ _ => rfl⟩
  | cons first rest ih =>
    obtain ⟨bound, result, ended⟩ :=
      cycleSearch_terminates wellFormed first ⟨fun _ => Antichain.new, [(first, identity)]⟩
    obtain ⟨restBound, restResult, restEnded⟩ := ih
    cases result with
    | some found =>
      refine ⟨bound, some found, fun fuel enough => ?_⟩
      rw [cycleSearches, ended fuel enough]
    | none =>
      refine ⟨max bound restBound, restResult, fun fuel enough => ?_⟩
      rw [cycleSearches, ended fuel (by omega)]
      exact restEnded fuel (by omega)

end Termination

theorem mem_cycleStarts : location ∈ builder.cycleStarts ↔ builder.IsOperatorInput location := by
  unfold cycleStarts IsOperatorInput
  simp only [List.mem_flatMap, List.mem_range'_1, List.mem_map, List.mem_range]
  constructor
  · intro found
    obtain ⟨node, inRange, port, bound, same⟩ := found
    subst same
    exact ⟨target_mem_locations.mpr ⟨by omega, bound⟩, by change node ≠ 0; omega⟩
  · intro input
    obtain ⟨isInput, operator⟩ := input
    cases location with
    | source node port => exact isInput.elim
    | target node port =>
      obtain ⟨registered, bound⟩ := target_mem_locations.mp isInput
      have positive : node ≠ 0 := operator
      exact ⟨node, by omega, port, bound, rfl⟩

/-- The search ends on every graph, and it finds a location on a closed walk that does not advance the time exactly when
there is such a walk through an operator input. -/
theorem findIdentityCycle_exact [WellQuasiOrderedLE S] (assembled : Assembled builder) :
    ∃ bound result, (∀ fuel, bound ≤ fuel → builder.findIdentityCycle fuel = some result) ∧
      ((∃ location summary, result = some (location, summary)) ↔ ∃ location summary,
        builder.IsOperatorInput location ∧ builder.ClosedWalk location summary ∧ summary ≤ identity) ∧
      ∀ location summary, result = some (location, summary) →
        builder.IsOperatorInput location ∧ builder.ClosedWalk location summary ∧ summary ≤ identity := by
  obtain ⟨bound, result, ended⟩ := cycleSearches_terminates assembled.wellFormed builder.cycleStarts
  have finished := ended bound le_rfl
  have found : ∀ location summary, result = some (location, summary) →
      builder.IsOperatorInput location ∧ builder.ClosedWalk location summary ∧ summary ≤ identity := by
    intro location summary same
    rw [same] at finished
    obtain ⟨member, low, closed⟩ := cycleSearches_found finished
    exact ⟨mem_cycleStarts.mp member, closed, low⟩
  refine ⟨bound, result, ended, ⟨fun some => ?_, fun cycle => ?_⟩, found⟩
  · obtain ⟨location, summary, same⟩ := some
    exact ⟨location, summary, found location summary same⟩
  · obtain ⟨location, summary, input, closed, low⟩ := cycle
    cases result with
    | some path => exact ⟨path.1, path.2, rfl⟩
    | none => exact absurd (closed.identityCycle low) (cycleSearches_none finished location (mem_cycleStarts.mpr input))

theorem lapped_identityCycle :
    ∃ bound result, (∀ fuel, bound ≤ fuel → (lapped innerLap).findIdentityCycle fuel = some result) ∧
      ((∃ location summary, result = some (location, summary)) ↔ ∃ location summary,
        (lapped innerLap).IsOperatorInput location ∧ (lapped innerLap).ClosedWalk location summary ∧ summary ≤ identity) ∧
      ∀ location summary, result = some (location, summary) →
        (lapped innerLap).IsOperatorInput location ∧ (lapped innerLap).ClosedWalk location summary ∧ summary ≤ identity :=
  findIdentityCycle_exact (lapped_assembled innerLap)

end Builder

end Instancy
