import Instancy.Progress.Reachability.Tracker
import Instancy.Library.Propagation

namespace Instancy

open Library Relation

variable {finish : Location} {origin : Location}

namespace Builder

variable {T S : Type} [PathSummary S]

/-- One hop is an internal path of an operator or an edge, with its summary. -/
def hops (builder : Builder S) : Location → List (Location × S)
  | .target node port =>
    match builder.nodes node with
    | none => []
    | some connectivity =>
      (List.range (builder.shape node).2).flatMap fun output =>
        (connectivity.path port output).elements.map fun summary => (.source node output, summary)
  | .source node port => (builder.edges node port).map fun edge => (edge, identity)

/-- A walk composes the summaries of its hops. -/
inductive Walk (builder : Builder S) (origin : Location) : Location → S → Prop where
  | empty : Walk builder origin origin identity
  | snoc {middle finish : Location} {summary last total : S} (walk : Walk builder origin middle summary)
      (hop : (finish, last) ∈ builder.hops middle) (composed : followedBy summary last = some total) :
      Walk builder origin finish total

/-- A hop takes a pointstamp to the next location at its resulting time. -/
def Step [Timestamp T S] (builder : Builder S) (before after : Location × T) : Prop :=
  ∃ summary, (after.1, summary) ∈ builder.hops before.1 ∧ resultsIn summary before.2 = some after.2

/-- These facts hold of every assembled builder. -/
structure WellFormed (builder : Builder S) : Prop where
  shape_of_node : ∀ node connectivity, builder.nodes node = some connectivity →
    node < builder.numNodes ∧ (connectivity.inputs, connectivity.outputs) = builder.shape node
  edge_source : ∀ node port, builder.edges node port ≠ [] →
    node < builder.numNodes ∧ port < (builder.shape node).2
  boundary : builder.nodes 0 = some (PortConnectivity.new builder.scopeOutputs builder.scopeInputs)

theorem mem_locations (builder : Builder S) (location : Location) :
    location ∈ builder.locations ↔ location.node < builder.numNodes ∧ location ∈ builder.portsOf location.node := by
  unfold locations portsOf
  simp only [List.mem_flatMap, List.mem_range, List.mem_append, List.mem_map]
  constructor
  · intro found
    obtain ⟨node, inside, ⟨port, bound, same⟩ | ⟨port, bound, same⟩⟩ := found
    · subst same
      exact ⟨inside, Or.inl ⟨port, bound, rfl⟩⟩
    · subst same
      exact ⟨inside, Or.inr ⟨port, bound, rfl⟩⟩
  · intro found
    exact ⟨location.node, found.1, found.2⟩

theorem target_mem_locations {builder : Builder S} {node port : Nat} :
    Location.target node port ∈ builder.locations ↔ node < builder.numNodes ∧ port < (builder.shape node).1 := by
  rw [mem_locations]
  simp [Location.node, portsOf]

theorem source_mem_locations {builder : Builder S} {node port : Nat} :
    Location.source node port ∈ builder.locations ↔ node < builder.numNodes ∧ port < (builder.shape node).2 := by
  rw [mem_locations]
  simp [Location.node, portsOf]

theorem locations_nodup (builder : Builder S) : builder.locations.Nodup := by
  unfold locations portsOf
  rw [List.nodup_flatMap]
  constructor
  · intro node _
    rw [List.nodup_append]
    refine ⟨List.nodup_range.map fun _ _ same => by cases same; rfl,
      List.nodup_range.map fun _ _ same => by cases same; rfl, ?_⟩
    intro first isTarget second isSource same
    obtain ⟨_, _, left⟩ := List.mem_map.mp isTarget
    obtain ⟨_, _, right⟩ := List.mem_map.mp isSource
    rw [← left, ← right] at same
    cases same
  · refine List.nodup_range.imp fun {first second} apart => ?_
    intro location left right
    apply apart
    simp only [List.mem_append, List.mem_map] at left right
    rcases left with ⟨_, _, left⟩ | ⟨_, _, left⟩ <;> rcases right with ⟨_, _, right⟩ | ⟨_, _, right⟩ <;>
      cases left <;> cases right <;> rfl

theorem addNode_ok {builder next : Builder S} {index inputs outputs : Nat} {summary : PortConnectivity S}
    (added : builder.addNode index inputs outputs summary = .ok next) :
    summary.inputs = inputs ∧ summary.outputs = outputs ∧
      next = { builder with
        numNodes := max builder.numNodes (index + 1)
        shape := Function.update builder.shape index (inputs, outputs)
        edges := Function.update builder.edges index fun _ => []
        nodes := Function.update builder.nodes index (some summary) } := by
  unfold addNode at added
  dsimp only at added
  split at added
  · cases added
  · rename_i sameInputs
    split at added
    · cases added
    · rename_i sameOutputs
      cases added
      exact ⟨not_not.mp sameInputs, not_not.mp sameOutputs, rfl⟩

theorem addEdge_ok {builder next : Builder S} {source target : Location}
    (added : builder.addEdge source target = .ok next) :
    next = builder ∨ ∃ node port, source = .source node port ∧
      node < builder.numNodes ∧ port < (builder.shape node).2 ∧
      next = { builder with
        edges := Function.update builder.edges node
          (Function.update (builder.edges node) port (builder.edges node port ++ [target])) } := by
  unfold addEdge at added
  split at added
  · cases added
    exact Or.inl rfl
  · rename_i node port
    dsimp only at added
    split at added
    · rename_i inside
      cases added
      exact Or.inr ⟨node, port, rfl, inside.1, inside.2, rfl⟩
    · cases added

theorem Assembled.wellFormed {builder : Builder S} (assembled : Assembled builder) : builder.WellFormed := by
  induction assembled with
  | new scopeInputs scopeOutputs =>
    refine ⟨fun node connectivity found => ?_, fun node port some => absurd rfl some, rfl⟩
    change (if node = 0 then _ else none) = _ at found
    split at found
    · rename_i boundary
      cases found
      subst boundary
      exact ⟨Nat.zero_lt_one, rfl⟩
    · cases found
  | addNode assembled operator added ih =>
    rename_i builder next index inputs outputs summary
    obtain ⟨sameInputs, sameOutputs, result⟩ := addNode_ok added
    subst result
    refine ⟨fun node connectivity found => ?_, fun node port some => ?_, ?_⟩
    · by_cases same : node = index
      · subst node
        simp only [Function.update_self, Option.some.injEq] at found ⊢
        subst found
        exact ⟨by omega, Prod.ext sameInputs sameOutputs⟩
      · simp only [Function.update_of_ne same] at found ⊢
        obtain ⟨inside, dims⟩ := ih.shape_of_node node connectivity found
        exact ⟨by omega, dims⟩
    · by_cases same : node = index
      · subst node
        simp only [Function.update_self] at some
        exact absurd rfl some
      · simp only [Function.update_of_ne same] at some ⊢
        obtain ⟨inside, bound⟩ := ih.edge_source node port some
        exact ⟨by omega, bound⟩
    · have apart : 0 ≠ index := by omega
      simp only [Function.update_of_ne apart]
      exact ih.boundary
  | addEdge assembled added ih =>
    rcases addEdge_ok added with same | ⟨origin, port, _, inside, bound, result⟩
    · exact same ▸ ih
    · subst result
      refine ⟨ih.shape_of_node, fun node output some => ?_, ih.boundary⟩
      by_cases sameNode : node = origin
      · subst node
        by_cases samePort : output = port
        · subst output
          exact ⟨inside, bound⟩
        · simp only [Function.update_self, Function.update_of_ne samePort] at some
          exact ih.edge_source origin output some
      · simp only [Function.update_of_ne sameNode] at some
        exact ih.edge_source node output some

/-- The contract of `add_edge` is a finite check over the registered ports. -/
theorem WellFormed.edgesReachInputs {builder : Builder S} (wellFormed : builder.WellFormed)
    (checked : ∀ node ∈ List.range builder.numNodes, ∀ port ∈ List.range (builder.shape node).2,
      ∀ edge ∈ builder.edges node port, builder.IsInput edge) : builder.EdgesReachInputs := by
  intro node port edge member
  obtain ⟨inside, bound⟩ := wellFormed.edge_source node port (List.ne_nil_of_mem member)
  exact checked node (List.mem_range.mpr inside) port (List.mem_range.mpr bound) edge member

section Hops

variable {summary : S}

theorem mem_hops_target {builder : Builder S} {node port : Nat} :
    (finish, summary) ∈ builder.hops (.target node port) ↔
      ∃ connectivity output, builder.nodes node = some connectivity ∧ output < (builder.shape node).2 ∧
        finish = .source node output ∧ summary ∈ (connectivity.path port output).elements := by
  cases found : builder.nodes node with
  | none => simp [hops, found]
  | some connectivity =>
    simp only [hops, found, List.mem_flatMap, List.mem_range, List.mem_map, Prod.mk.injEq, Option.some.injEq]
    constructor
    · intro hop
      obtain ⟨output, inside, element, member, sameLocation, sameSummary⟩ := hop
      exact ⟨connectivity, output, rfl, inside, sameLocation.symm, sameSummary ▸ member⟩
    · intro hop
      obtain ⟨_, output, same, inside, sameLocation, member⟩ := hop
      subst same
      exact ⟨output, inside, summary, member, sameLocation.symm, rfl⟩

theorem mem_hops_source {builder : Builder S} {node port : Nat} :
    (finish, summary) ∈ builder.hops (.source node port) ↔
      finish ∈ builder.edges node port ∧ summary = identity := by
  unfold hops
  simp only [List.mem_map, Prod.mk.injEq]
  constructor
  · intro hop
    obtain ⟨edge, member, sameEdge, sameSummary⟩ := hop
    exact ⟨sameEdge ▸ member, sameSummary.symm⟩
  · intro hop
    exact ⟨finish, hop.1, rfl, hop.2.symm⟩

variable {builder : Builder S} (wellFormed : builder.WellFormed)

include wellFormed

/-- A hop starts at a registered port. -/
theorem WellFormed.hop_origin (hop : (finish, summary) ∈ builder.hops origin) : origin ∈ builder.locations := by
  cases origin with
  | target node port =>
    obtain ⟨connectivity, output, found, _, _, member⟩ := mem_hops_target.mp hop
    obtain ⟨inside, dims⟩ := wellFormed.shape_of_node node connectivity found
    rw [target_mem_locations, ← dims]
    refine ⟨inside, ?_⟩
    by_contra outside
    rw [connectivity.outside port output fun bounds => outside bounds.1] at member
    exact List.not_mem_nil member
  | source node port =>
    obtain ⟨member, _⟩ := mem_hops_source.mp hop
    rw [source_mem_locations]
    exact wellFormed.edge_source node port (List.ne_nil_of_mem member)

/-- A hop ends at a registered port. -/
theorem WellFormed.hop_finish (reach : builder.EdgesReachInputs) (hop : (finish, summary) ∈ builder.hops origin) :
    finish ∈ builder.locations := by
  cases origin with
  | target node port =>
    obtain ⟨connectivity, output, found, inside, same, _⟩ := mem_hops_target.mp hop
    rw [same, source_mem_locations]
    exact ⟨(wellFormed.shape_of_node node connectivity found).1, inside⟩
  | source node port =>
    have input := reach node port finish (mem_hops_source.mp hop).1
    cases finish with
    | target next port => exact input
    | source next port => exact input.elim

/-- A hop from an input port belongs to an operator, because the boundary node has no paths. -/
theorem WellFormed.hop_target_operator {node port : Nat} (hop : (finish, summary) ∈ builder.hops (.target node port)) :
    .target node port ∈ builder.cycleStarts := by
  have registered := target_mem_locations.mp (wellFormed.hop_origin hop)
  have operator : node ≠ 0 := by
    intro boundary
    subst boundary
    obtain ⟨connectivity, output, found, _, _, member⟩ := mem_hops_target.mp hop
    rw [wellFormed.boundary] at found
    cases found
    exact List.not_mem_nil member
  unfold cycleStarts
  simp only [List.mem_flatMap, List.mem_range'_1, List.mem_map, List.mem_range]
  exact ⟨node, by omega, port, registered.2, rfl⟩

end Hops

section Steps

variable {S : Type} [UnsignedSummary S] [UnsignedTimestamp T S] {builder : Builder S}

theorem mem_forward {tables : PathTables S} {time result : T} :
    (finish, result) ∈ (builder.topology tables).forward origin time ↔
      builder.Step (origin, time) (finish, result) := by
  unfold Step
  cases origin with
  | target node port =>
    simp only [mem_hops_target]
    change _ ∈ (builder.targetSummaries node port).flatMap _ ↔ _
    cases found : builder.nodes node with
    | none => simp [targetSummaries, found]
    | some connectivity =>
      simp only [targetSummaries, found, List.mem_flatMap, List.mem_filterMap, List.mem_range, Option.map_eq_some_iff, Prod.mk.injEq,
        Option.some.injEq]
      constructor
      · intro arrival
        obtain ⟨path, ⟨output, inside, chosen⟩, summary, member, value, moved, sameLocation, sameTime⟩ := arrival
        split at chosen
        · cases chosen
        · cases chosen
          exact ⟨summary, ⟨connectivity, output, rfl, inside, sameLocation.symm, member⟩, sameTime ▸ moved⟩
      · intro step
        obtain ⟨summary, ⟨_, output, same, inside, sameLocation, member⟩, moved⟩ := step
        subst same
        refine ⟨(.source node output, connectivity.path port output), ⟨output, inside, ?_⟩, summary, member,
          result, moved, sameLocation.symm, rfl⟩
        rw [if_neg]
        intro empty
        rw [List.isEmpty_iff.mp empty] at member
        exact List.not_mem_nil member
  | source node port =>
    simp only [mem_hops_source]
    change _ ∈ (builder.sourceSummaries node port).map _ ↔ _
    unfold sourceSummaries
    simp only [List.map_map, List.mem_map, Function.comp, Prod.mk.injEq]
    constructor
    · intro arrival
      obtain ⟨edge, member, sameEdge, sameTime⟩ := arrival
      refine ⟨identity, ⟨sameEdge ▸ member, rfl⟩, ?_⟩
      rw [UnsignedTimestamp.resultsIn_identity, sameTime]
    · intro step
      obtain ⟨summary, ⟨member, same⟩, moved⟩ := step
      rw [same, UnsignedTimestamp.resultsIn_identity, Option.some.injEq] at moved
      exact ⟨finish, member, rfl, moved⟩

theorem step_monotone (builder : Builder S) : StepMonotone (builder.Step (T := T)) := by
  intro origin early late goal result ordered step
  obtain ⟨summary, hop, moved⟩ := step
  obtain ⟨lower, earlier, below⟩ := UnsignedTimestamp.resultsIn_mono summary early late result ordered moved
  exact ⟨lower, below, summary, hop, earlier⟩

theorem Step.le {before after : Location × T} (step : builder.Step before after) : before.2 ≤ after.2 := by
  obtain ⟨summary, _, moved⟩ := step
  exact UnsignedTimestamp.resultsIn_inflates summary before.2 after.2 moved

/-- A step that keeps the time is a hop with the identity summary. -/
theorem Step.identity_of_eq {before after : Location × T} (step : builder.Step before after)
    (same : before.2 = after.2) : (after.1, identity) ∈ builder.hops before.1 := by
  obtain ⟨summary, hop, moved⟩ := step
  rw [← same] at moved
  rwa [eq_identity_of_le (UnsignedTimestamp.resultsIn_fixed summary before.2 moved)] at hop

/-- A chain of steps is a walk whose summary gives the final time. -/
theorem reflTransGen_step_iff {location : Location} {start time : T} :
    ReflTransGen builder.Step (origin, start) (location, time) ↔
      ∃ summary, builder.Walk origin location summary ∧ resultsIn summary start = some time := by
  constructor
  · intro chain
    generalize same : (location, time) = finish at chain
    induction chain generalizing location time with
    | refl =>
      cases same
      exact ⟨identity, Walk.empty, UnsignedTimestamp.resultsIn_identity start⟩
    | tail _ last ih =>
      rename_i middle finish _
      subst same
      obtain ⟨summary, walk, moved⟩ := ih rfl
      obtain ⟨step, hop, advanced⟩ := last
      -- The law of composition turns the two applications into one composed summary.
      have law := UnsignedTimestamp.resultsIn_followedBy summary step start
      rw [moved, Option.bind_some, advanced] at law
      obtain ⟨total, composed, result⟩ := Option.bind_eq_some_iff.mp law
      exact ⟨total, walk.snoc hop composed, result⟩
  · intro found
    obtain ⟨summary, walk, moved⟩ := found
    induction walk generalizing time with
    | empty =>
      rw [UnsignedTimestamp.resultsIn_identity, Option.some.injEq] at moved
      rw [moved]
    | snoc walk hop composed ih =>
      rename_i middle finish summary last total
      have law := UnsignedTimestamp.resultsIn_followedBy summary last start
      rw [composed, Option.bind_some, moved] at law
      obtain ⟨instant, early, advanced⟩ := Option.bind_eq_some_iff.mp law.symm
      exact (ih early).tail ⟨last, hop, advanced⟩

end Steps

section Cycles

variable {S : Type} [UnsignedSummary S] {builder : Builder S} {start : Location}

/-- The search has found a path with the identity summary to this location. -/
def CycleSearch.Visited (start : Location) (search : CycleSearch S) (location : Location) : Prop :=
  location = start ∨ (search.reached location).lessEqual identity = true

/-- A successful visit keeps the stack, visits every identity continuation and stacks what it newly visits. -/
structure CycleSearch.Extends (start : Location) (search next : CycleSearch S) (visits : List (Location × S)) :
    Prop where
  stack : ∀ path ∈ search.stack, path ∈ next.stack
  visited : ∀ location, search.Visited start location → next.Visited start location
  visits : ∀ path ∈ visits, path.2 ≤ identity → path.1 ≠ start ∧ next.Visited start path.1
  stacked : ∀ location, next.Visited start location →
    search.Visited start location ∨ ∃ summary ≤ identity, (location, summary) ∈ next.stack

theorem CycleSearch.insert_visited (search : CycleSearch S) (stack : List (Location × S)) (location : Location)
    (summary : S) (place : Location) :
    CycleSearch.Visited start
        ⟨Function.update search.reached location ((search.reached location).insert summary).2, stack⟩ place ↔
      search.Visited start place ∨ (place = location ∧ summary ≤ identity) := by
  unfold CycleSearch.Visited
  by_cases same : place = location
  · subst place
    simp only [Function.update_self, Antichain.insert_lessEqual, true_and, or_assoc]
  · simp only [Function.update_of_ne same, same, false_and, or_false]

theorem CycleSearch.visit_extends {search next : CycleSearch S} {visits : List (Location × S)}
    (visited : CycleSearch.visit start search visits = .ok next) : search.Extends start next visits := by
  induction visits generalizing search with
  | nil =>
    cases visited
    exact ⟨fun _ member => member, fun _ held => held, nofun,
      fun _ held => Or.inl held⟩
  | cons path rest ih =>
    obtain ⟨location, summary⟩ := path
    unfold CycleSearch.visit at visited
    by_cases returns : location = start
    · rw [if_pos returns] at visited
      by_cases closes : summary ≤ identity
      · rw [if_pos closes] at visited
        cases visited
      · rw [if_neg closes] at visited
        have later := ih visited
        refine ⟨later.stack, later.visited, fun path member low => ?_, later.stacked⟩
        rcases List.mem_cons.mp member with same | inRest
        · subst same
          exact absurd low closes
        · exact later.visits path inRest low
    · rw [if_neg returns] at visited
      dsimp only at visited
      -- The two branches differ only in the stack, so the facts about them are stated once.
      have extend : ∀ stack, (∀ path ∈ search.stack, path ∈ stack) →
          (summary ≤ identity → search.Visited start location ∨ (location, summary) ∈ stack) →
          CycleSearch.Extends start ⟨Function.update search.reached location
            ((search.reached location).insert summary).2, stack⟩ next rest →
          search.Extends start next ((location, summary) :: rest) := by
        intro stack grows fresh later
        refine ⟨fun path member => later.stack path (grows path member),
          fun place held => later.visited place ((insert_visited search stack location summary place).mpr
            (Or.inl held)), fun path member low => ?_, fun place held => ?_⟩
        · rcases List.mem_cons.mp member with same | inRest
          · subst same
            exact ⟨returns, later.visited location ((insert_visited search stack location summary location).mpr
              (Or.inr ⟨rfl, low⟩))⟩
          · exact later.visits path inRest low
        · rcases later.stacked place held with before | onStack
          · rcases (insert_visited search stack location summary place).mp before with old | ⟨same, low⟩
            · exact Or.inl old
            · subst same
              rcases fresh low with old | member
              · exact Or.inl old
              · exact Or.inr ⟨summary, low, later.stack _ member⟩
          · exact Or.inr onStack
      split at visited
      · exact extend _ (fun _ member => List.mem_cons_of_mem _ member)
          (fun _ => Or.inr List.mem_cons_self) (ih visited)
      · rename_i refused
        refine extend _ (fun _ member => member) (fun low => Or.inl (Or.inr ?_)) (ih visited)
        -- A refused summary is covered by one that was already there.
        unfold Antichain.insert at refused
        split at refused
        · rename_i covered
          obtain ⟨element, member, below⟩ := (Antichain.lessEqual_iff _ _).mp covered
          exact (Antichain.lessEqual_iff _ _).mpr ⟨element, member, below.trans low⟩
        · exact absurd rfl refused

theorem mem_continuations {summary total : S} :
    (finish, total) ∈ builder.continuations origin summary ↔
      ∃ last, (finish, last) ∈ builder.hops origin ∧ followedBy summary last = some total := by
  cases origin with
  | target node port =>
    simp only [mem_hops_target]
    cases found : builder.nodes node with
    | none => simp [continuations, found]
    | some connectivity =>
      simp only [continuations, found, List.mem_flatMap, List.mem_range, List.mem_filterMap,
        Option.map_eq_some_iff, Prod.mk.injEq, Option.some.injEq]
      constructor
      · intro path
        obtain ⟨output, inside, last, member, composed, result, sameLocation, sameTotal⟩ := path
        exact ⟨last, ⟨connectivity, output, rfl, inside, sameLocation.symm, member⟩, sameTotal ▸ result⟩
      · intro path
        obtain ⟨last, ⟨_, output, same, inside, sameLocation, member⟩, result⟩ := path
        subst same
        exact ⟨output, inside, last, member, total, result, sameLocation.symm, rfl⟩
  | source node port =>
    simp only [mem_hops_source, continuations, List.mem_map, Prod.mk.injEq]
    constructor
    · intro path
      obtain ⟨edge, member, sameEdge, sameTotal⟩ := path
      refine ⟨identity, ⟨sameEdge ▸ member, rfl⟩, ?_⟩
      rw [UnsignedSummary.followedBy_identity, sameTotal]
    · intro path
      obtain ⟨last, ⟨member, same⟩, result⟩ := path
      rw [same, UnsignedSummary.followedBy_identity, Option.some.injEq] at result
      exact ⟨finish, member, rfl, result⟩

/-- One location is an identity hop away from another. -/
def IdentityHop (builder : Builder S) (origin finish : Location) : Prop :=
  (finish, identity) ∈ builder.hops origin

/-- Every visited location is still on the stack or has all its identity hops visited. -/
def CycleSearch.Closed (builder : Builder S) (start : Location) (search : CycleSearch S) : Prop :=
  ∀ location, search.Visited start location → (location, identity) ∈ search.stack ∨
    ∀ finish, builder.IdentityHop location finish → finish ≠ start ∧ search.Visited start finish

theorem CycleSearch.closed_step {search next : CycleSearch S} {location : Location} {summary : S}
    {rest : List (Location × S)} (closed : search.Closed builder start)
    (stack : search.stack = (location, summary) :: rest)
    (visited : CycleSearch.visit start ⟨search.reached, rest⟩ (builder.continuations location summary) = .ok next) :
    next.Closed builder start := by
  have extended := CycleSearch.visit_extends visited
  have popped : ∀ place, search.Visited start place →
      CycleSearch.Visited start ⟨search.reached, rest⟩ place := fun _ held => held
  intro place held
  rcases extended.stacked place held with before | onStack
  · rcases closed place before with stacked | done
    · rw [stack] at stacked
      rcases List.mem_cons.mp stacked with same | later
      · cases same
        refine Or.inr fun finish hop => ?_
        exact extended.visits (finish, identity) (mem_continuations.mpr
          ⟨identity, hop, UnsignedSummary.followedBy_identity identity⟩) (le_refl _)
      · exact Or.inl (extended.stack _ later)
    · refine Or.inr fun finish hop => ?_
      obtain ⟨apart, reached⟩ := done finish hop
      exact ⟨apart, extended.visited finish (popped finish reached)⟩
  · obtain ⟨low, below, member⟩ := onStack
    rw [eq_identity_of_le below] at member
    exact Or.inl member

variable {fuel : Nat}

/-- A search that ends without a cycle has none of identity hops through its start. -/
theorem cycleSearch_none {search : CycleSearch S} (closed : search.Closed builder start)
    (ended : builder.cycleSearch start fuel search = some none) :
    ∀ location, TransGen builder.IdentityHop start location → location ≠ start := by
  induction fuel generalizing search with
  | zero => cases ended
  | succ fuel ih =>
    unfold cycleSearch at ended
    split at ended
    · rename_i empty
      have all : ∀ location, search.Visited start location → ∀ finish, builder.IdentityHop location finish →
          finish ≠ start ∧ search.Visited start finish := by
        intro location held
        rcases closed location held with stacked | done
        · rw [empty] at stacked
          cases stacked
        · exact done
      intro location chain
      have reached : location ≠ start ∧ search.Visited start location := by
        induction chain with
        | single hop => exact all start (Or.inl rfl) _ hop
        | tail _ hop ih => exact all _ ih.2 _ hop
      exact reached.1
    · rename_i location summary rest stack
      split at ended
      · cases ended
      · rename_i next visited
        exact ih (CycleSearch.closed_step closed stack visited) ended

theorem cycleSearches_none {starts : List Location} (ended : builder.cycleSearches fuel starts = some none) :
    ∀ start ∈ starts, ¬ TransGen builder.IdentityHop start start := by
  induction starts with
  | nil => exact nofun
  | cons first rest ih =>
    unfold cycleSearches at ended
    split at ended
    · cases ended
    · cases ended
    · rename_i searched
      intro start member cycle
      rcases List.mem_cons.mp member with same | later
      · subst same
        have initial : CycleSearch.Closed builder start ⟨fun _ => Antichain.new, [(start, identity)]⟩ := by
          intro location held
          rcases held with same | below
          · exact Or.inl (same ▸ List.mem_cons_self)
          · exact absurd below (by simp)
        exact cycleSearch_none initial searched start cycle rfl
      · exact ih ended start later cycle

/-- A graph without a found identity cycle has no cycle of identity hops. -/
theorem WellFormed.acyclic (wellFormed : builder.WellFormed) (reach : builder.EdgesReachInputs)
    (none : builder.findIdentityCycle fuel = some none) (location : Location) :
    ¬ TransGen builder.IdentityHop location location := by
  intro cycle
  have fromTarget : ∀ node port, ¬ TransGen builder.IdentityHop (.target node port) (.target node port) := by
    intro node port closed
    obtain ⟨next, hop, _⟩ := TransGen.head'_iff.mp closed
    exact cycleSearches_none none _ (wellFormed.hop_target_operator hop) closed
  cases location with
  | target node port => exact fromTarget node port cycle
  | source node port =>
    -- The first hop is an edge, so the cycle also passes through an input port.
    obtain ⟨next, hop, back⟩ := TransGen.head'_iff.mp cycle
    have input := reach node port next (mem_hops_source.mp hop).1
    cases next with
    | target next port => exact fromTarget next port (TransGen.tail' back hop)
    | source next port => exact input.elim

end Cycles

end Builder

end Instancy
