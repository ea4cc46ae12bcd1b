import Instancy.Progress.Subgraph.ScopeReverse
import Instancy.Progress.Subgraph.ScopeTally

namespace Instancy

open Library Relation

variable {P : TimeType}

section Assign

namespace LoopScopes

variable {seen : List ScopeLocation}

theorem Linked.assignScope (loops : LoopScopes P) : ∀ {topology : Topology P.S}
    (parent next : Tracker P.T topology) (states : loops.States),
    (∀ location time, next.posted location time = parent.posted location time) →
    loops.Linked (fun _ => True) parent states → loops.Linked (fun _ => True) next (loops.assignScope seen states) := by
  induction loops with
  | nil => exact fun _ _ _ _ _ => trivial
  | cons inner node scope children rest ihChildren ihRest =>
    intro topology parent next state same linked
    obtain ⟨⟨loop, states⟩, others⟩ := state
    obtain ⟨⟨confined, _, link⟩, linkedChildren, linkedRest⟩ := linked
    refine ⟨⟨confined.setCounted _, trivial, link.congr (fun _ _ => same _) rfl
      (fun location => (Tracker.setCounted_ports _ location).1) fun location _ => Tracker.setCounted_posted _ location⟩,
      ?_, ihRest parent next others same linkedRest⟩
    exact ihChildren loop.tracker _ states (fun location time => Tracker.setCounted_posted _ location time)
      linkedChildren

theorem Tallied.new (loops : LoopScopes P) : loops.Tallied seen (loops.assignScope seen loops.new) := by
  induction loops with
  | nil => trivial
  | cons inner node scope children rest ihChildren ihRest =>
    exact ⟨(Tracker.new_tallied.setCounted _).setCounted _, ihChildren, ihRest⟩

end LoopScopes

namespace ProgressTracker

variable {graph : ProgressGraph P} {seen : List ScopeLocation} {state : ProgressTracker graph}

theorem Idle.assignScope (idle : state.Idle) : (state.assignScope seen).Idle :=
  ⟨idle.confined.setCounted _, LoopScopes.Linked.assignScope graph.loops state.tracker _ state.children
    (fun location time => Tracker.setCounted_posted _ location time) idle.loops⟩

theorem Tallied.new : ((ProgressTracker.new graph).assignScope seen).Tallied seen :=
  ⟨(Tracker.new_tallied.setCounted _).setCounted _, LoopScopes.Tallied.new graph.loops⟩

end ProgressTracker

end Assign

section Raw

namespace LoopScopes

variable {seen : List ScopeLocation} {clean : Nat → Bool}

theorem mem_derived {scope : ScopeGraph P} {loops : LoopScopes P} {location : Location} :
    location ∈ scope.derived loops ↔
      (scope.scopeId ≠ 0 ∧ ∃ input < scope.builder.scopeInputs, location = .source 0 input) ∨ loops.Exports location := by
  unfold ScopeGraph.derived Exports
  rw [List.mem_append]
  refine or_congr ?_ ?_
  · split
    · rename_i nested
      simp only [List.mem_map, List.mem_range, nested, ne_eq, not_false_eq_true, true_and, eq_comm]
    · rename_i isRoot
      simp only [List.not_mem_nil, false_iff]
      exact fun derived => isRoot derived.1
  · simp only [List.mem_flatMap, List.mem_map, List.mem_range, eq_comm]

end LoopScopes

/-- A counted location has only zero counts when the counter of its tracker is zero. -/
theorem ScopeGraph.posted_zero {scope : ScopeGraph P} {loops : LoopScopes P} {seen : List ScopeLocation}
    {tracker : Tracker P.T scope.topology} (tallied : tracker.Tallied (scope.counts loops seen))
    (confined : tracker.Confined) (applied : tracker.Applied) (zero : tracker.countedZero = true) {location : Location}
    (member : (scope.scopeId, location) ∈ seen) (raw : location ∉ scope.derived loops) (time : P.T) :
    tracker.posted location time = 0 := by
  by_cases registered : location ∈ scope.builder.locations
  · have isCounted : scope.counts loops seen location = true := by
      simp only [ScopeGraph.counts, Bool.and_eq_true, List.contains_iff_mem, Bool.not_eq_true']
      exact ⟨member, by simpa using raw⟩
    rw [applied.posted]
    exact tallied.zero (beq_iff_eq.mp zero) registered isCounted time
  · exact confined.posted registered time

namespace LoopScopes

variable {seen : List ScopeLocation} {clean : Nat → Bool}

/-- The raw counts of the loops in the worker's scope are zero when the loops say so. -/
theorem rawZero_count (loops : LoopScopes P) : ∀ {topology : Topology P.S}
    (parent : Tracker P.T topology)
    (states : loops.States), loops.Linked Flushed parent states → loops.Tallied seen states →
    loops.rawZero clean states = true → ∀ point, loops.IsRaw point → loops.place point ∈ seen →
    loops.count states point = 0 := by
  induction loops with
  | nil => exact fun _ _ _ _ _ point => point.elim
  | cons inner node scope children rest ihChildren ihRest =>
    intro topology parent state linked tallied zero point raw member
    obtain ⟨⟨loop, states⟩, others⟩ := state
    obtain ⟨⟨confined, flushed, _⟩, linkedChildren, linkedRest⟩ := linked
    obtain ⟨own, inside, outside⟩ := tallied
    simp only [rawZero, Bool.and_eq_true] at zero
    obtain ⟨⟨⟨_, zeroOwn⟩, zeroChildren⟩, zeroRest⟩ := zero
    rcases point with (place | nested) | other
    · refine ScopeGraph.posted_zero own confined flushed.applied zeroOwn member (fun derived => ?_) place.time
      rcases mem_derived.mp derived with ⟨_, input, _, same⟩ | exported
      · exact raw.1 (by rw [same]; rfl)
      · exact raw.2 exported
    · exact ihChildren loop.tracker states linkedChildren inside zeroChildren nested raw member
    · exact ihRest parent others linkedRest outside zeroRest other raw member

end LoopScopes

namespace ProgressTracker

variable {graph : ProgressGraph P} {seen : List ScopeLocation} {state : ProgressTracker graph}
  {clean : Nat → Bool}

/-- The raw counts in the worker's scope are zero when the zero test says so. -/
theorem rawZero_count (isRoot : graph.root.scopeId = 0) (settled : state.Settled) (tallied : state.Tallied seen)
    (zero : state.rawZero clean = true) {point : graph.Point} (raw : graph.IsRaw point)
    (member : ProgressPorts.place point ∈ seen) : state.count point = 0 := by
  simp only [rawZero, Bool.and_eq_true] at zero
  obtain ⟨⟨_, zeroRoot⟩, zeroLoops⟩ := zero
  cases point with
  | inl own =>
    refine ScopeGraph.posted_zero tallied.root settled.confined settled.applied zeroRoot member (fun derived => ?_)
      own.time
    rcases LoopScopes.mem_derived.mp derived with ⟨nested, _⟩ | exported
    · exact nested isRoot
    · exact raw exported
  | inr nested =>
    exact graph.loops.rawZero_count state.tracker state.children settled.loops tallied.loops zeroLoops nested raw member

end ProgressTracker

end Raw

section Derived

/-- No frontier of the scope has an element at a location of the worker's scope. -/
def ScopeGraph.Silent (scope : ScopeGraph P) (seen : List ScopeLocation)
    (tracker : Tracker P.T scope.topology) : Prop :=
  ∀ location, (scope.scopeId, location) ∈ seen → tracker.frontierAt location = []

/-- Counts that are not negative are zero at the locations of a silent scope. -/
theorem ScopeGraph.Silent.countsZeroAt {scope : ScopeGraph P} {loops : LoopScopes P}
    {seen : List ScopeLocation} {tracker : Tracker P.T scope.topology} (silent : scope.Silent seen tracker)
    (tallied : tracker.Tallied (scope.counts loops seen)) (applied : tracker.Applied) (isExact : tracker.Exact)
    {location : Location} (member : (scope.scopeId, location) ∈ seen)
    (nonneg : ∀ time, 0 ≤ tracker.posted location time) : tracker.countsZeroAt location = true := by
  unfold Tracker.countsZeroAt
  split
  · rename_i registered
    rw [Bool.not_eq_true', ← Bool.not_eq_true, tallied.flagged location registered]
    rintro ⟨time, nonzero⟩
    rw [← applied.posted] at nonzero
    have positive : 0 < tracker.posted location time := lt_of_le_of_ne (nonneg time) nonzero.symm
    obtain ⟨below, found, _⟩ := (isExact location).covers time (Reached.of_holds positive)
    rw [silent location member] at found
    cases found
  · rfl

namespace LoopScopes

variable {seen : List ScopeLocation} (loops : LoopScopes P)

/-- The exports of flushed loops are not negative. -/
theorem Linked.exports_nonneg : ∀ {topology : Topology P.S}
    (parent : Tracker P.T topology) (states : loops.States), loops.Linked Flushed parent states →
    ∀ location, loops.Exports location → ∀ time, 0 ≤ parent.posted location time := by
  induction loops with
  | nil => exact fun _ _ _ _ exported => absurd exported.choose_spec.1 List.not_mem_nil
  | cons inner node scope children rest _ ihRest =>
    intro topology parent state linked location exported time
    obtain ⟨⟨loop, states⟩, others⟩ := state
    obtain ⟨⟨_, flushed, link⟩, _, linkedRest⟩ := linked
    obtain ⟨child, member, output, bound, same⟩ := exported
    rcases List.mem_cons.mp member with isFirst | later
    · subst isFirst same
      have exports := link.exports output bound time
      rw [flushed.taken output bound] at exports
      have posted : parent.posted (.source node output) time = loop.tracker.exportSum output (outerWeight time) :=
        (Int.add_zero _).symm.trans exports
      rw [posted]
      exact loop.tracker.exportSum_nonneg (fun inside => by unfold outerWeight; split <;> decide) output
    · exact ihRest parent others linkedRest location ⟨child, later, output, bound, same⟩ time

/-- No frontier of the loops has an element at a location of the worker's scope. -/
def Silent (seen : List ScopeLocation) : {P : TimeType} → (loops : LoopScopes P) → loops.States → Prop
  | _, .nil, _ => True
  | _, .cons _ _ scope children rest, state =>
    match (state : (LoopState scope × children.States) × rest.States) with
    | ((loop, states), others) =>
      scope.Silent seen loop.tracker ∧ children.Silent seen states ∧ rest.Silent seen others

theorem silent_of_onFrontier : ∀ states : loops.States,
    (∀ point, loops.OnFrontier states point → loops.place point ∉ seen) → loops.Silent seen states := by
  induction loops with
  | nil => exact fun _ _ => trivial
  | cons inner node scope children rest ihChildren ihRest =>
    intro state quiet
    obtain ⟨⟨loop, states⟩, others⟩ := state
    refine ⟨fun location member => List.eq_nil_iff_forall_not_mem.mpr fun time found => ?_,
      ihChildren states fun point => quiet (.inl (.inr point)), ihRest others fun point => quiet (.inr point)⟩
    exact quiet (.inl (.inl ⟨location, time⟩)) found member

/-- The derived counts of silent loops in the worker's scope are zero. -/
theorem Silent.derivedZero : ∀ {topology : Topology P.S}
    (parent : Tracker P.T topology) (states : loops.States), loops.Linked Flushed parent states →
    loops.Tallied seen states → loops.Bridged parent states → loops.Silent seen states →
    loops.derivedZero (some seen) states = true := by
  induction loops with
  | nil => exact fun _ _ _ _ _ _ => rfl
  | cons inner node scope children rest ihChildren ihRest =>
    intro topology parent state linked tallied bridged silent
    obtain ⟨⟨loop, states⟩, others⟩ := state
    obtain ⟨⟨_, flushed, link⟩, linkedChildren, linkedRest⟩ := linked
    obtain ⟨own, inside, outside⟩ := tallied
    obtain ⟨bridge, bridgedChildren, bridgedRest⟩ := bridged
    obtain ⟨silentOwn, silentChildren, silentRest⟩ := silent
    simp only [LoopScopes.derivedZero, Bool.and_eq_true, List.all_eq_true, List.mem_filter]
    refine ⟨⟨fun location derived => ?_, ?_⟩, ihRest parent others linkedRest outside bridgedRest silentRest⟩
    · obtain ⟨isDerived, member⟩ := derived
      refine silentOwn.countsZeroAt own flushed.applied bridge.exactly (List.contains_iff_mem.mp member) fun time => ?_
      rcases mem_derived.mp isDerived with ⟨_, input, bound, same⟩ | exported
      · rw [same, link.imports input bound time]
        unfold MutableAntichain.present
        split <;> decide
      · exact Linked.exports_nonneg children loop.tracker states linkedChildren location exported time
    · exact ihChildren loop.tracker states linkedChildren inside bridgedChildren silentChildren

end LoopScopes

end Derived

variable {entry : (Nat × Nat) × Location}

section Hosted

/-- The frontiers of the hosted operators that a scope counts are empty: those of the inputs, those of the outputs, and
those of the streams whose targets are all in the worker's scope. -/
structure ScopePorts.Retired (ports : ScopePorts P) (hosted : Nat → Bool) (seen : List ScopeLocation)
    (scope : ScopeGraph P) (children : List (ScopeNode P)) (tracker : Tracker P.T scope.topology) : Prop where
  inputs : ∀ entry ∈ ports.inputPorts children, hosted entry.1 = true →
    ∀ frontier ∈ tracker.inputFrontiers entry.2, frontier.isEmpty = true
  outputs : ∀ entry ∈ ports.outputPorts children, hosted entry.1.1 = true →
    tracker.sourceFrontier entry.2.node entry.2.port = []
  streams : ∀ entry ∈ ports.outputPorts children, hosted entry.1.1 = true →
    (∀ route ∈ ports.routesFrom entry.2, (scope.scopeId, Location.target route.1.node route.1.port) ∈ seen) →
    (tracker.streamFrontier ports children entry.1.1 entry.1.2).isEmpty = true

namespace ScopePorts

variable {ports : ScopePorts P} {children : List (ScopeNode P)} {op port : Nat} {location : Location}

/-- An input is located at a target and an output at a source. -/
theorem locate_side {side : Side} (located : ports.locate children side op port = some location) :
    (side = .input → location = .target location.node location.port) ∧
      (side = .output → location = .source location.node location.port) := by
  unfold locate at located
  dsimp only at located
  split at located
  · cases located
  · cases located
    cases side <;> simp [Location.node, Location.port]
  · obtain ⟨child, _, same⟩ := Option.map_eq_some_iff.mp located
    subst same
    cases side <;> simp [Location.node, Location.port]
  · split at located
    · cases located
      cases side <;> simp [Location.node, Location.port]
    · cases located

theorem mem_outputPorts (member : entry ∈ ports.outputPorts children) :
    ports.locate children .output entry.1.1 entry.1.2 = some entry.2 := by
  obtain ⟨shape, _, found⟩ := List.mem_flatMap.mp member
  obtain ⟨output, _, located⟩ := List.mem_filterMap.mp found
  obtain ⟨location, known, same⟩ := Option.map_eq_some_iff.mp located
  rw [← same]
  exact known

/-- An output is counted at one location. -/
theorem lookup_outputPorts (member : entry ∈ ports.outputPorts children) :
    (ports.outputPorts children).lookup entry.1 = some entry.2 := by
  cases found : (ports.outputPorts children).lookup entry.1 with
  | none =>
    have different := List.lookup_eq_none_iff.mp found entry member
    exact absurd different (by simp)
  | some location =>
    obtain ⟨before, after, split, _⟩ := List.lookup_eq_some_iff.mp found
    have listed : (entry.1, location) ∈ ports.outputPorts children := by
      rw [split]
      exact List.mem_append_right _ List.mem_cons_self
    exact (mem_outputPorts listed).symm.trans (mem_outputPorts member)

theorem mem_inputPorts {entry : Nat × List Location} (member : entry ∈ ports.inputPorts children) {location : Location}
    (listed : location ∈ entry.2) : location = .target location.node location.port := by
  obtain ⟨shape, _, found⟩ := List.mem_filterMap.mp member
  obtain ⟨locations, located, kept⟩ := Option.bind_eq_some_iff.mp found
  split at kept
  · cases kept
    obtain ⟨input, _, known⟩ := exists_of_mem_mapM located listed
    exact (locate_side known).1 rfl
  · cases kept

/-- The frontiers of the hosted operators of a silent scope are empty. -/
theorem retired_of_silent {hosted : Nat → Bool} {seen : List ScopeLocation} {scope : ScopeGraph P}
    {tracker : Tracker P.T scope.topology} (silent : scope.Silent seen tracker)
    (seeded : ∀ place ∈ ports.hostedPorts scope.scopeId children hosted, place ∈ seen) :
    ports.Retired hosted seen scope children tracker := by
  have outputs : ∀ entry ∈ ports.outputPorts children, hosted entry.1.1 = true →
      tracker.sourceFrontier entry.2.node entry.2.port = [] := by
    intro entry member isHosted
    have seed : (scope.scopeId, entry.2) ∈ seen := seeded _ (List.mem_append_left _ (List.mem_append_right _
      (List.mem_map.mpr ⟨entry, List.mem_filter.mpr ⟨member, isHosted⟩, rfl⟩)))
    have empty := silent entry.2 seed
    rw [(locate_side (mem_outputPorts member)).2 rfl] at empty
    exact empty
  refine ⟨fun entry member isHosted frontier found => ?_, outputs, fun entry member isHosted routed => ?_⟩
  · obtain ⟨location, listed, rfl⟩ := List.mem_map.mp found
    have seed : (scope.scopeId, location) ∈ seen := seeded _ (List.mem_append_left _ (List.mem_append_left _
      (List.mem_flatMap.mpr ⟨entry, List.mem_filter.mpr ⟨member, isHosted⟩, List.mem_map.mpr ⟨location, listed, rfl⟩⟩)))
    have empty := silent location seed
    rw [mem_inputPorts member listed] at empty
    change tracker.targetFrontier location.node location.port = [] at empty
    rw [empty]
    rfl
  · unfold Tracker.streamFrontier
    rw [lookup_outputPorts member]
    dsimp only
    split
    · rw [outputs entry member isHosted]
      rfl
    · have none : ((ports.routesFrom entry.2).flatMap fun route =>
          tracker.targetFrontier route.1.node route.1.port) = [] := by
        rw [List.flatMap_eq_nil_iff]
        intro route listed
        exact silent (.target route.1.node route.1.port) (routed route listed)
      rw [none]
      rfl

end ScopePorts

/-- The frontiers of the hosted operators of all loops are empty. -/
def LoopScopes.Retired (hosted : Nat → Bool) (seen : List ScopeLocation) : {P : TimeType} → (loops : LoopScopes P) →
    loops.PortTables → loops.States → Prop
  | _, .nil, _, _ => True
  | P, .cons inner _ scope children rest, tables, state =>
    match (tables : (ScopePorts (P.product inner) × children.PortTables) × rest.PortTables),
      (state : (LoopState scope × children.States) × rest.States) with
    | ((ports, inside), others), ((loop, states), outside) =>
      ports.Retired hosted seen scope children.nodes loop.tracker ∧ children.Retired hosted seen inside states ∧
        rest.Retired hosted seen others outside

theorem LoopScopes.Silent.retired {hosted : Nat → Bool} {seen : List ScopeLocation} {P : TimeType}
    (loops : LoopScopes P) : ∀ (tables : loops.PortTables) (states : loops.States), loops.Silent seen states →
    (∀ place ∈ loops.hostedPorts hosted tables, place ∈ seen) → loops.Retired hosted seen tables states := by
  induction loops with
  | nil => exact fun _ _ _ _ => trivial
  | cons inner node scope children rest ihChildren ihRest =>
    intro tables state silent seeded
    obtain ⟨⟨ports, inside⟩, others⟩ := tables
    obtain ⟨⟨loop, states⟩, outside⟩ := state
    obtain ⟨silentOwn, silentChildren, silentRest⟩ := silent
    refine ⟨ScopePorts.retired_of_silent silentOwn fun place member => ?_,
      ihChildren inside states silentChildren fun place member => ?_,
      ihRest others outside silentRest fun place member => ?_⟩
    · exact seeded place (List.mem_append_left _ (List.mem_append_right _ member))
    · exact seeded place (List.mem_append_left _ (List.mem_append_left _ member))
    · exact seeded place (List.mem_append_right _ member)

/-- The derived counts in the worker's scope are zero, and the frontiers of the hosted operators are empty. -/
structure ProgressTracker.Retired {graph : ProgressGraph P} (state : ProgressTracker graph)
    (ports : ProgressPorts graph) (hosted : Nat → Bool) (seen : List ScopeLocation) : Prop where
  derived : state.derivedZero (some seen) = true
  root : ports.root.Retired hosted seen graph.root graph.loops.nodes state.tracker
  loops : graph.loops.Retired hosted seen ports.loops state.children

end Hosted

section Run

variable {graph : ProgressGraph P} {ports : ProgressPorts graph} {state : ProgressTracker graph}
  {hosted : Nat → Bool} {seen : List ScopeLocation} {clean : Nat → Bool}

section

variable {fuel : Nat} (compile : ports.Compile fuel) (wired : graph.Wired) (isRoot : graph.root.scopeId = 0)
  (isScope : ∀ place, place ∈ seen ↔ ∃ seed ∈ ports.hostedPorts hosted,
    ReflTransGen (fun before after => (before, after) ∈ ports.reverseGraph) seed place)
  (settled : state.Settled) (bridged : state.Bridged) (tallied : state.Tallied seen)
  (zero : state.rawZero clean = true)
include compile wired isRoot isScope settled bridged tallied zero

/-- No frontier has an element in a worker's scope whose raw counts are zero: what it came from would be in the scope. -/
theorem ProgressTracker.rawZero_silent {point : graph.Point} (onFrontier : state.OnFrontier point) :
    ProgressPorts.place point ∉ seen := by
  intro member
  obtain ⟨origin, raw, positive, walk⟩ := bridged.sound wired onFrontier
  have inside := compile.workerScope_closed isScope walk member
  have none := rawZero_count isRoot settled tallied zero raw inside
  omega

theorem ProgressTracker.rawZero_retired : state.Retired ports hosted seen := by
  have quiet (point : graph.Point) (onFrontier : state.OnFrontier point) : ProgressPorts.place point ∉ seen :=
    rawZero_silent compile wired isRoot isScope settled bridged tallied zero onFrontier
  have seeded (place : ScopeLocation) (member : place ∈ ports.hostedPorts hosted) : place ∈ seen :=
    (isScope place).mpr ⟨place, member, ReflTransGen.refl⟩
  have silentRoot : graph.root.Silent seen state.tracker := fun location member =>
    List.eq_nil_iff_forall_not_mem.mpr fun time found => quiet (.inl ⟨location, time⟩) found member
  have silentLoops : graph.loops.Silent seen state.children :=
    graph.loops.silent_of_onFrontier state.children fun point => quiet (.inr point)
  refine ⟨?_, ScopePorts.retired_of_silent silentRoot fun place member => ?_,
    LoopScopes.Silent.retired graph.loops ports.loops state.children silentLoops fun place member => ?_⟩
  · simp only [derivedZero, Bool.and_eq_true, List.all_eq_true, List.mem_filter]
    refine ⟨fun location derived => ?_, LoopScopes.Silent.derivedZero graph.loops state.tracker state.children
      settled.loops tallied.loops bridged.loops silentLoops⟩
    obtain ⟨isDerived, member⟩ := derived
    refine silentRoot.countsZeroAt tallied.root settled.applied bridged.exactly (List.contains_iff_mem.mp member)
      fun time => ?_
    rcases LoopScopes.mem_derived.mp isDerived with ⟨nested, _⟩ | exported
    · exact absurd isRoot nested
    · exact LoopScopes.Linked.exports_nonneg graph.loops state.tracker state.children settled.loops location exported time
  · exact seeded place (List.mem_append_right _ member)
  · exact seeded place (List.mem_append_left _ member)

end

open ScopeCall in
/-- For every tree of scopes and every set of hosted operators, after the worker's scope has been assigned and after any
raw changes that end with a propagation: if the raw counts of the worker's scope are zero and nothing is pending, then
its derived counts are zero, the frontiers of the inputs and outputs of the hosted operators are empty, and so is the
frontier of every stream of a hosted operator whose targets are all in the worker's scope. -/
theorem runAll_rawZero_retired {buildFuel : Nat} (compile : ports.Compile buildFuel)
    (isRoot : graph.root.scopeId = 0) (proper : ports.root.builder.Proper)
    (properLoops : (graph.loops.builders ports.loops).Proper) (reach : graph.root.builder.EdgesReachInputs)
    (reachLoops : graph.loops.EdgesReachInputs) (hosted : Nat → Bool) (calls : List (ScopeCall graph))
    (raw : ∀ call ∈ calls, call.IsRaw) (clean : Nat → Bool) :
    (∃ bound, ∀ fuel, bound ≤ fuel → ∃ seen state, ports.workerScope fuel hosted = some seen ∧
      runAll fuel (calls ++ [exportAndPropagate]) ((ProgressTracker.new graph).assignScope seen) = some state) ∧
    ∀ fuel seen state, ports.workerScope fuel hosted = some seen →
      runAll fuel (calls ++ [exportAndPropagate]) ((ProgressTracker.new graph).assignScope seen) = some state →
      state.rawZero clean = true → state.Retired ports hosted seen := by
  obtain ⟨wired, apart⟩ := ProgressGraph.tryBuild_wired compile proper properLoops reach reachLoops
  obtain ⟨first, found, searched, isScope⟩ := searchFrom_spec ports.reverseGraph (ports.hostedPorts hosted)
  have idle : ((ProgressTracker.new graph).assignScope found).Idle := (ProgressTracker.new_idle graph).assignScope
  obtain ⟨second, middle, ran, idleMiddle, _⟩ := runAll_spec wired apart idle calls raw
  obtain ⟨third, last, propagated, settled, bridged, _⟩ :=
    ProgressTracker.exportAndPropagate_settles wired apart idleMiddle
  have whole (fuel : Nat) (enough : max second third ≤ fuel) :
      runAll fuel (calls ++ [exportAndPropagate]) ((ProgressTracker.new graph).assignScope found) = some last := by
    rw [runAll_append, ran fuel (by omega), Option.bind_some, runAll, run, propagated fuel (by omega)]
    rfl
  refine ⟨⟨max first (max second third), fun fuel enough => ?_⟩, fun fuel seen state assigned done zero => ?_⟩
  · exact ⟨found, last, searched fuel (by omega), whole fuel (by omega)⟩
  · -- more fuel leads to the same scope and the same state
    have sameScope : seen = found := Option.some.inj
      ((searchFrom_mono (Nat.le_add_right fuel first) assigned).symm.trans (searched _ (Nat.le_add_left first fuel)))
    subst sameScope
    have sameState : state = last := Option.some.inj
      ((runAll_mono (Nat.le_add_right fuel _) _ done).symm.trans (whole _ (Nat.le_add_left (max second third) fuel)))
    subst sameState
    have tallied : state.Tallied seen := ProgressTracker.Tallied.runAll _ ProgressTracker.Tallied.new done
    exact ProgressTracker.rawZero_retired compile wired isRoot isScope settled bridged tallied zero

end Run

section Laps

/-- The ports of the small dataflow are those of its operators, at their own nodes. -/
def lapsPorts : ProgressPorts laps where
  root := ⟨lapsRoot, [], fun _ _ _ => none, none, []⟩
  loops := show laps.loops.PortTables from
    (((⟨lapsBody, [], fun _ _ _ => none, none, []⟩, ()), ()) :
      (ScopePorts ((TimeType.unsigned 64).product (TimeType.unsigned 64)) × Unit) × Unit)

theorem lapsPorts_compile : lapsPorts.Compile 20 := rfl

/-- A record of the source that has not entered the loop. -/
def lapsSent : List (ScopeCall laps) := [.update (.inl ⟨.target 6 0, (3 : Unsigned 64)⟩) 1]

open ScopeCall in
/-- A worker that hosts the source only has zero raw counts in its scope, but the stream of the source is not empty. -/
theorem laps_stream_open : ∃ seen state,
    lapsPorts.workerScope 40 (fun operator => operator == 1) = some seen ∧
    runAll 40 (lapsSent ++ [exportAndPropagate]) ((ProgressTracker.new laps).assignScope seen) = some state ∧
    state.rawZero (fun _ => true) = true ∧
    (state.tracker.streamFrontier lapsPorts.root laps.loops.nodes 1 0).isEmpty = false :=
  ⟨_, _, rfl, rfl, rfl, rfl⟩

theorem lapsSent_raw : ∀ call ∈ lapsSent, call.IsRaw := by
  intro call member change posted
  simp only [lapsSent, List.mem_cons, List.not_mem_nil, or_false] at member
  subst member
  cases posted
  refine ⟨fun exported => ?_, show Location.target 6 0 ∈ laps.root.builder.locations by decide⟩
  obtain ⟨child, _, output, _, same⟩ := exported
  cases same

open ScopeCall in
/-- The source's own frontiers and the derived counts of its scope are empty all the same. -/
theorem laps_retired : ∃ seen state,
    lapsPorts.workerScope 40 (fun operator => operator == 1) = some seen ∧
    runAll 40 (lapsSent ++ [exportAndPropagate]) ((ProgressTracker.new laps).assignScope seen) = some state ∧
    state.rawZero (fun _ => true) = true ∧ state.Retired lapsPorts (fun operator => operator == 1) seen :=
  ⟨_, _, rfl, rfl, rfl, (runAll_rawZero_retired lapsPorts_compile rfl lapsRoot_proper
    ⟨⟨by decide, List.not_mem_nil⟩, lapsBody_proper, trivial, trivial⟩
    laps_reach ⟨lapsScope_reach, trivial, trivial⟩ _ lapsSent lapsSent_raw (fun _ => true)).2 40 _ _ rfl rfl rfl⟩

end Laps

end Instancy
