import Instancy.Progress.Subgraph.Flat

namespace Instancy

open Library MutableAntichain

variable {P : TimeType}

variable {location : Location}

namespace Tracker

section Drain

variable {T S : Type} [PathSummary S] [Timestamp T S] {topology : Topology S}

/-- A port without pending changes is left alone. -/
theorem drainPort_of_empty (tracker : Tracker T topology)
    (empty : (tracker.pending location).isEmptyClean = true) : tracker.drainPort location = tracker := if_pos empty

/-- A port that exports nothing records no export changes. -/
theorem drainPort_exportChanges (tracker : Tracker T topology) (none : ∀ time : T, topology.exported location time = []) :
    (tracker.drainPort location).exportChanges = tracker.exportChanges := by
  unfold drainPort
  split
  · rfl
  · change recordExports topology location tracker.exportChanges _ = _
    unfold recordExports
    induction ((tracker.ports location).pointstamps.updateIter (tracker.pending location).drain.1).2 with
    | nil => rfl
    | cons change rest ih =>
      rw [List.foldl_cons, none]
      exact ih

/-- A drain that meets pending changes only at ports without exports records no export changes. -/
theorem foldl_drainPort_exportChanges (places : List Location) (tracker : Tracker T topology)
    (quiet : ∀ location ∈ places, (tracker.pending location).isEmptyClean = true ∨
      ∀ time : T, topology.exported location time = []) :
    (places.foldl drainPort tracker).exportChanges = tracker.exportChanges := by
  induction places generalizing tracker with
  | nil => rfl
  | cons place rest ih =>
    rw [List.foldl_cons, ih]
    · rcases quiet place List.mem_cons_self with empty | none
      · rw [drainPort_of_empty tracker empty]
      · exact drainPort_exportChanges tracker none
    · intro location member
      by_cases same : location = place
      · exact Or.inl (same ▸ drainPort_isEmptyClean tracker place)
      · rw [drainPort_pending_of_ne tracker same]
        exact quiet location (List.mem_cons_of_mem place member)

end Drain

section Confined

variable {T S : Type} [UnsignedSummary S] [UnsignedTimestamp T S] {builder : Builder S} {tables : PathTables S}

/-- A consistent tracker with nothing posted at an unregistered port. -/
structure Confined (tracker : Tracker T (builder.topology tables)) : Prop where
  consistent : tracker.Consistent
  pending : ∀ location, location ∉ builder.locations → (tracker.pending location).isEmptyClean = true
  counts : ∀ location, location ∉ builder.locations → ∀ time,
    (tracker.ports location).pointstamps.countFor time = 0

/-- Nothing is pending at any port. -/
def Applied (tracker : Tracker T (builder.topology tables)) : Prop :=
  ∀ location, (tracker.pending location).isEmptyClean = true

theorem Applied.posted {tracker : Tracker T (builder.topology tables)} (applied : tracker.Applied)
    (location : Location) (time : T) :
    tracker.posted location time = (tracker.ports location).pointstamps.countFor time := by
  unfold Tracker.posted
  rw [ChangeBatch.net_of_isEmptyClean (applied location), Int.add_zero]

theorem Confined.posted {tracker : Tracker T (builder.topology tables)} (confined : tracker.Confined)
    (outside : location ∉ builder.locations) (time : T) : tracker.posted location time = 0 := by
  unfold Tracker.posted
  rw [confined.counts location outside, ChangeBatch.net_of_isEmptyClean (confined.pending location outside)]
  rfl

theorem Posts.confined {tracker next : Tracker T (builder.topology tables)} {net : Location → T → Int}
    {touched : Location → Prop} (posts : Posts tracker next net touched)
    (registered : ∀ location, touched location → location ∈ builder.locations) (confined : tracker.Confined) :
    next.Confined where
  consistent := posts.consistent confined.consistent
  pending location outside := by
    rw [posts.pending location fun inside => outside (registered location inside)]
    exact confined.pending location outside
  counts location outside := by
    rw [posts.ports]
    exact confined.counts location outside

theorem Confined.setCounted {tracker : Tracker T (builder.topology tables)} (confined : tracker.Confined) (counted : Location → Bool) :
    (tracker.setCounted counted).Confined := by
  refine ⟨⟨fun location time => ?_, confined.consistent.registered⟩, confined.pending, fun location outside time => ?_⟩
  · have flow : (tracker.setCounted counted).inflow (location, time) = tracker.inflow (location, time) := by
      unfold inflow
      simp only [(setCounted_ports counted _).2]
    rw [flow, (setCounted_ports counted location).1, (setCounted_ports counted location).2]
    exact confined.consistent.balanced location time
  · rw [(setCounted_ports counted location).1]
    exact confined.counts location outside time

/-- The drain applies everything that is pending and keeps the posted counts. -/
theorem applyPending_spec {tracker : Tracker T (builder.topology tables)} (confined : tracker.Confined) :
    tracker.applyPending.Confined ∧ tracker.applyPending.Applied ∧
      ∀ location time, tracker.applyPending.posted location time = tracker.posted location time := by
  obtain ⟨consistent, posted, _⟩ :=
    foldl_drainPort confined.consistent builder.locations fun _ member => member
  have clears := foldl_drainPort_clears builder.locations tracker
  refine ⟨⟨consistent, fun location outside => ?_, fun location outside => ?_⟩, fun location => ?_, posted⟩
  · exact ((clears location).2 outside).1 ▸ confined.pending location outside
  · exact ((clears location).2 outside).2 ▸ confined.counts location outside
  · by_cases member : location ∈ builder.locations
    · exact (clears location).1 member
    · exact ((clears location).2 member).1 ▸ confined.pending location member

theorem propagateWorklist_exportChanges {tracker result : Tracker T (builder.topology tables)} {fuel : Nat}
    (ended : tracker.propagateWorklist fuel = some result) : result.exportChanges = tracker.exportChanges := by
  have kept := loop_invariant
    (fun current : Tracker T (builder.topology tables) => current.exportChanges = tracker.exportChanges)
    (fun current next same step => by
      obtain ⟨entry, rest, _, ⟨_, outcome⟩ | ⟨_, outcome⟩⟩ := propagateStep_eq step
      · rw [outcome]
        exact same
      · rw [outcome]
        exact same)
    rfl ended
  exact kept.1

/-- The export of a tracker depends only on its applied counts. -/
theorem exportSum_congr {tracker next : Tracker T (builder.topology tables)}
    (same : ∀ location, (next.ports location).pointstamps = (tracker.ports location).pointstamps) (output : Nat)
    (weight : T → Int) : next.exportSum output weight = tracker.exportSum output weight := by
  unfold exportSum
  simp only [same]

/-- A drain and a propagation end exact with nothing pending and keep the posted counts. -/
theorem settles [Finite T] (sound : builder.Sound) {tracker : Tracker T (builder.topology tables)}
    (confined : tracker.Confined) :
    ∃ bound result, (∀ fuel, bound ≤ fuel → tracker.applyPending.propagateWorklist fuel = some result) ∧
      result.Confined ∧ result.Applied ∧ result.Exact ∧
      result.exportChanges = tracker.applyPending.exportChanges ∧
      (∀ location, (result.ports location).pointstamps = (tracker.applyPending.ports location).pointstamps) ∧
      ∀ location time, result.posted location time = tracker.posted location time := by
  obtain ⟨confined, applied, samePosted⟩ := applyPending_spec confined
  obtain ⟨bound, result, ended⟩ := propagateWorklist_terminates sound tracker.applyPending
  have atBound := ended bound le_rfl
  obtain ⟨consistent, empty, samePoints, samePending⟩ := propagateWorklist_spec sound confined.consistent atBound
  have stillApplied : result.Applied := fun location => samePending location ▸ applied location
  refine ⟨bound, result, ended, ⟨consistent, fun location _ => stillApplied location, fun location outside => ?_⟩,
    stillApplied, consistent.exact sound empty fun location time => ?_, propagateWorklist_exportChanges atBound,
    samePoints, fun location time => ?_⟩
  · rw [samePoints]
    exact confined.counts location outside
  · exact ChangeBatch.net_of_isEmptyClean (stillApplied location) time
  · rw [stillApplied.posted, samePoints, ← applied.posted, samePosted]

end Confined

end Tracker

section Projection

variable {P inner : TimeType}

/-- This weight counts the times of a loop with a given outer part. -/
def outerWeight (time : P.T) (inside : Product P.T inner.T) : Int := if inside.outer = time then 1 else 0

theorem netOf_map_place {A B : Type} [DecidableEq A] [DecidableEq B] (place query : A) (changes : List (B × Int))
    (key : B) : netOf (changes.map fun change => ((place, change.1), change.2)) (query, key) =
      if place = query then netOf changes key else 0 := by
  induction changes with
  | nil => simp
  | cons change rest ih =>
    rw [List.map_cons, netOf_cons, ih, netOf_cons]
    by_cases same : place = query
    · simp [same]
    · simp [same]

/-- A list of times is posted at one output with one value. -/
theorem Tracker.foldlM_updateSource {T S : Type} [PathSummary S] [Timestamp T S] {topology : Topology S}
    (tracker : Tracker T topology) {node port : Nat} (registered : Location.source node port ∈ topology.locations)
    {times : List T} (distinct : times.Nodup) (value : Int) :
    ∃ next, times.foldlM (fun current time => current.updateSource node port time value) tracker = some next ∧
      Posts tracker next (fun location time => if Location.source node port = location then present times time * value
        else 0) fun location => location = .source node port := by
  obtain ⟨next, done, posts⟩ := tracker.foldlM_post (fun time => ((.source node port, time), value)) times
    fun _ _ => registered
  refine ⟨next, done, posts.weaken (fun location time => ?_) fun location touched => ?_⟩
  · rw [← netOf_map_const times distinct, ← netOf_map_place, List.map_map]
    rfl
  · obtain ⟨_, _, same⟩ := touched
    exact same

/-- The projected batch counts the changes by their outer time. -/
theorem projectExports_net (node output place : Nat) (changes : List (Product P.T inner.T × Int)) (time : P.T) :
    netOf ((projectExports output changes).map fun change => ((Location.source node change.1, change.2.1), change.2.2))
        (.source node place, time) =
      if output = place then weigh changes (outerWeight time) else 0 := by
  unfold projectExports
  rw [List.map_map]
  change netOf (List.map (fun change : P.T × Int => ((Location.source node output, change.1), change.2)) _) _ = _
  rw [netOf_map_place, ChangeBatch.drain_net]
  simp only [Location.source.injEq, true_and]
  congr 1
  suffices general : ∀ batch : ChangeBatch P.T,
      (changes.foldl (fun batch change => batch.update change.1.outer change.2) batch).net time =
        batch.net time + weigh changes (outerWeight time) by
    rw [general]
    exact Int.zero_add _
  induction changes with
  | nil => exact fun batch => (Int.add_zero _).symm
  | cons change rest ih =>
    intro batch
    rw [List.foldl_cons, ih, ChangeBatch.update_net, weigh_cons]
    unfold outerWeight
    by_cases same : change.1.outer = time
    · simp only [same, if_true]
      omega
    · simp only [same, if_false]
      omega

variable {topology : Topology (P.product inner).S}

/-- Taking the exports empties the recorded changes of the outputs and returns their projection. -/
theorem takeExports_spec (node : Nat) (outputs : List Nat) (distinct : outputs.Nodup)
    (tracker : Tracker (P.product inner).T topology) :
    (∀ place (time : P.T), netOf ((takeExports outputs tracker).1.map fun change =>
        ((Location.source node change.1, change.2.1), change.2.2)) (.source node place, time) =
      if place ∈ outputs then weigh (tracker.exportChanges place).updates (outerWeight time) else 0) ∧
    (∀ change ∈ (takeExports outputs tracker).1, change.1 ∈ outputs) ∧
    (takeExports outputs tracker).2 = { tracker with
      exportChanges := fun output => if output ∈ outputs then ChangeBatch.new else tracker.exportChanges output } := by
  induction outputs generalizing tracker with
  | nil => exact ⟨fun _ _ => rfl, nofun, rfl⟩
  | cons output rest ih =>
    obtain ⟨absent, distinctRest⟩ := List.nodup_cons.mp distinct
    obtain ⟨nets, members, taken⟩ := ih distinctRest (tracker.drainExportChanges output).2
    refine ⟨fun place time => ?_, fun change member => ?_, ?_⟩
    · unfold takeExports
      rw [List.map_append, netOf_append, projectExports_net, nets]
      unfold Tracker.drainExportChanges
      rw [ChangeBatch.drain_weigh]
      by_cases same : output = place
      · subst same
        simp only [absent, if_false, if_true, List.mem_cons_self]
        exact Int.add_zero _
      · have apart : place ≠ output := fun equal => same equal.symm
        simp only [same, if_false, Function.update_of_ne apart, List.mem_cons, apart, false_or]
        exact Int.zero_add _
    · rcases List.mem_append.mp member with first | later
      · obtain ⟨entry, _, same⟩ := List.mem_map.mp first
        rw [← same]
        exact List.mem_cons_self
      · exact List.mem_cons_of_mem output (members change later)
    · unfold takeExports
      rw [taken]
      unfold Tracker.drainExportChanges
      congr 1
      funext place
      by_cases same : place = output
      · subst same
        simp [ChangeBatch.drain_rest]
      · simp [same]

end Projection

section Links

/-- What is posted at a loop's node and recorded for it is its export, and its boundary holds its import. -/
structure Link {P inner : TimeType} {topology : Topology P.S} (parent : Tracker P.T topology) (node : Nat)
    {scope : ScopeGraph (P.product inner)} (loop : LoopState scope) : Prop where
  exports : ∀ output < scope.builder.scopeOutputs, ∀ time : P.T,
    parent.posted (.source node output) time +
        weigh (loop.tracker.exportChanges output).updates (outerWeight time) =
      loop.tracker.exportSum output (outerWeight time)
  imports : ∀ input < scope.builder.scopeInputs, ∀ time,
    loop.tracker.posted (.source 0 input) time = present (loop.imported input).elements time
  boundary : ∀ location, location.node = 0 → (∀ input < scope.builder.scopeInputs, location ≠ .source 0 input) →
    ∀ time, loop.tracker.posted location time = 0

/-- The export phase leaves nothing pending in a loop and nothing recorded for its node. -/
structure Flushed {scope : ScopeGraph P} (loop : LoopState scope) : Prop where
  applied : loop.tracker.Applied
  taken : ∀ output < scope.builder.scopeOutputs, loop.tracker.exportChanges output = ChangeBatch.new

/-- A link depends on the counts at the exports, on what the loop has applied and recorded, and on its boundary. -/
theorem Link.congr {inner : TimeType} {topology : Topology P.S} {parent next : Tracker P.T topology} {node : Nat}
    {scope : ScopeGraph (P.product inner)} {loop : LoopState scope} (link : Link parent node loop)
    {after : Tracker (P.product inner).T scope.topology} (exported : ∀ output < scope.builder.scopeOutputs, ∀ time,
      next.posted (.source node output) time = parent.posted (.source node output) time)
    (recorded : after.exportChanges = loop.tracker.exportChanges)
    (applied : ∀ location, (after.ports location).pointstamps = (loop.tracker.ports location).pointstamps)
    (boundary : ∀ location, location.node = 0 → ∀ time,
      after.posted location time = loop.tracker.posted location time) : Link next node ⟨after, loop.imported⟩ where
  exports output bound time := by
    rw [exported output bound, recorded, Tracker.exportSum_congr applied]
    exact link.exports output bound time
  imports input bound time := (boundary _ rfl time).trans (link.imports input bound time)
  boundary location isBoundary apart time :=
    (boundary location isBoundary time).trans (link.boundary location isBoundary apart time)

namespace LoopScopes

/-- Every loop is confined and linked to its parent, and the given fact holds of it. -/
def Linked (fact : {Q : TimeType} → {scope : ScopeGraph Q} → LoopState scope → Prop) :
    {P : TimeType} → (loops : LoopScopes P) → {topology : Topology P.S} → Tracker P.T topology → loops.States → Prop
  | _, .nil, _, _, _ => True
  | _, .cons _ node scope children rest, _, parent, state =>
    match (state : (LoopState scope × children.States) × rest.States) with
    | ((loop, states), others) =>
      (loop.tracker.Confined ∧ fact loop ∧ Link parent node loop) ∧ children.Linked fact loop.tracker states ∧
        rest.Linked fact parent others

/-- The loops of a scope have different nodes, and none is the boundary. -/
def Apart : {P : TimeType} → LoopScopes P → Prop
  | _, .nil => True
  | _, .cons _ node _ children rest =>
    (node ≠ 0 ∧ ∀ child ∈ rest.nodes, child.node ≠ node) ∧ children.Apart ∧ rest.Apart

theorem Apart.node_ne_zero (loops : LoopScopes P) : loops.Apart →
    ∀ child ∈ loops.nodes, child.node ≠ 0 := by
  induction loops with
  | nil => exact nofun
  | cons inner node scope children rest _ ihRest =>
    intro apart child member
    rcases List.mem_cons.mp member with same | later
    · exact same ▸ apart.1.1
    · exact ihRest apart.2.2 child later

theorem Exports.node_ne_zero {loops : LoopScopes P} (apart : loops.Apart)
    (exported : loops.Exports location) : location.node ≠ 0 := by
  obtain ⟨child, member, output, _, same⟩ := exported
  exact same ▸ Apart.node_ne_zero loops apart child member

/-- The outputs of a loop's node are ports of its parent. -/
theorem Exports.registered {loops : LoopScopes P} {builder : Builder P.S}
    (wellFormed : builder.WellFormed) (wired : loops.Wired builder)
    (exported : loops.Exports location) : location ∈ builder.locations := by
  obtain ⟨child, member, output, bound, same⟩ := exported
  have dims := wellFormed.shape_of_node child.node _ (Wired.registered loops builder wired child member)
  rw [same, Builder.source_mem_locations, ← dims.2]
  exact ⟨dims.1, bound⟩

/-- The links depend on the parent only through its counts at the exports. -/
theorem Linked.congr {fact : {Q : TimeType} → {scope : ScopeGraph Q} → LoopState scope → Prop}
    (loops : LoopScopes P) : ∀ {topology : Topology P.S} (tracker next : Tracker P.T topology) (states : loops.States),
    (∀ location, loops.Exports location → ∀ time, next.posted location time = tracker.posted location time) →
    loops.Linked fact tracker states → loops.Linked fact next states := by
  induction loops with
  | nil => exact fun _ _ _ _ _ => trivial
  | cons inner node scope children rest _ ihRest =>
    intro topology tracker next state same linked
    obtain ⟨⟨loop, states⟩, others⟩ := state
    obtain ⟨⟨confined, holds, link⟩, linkedChildren, linkedRest⟩ := linked
    refine ⟨⟨confined, holds, link.congr (fun output bound => same _ ⟨_, List.mem_cons_self, output, bound, rfl⟩) rfl
      (fun _ => rfl) fun _ _ _ => rfl⟩, linkedChildren, ?_⟩
    apply ihRest tracker next others _ linkedRest
    intro location exported
    obtain ⟨child, member, found⟩ := exported
    exact same location ⟨child, List.mem_cons_of_mem _ member, found⟩

end LoopScopes

end Links

/-- The loops stay linked when the fact about them is forgotten. -/
theorem LoopScopes.Linked.weaken {fact : {Q : TimeType} → {scope : ScopeGraph Q} → LoopState scope → Prop}
    {P : TimeType}
    (loops : LoopScopes P) : ∀ {topology : Topology P.S} (tracker : Tracker P.T topology) (states : loops.States),
    loops.Linked fact tracker states → loops.Linked (fun _ => True) tracker states := by
  induction loops with
  | nil => exact fun _ _ _ => trivial
  | cons inner node scope children rest ihChildren ihRest =>
    intro topology tracker state linked
    obtain ⟨⟨loop, states⟩, others⟩ := state
    obtain ⟨⟨confined, _, link⟩, linkedChildren, linkedRest⟩ := linked
    exact ⟨⟨confined, trivial, link⟩, ihChildren loop.tracker states linkedChildren, ihRest tracker others linkedRest⟩

section ExportPhase

/-- The boundary inputs of a graph are ports of it. -/
theorem Builder.WellFormed.boundary_mem {S : Type} [PathSummary S] {builder : Builder S}
    (wellFormed : builder.WellFormed) {input : Nat} (bound : input < builder.scopeInputs) :
    Location.source 0 input ∈ builder.locations := by
  have dims := wellFormed.shape_of_node 0 _ wellFormed.boundary
  rw [Builder.source_mem_locations, ← dims.2]
  exact ⟨dims.1, bound⟩

variable {P inner : TimeType} {outer : ScopeGraph P} {scope : ScopeGraph (P.product inner)} {node : Nat}

/-- One loop applies its changes and hands its export to its node. -/
theorem Link.flush (wiring : Wiring outer.builder node scope) (wellFormed : outer.builder.WellFormed)
    {tracker : Tracker P.T outer.topology} {loop : LoopState scope} (link : Link tracker node loop)
    {own : Tracker (P.product inner).T scope.topology} {net : Location → (P.product inner).T → Int}
    {touched : Location → Prop} (posts : Tracker.Posts loop.tracker own net touched) (confined : own.Confined)
    (inside : ∀ location, touched location → location.node ≠ 0) :
    ∃ posted, postExports node tracker
        (takeExports (List.range scope.outerSummary.outputs) own.applyPending).1 = some posted ∧
      (∃ change, Tracker.Posts tracker posted change
        fun location => ∃ output < scope.builder.scopeOutputs, location = .source node output) ∧
      ∀ taken, taken = (takeExports (P := P) (List.range scope.outerSummary.outputs) own.applyPending).2 →
        taken.Confined ∧ Flushed ⟨taken, loop.imported⟩ ∧ Link posted node ⟨taken, loop.imported⟩ ∧
          ∀ location time, taken.posted location time = own.posted location time := by
  obtain ⟨confinedApplied, applied, samePosted⟩ := Tracker.applyPending_spec confined
  obtain ⟨nets, members, result⟩ := takeExports_spec node (List.range scope.outerSummary.outputs)
    List.nodup_range own.applyPending
  have dims := wellFormed.shape_of_node node _ wiring.registered
  obtain ⟨posted, done, exported⟩ := tracker.foldlM_post
    (fun change => ((Location.source node change.1, change.2.1), change.2.2))
    (takeExports (List.range scope.outerSummary.outputs) own.applyPending).1 (by
    intro entry found
    apply Builder.source_mem_locations.mpr
    rw [← dims.2]
    exact ⟨dims.1, List.mem_range.mp (members entry found)⟩)
  refine ⟨posted, done, ⟨_, exported.weaken (fun _ _ => rfl) ?_⟩, ?_⟩
  · intro location found
    obtain ⟨entry, isEntry, same⟩ := found
    exact ⟨entry.1, List.mem_range.mp (members entry isEntry), same⟩
  · intro taken same
    rw [result] at same
    subst same
    refine ⟨⟨⟨confinedApplied.consistent.balanced, confinedApplied.consistent.registered⟩, confinedApplied.pending,
      confinedApplied.counts⟩, ⟨applied, fun output bound => if_pos (List.mem_range.mpr bound)⟩,
      ⟨fun output bound time => ?_, fun input bound time => ?_, fun location isBoundary apart time => ?_⟩, samePosted⟩
    · -- The recorded changes of the drain close the gap between what was posted and what is exported now.
      have before := link.exports output bound time
      have drained := own.drainPendingChanges_exports output (outerWeight time)
      have sameSum : own.exportSum output (outerWeight time) = loop.tracker.exportSum output (outerWeight time) :=
        Tracker.exportSum_congr (fun location => by rw [posts.ports]) output _
      rw [sameSum, posts.exportChanges] at drained
      have inRange : output ∈ List.range scope.outerSummary.outputs := List.mem_range.mpr bound
      rw [exported.posted, nets]
      simp only [if_pos inRange]
      change _ + weigh (own.drainPendingChanges.exportChanges output).updates (outerWeight time) + 0 =
        own.drainPendingChanges.exportSum output (outerWeight time)
      omega
    · refine (samePosted _ _).trans ((posts.posted_of_not (fun isTouched => ?_) time).trans
        (link.imports input bound time))
      exact inside _ isTouched rfl
    · refine (samePosted _ _).trans ((posts.posted_of_not (fun isTouched => ?_) time).trans
        (link.boundary location isBoundary apart time))
      exact inside _ isTouched isBoundary

end ExportPhase

/-- The export phase applies the changes of every loop and keeps the raw counts. -/
theorem LoopScopes.applyAndExport_spec (loops : LoopScopes P) : ∀ (outer : ScopeGraph P)
    (tracker : Tracker P.T outer.topology) (states : loops.States), outer.builder.WellFormed →
    loops.Wired outer.builder → loops.Apart → loops.Linked (fun _ => True) tracker states →
    ∃ next after, loops.applyAndExport tracker states = some (next, after) ∧ loops.Linked Flushed next after ∧
      (∃ net, Tracker.Posts tracker next net loops.Exports) ∧
      ∀ point, loops.IsRaw point → loops.count after point = loops.count states point := by
  induction loops with
  | nil =>
    intro outer tracker states _ _ _ _
    exact ⟨tracker, (), rfl, trivial, ⟨_, (Tracker.Posts.refl tracker).weaken (fun _ _ => rfl) fun _ => False.elim⟩,
      fun point => point.elim⟩
  | cons inner node scope children rest ihChildren ihRest =>
    intro outer tracker state wellFormed wired apart linked
    obtain ⟨⟨loop, states⟩, others⟩ := state
    obtain ⟨wiring, wiredChildren, wiredRest⟩ := wired
    obtain ⟨⟨nonzero, apartNodes⟩, apartChildren, apartRest⟩ := apart
    obtain ⟨⟨confined, _, link⟩, linkedChildren, linkedRest⟩ := linked
    obtain ⟨own, inside, applied, linkedInside, ⟨net, posts⟩, rawInside⟩ := ihChildren scope loop.tracker states
      wiring.sound.wellFormed wiredChildren apartChildren linkedChildren
    have confinedOwn := posts.confined
      (fun location exported => exported.registered wiring.sound.wellFormed wiredChildren) confined
    obtain ⟨posted, exported, ⟨change, here⟩, flushed⟩ := link.flush wiring wellFormed posts confinedOwn
      fun location found => found.node_ne_zero apartChildren
    obtain ⟨confinedTaken, isFlushed, linkTaken, samePosted⟩ := flushed _ rfl
    have elsewhere : ∀ location, rest.Exports location →
        ¬ ∃ output < scope.builder.scopeOutputs, location = .source node output := by
      intro location found clash
      obtain ⟨child, member, output, _, same⟩ := found
      obtain ⟨column, _, isHere⟩ := clash
      rw [same, Location.source.injEq] at isHere
      exact apartNodes child member isHere.1
    obtain ⟨next, after, applied', linkedAfter, ⟨late, there⟩, rawAfter⟩ := ihRest outer posted others wellFormed
      wiredRest apartRest (Linked.congr rest tracker posted others
        (fun location found time => here.posted_of_not (elsewhere location found) time) linkedRest)
    have linkNext := linkTaken.congr (fun output bound =>
      there.posted_of_not fun found => elsewhere _ found ⟨output, bound, rfl⟩) rfl (fun _ => rfl) fun _ _ _ => rfl
    refine ⟨next, ((⟨_, loop.imported⟩, inside), after), ?_, ⟨⟨confinedTaken, isFlushed, linkNext⟩, ?_, linkedAfter⟩,
      ⟨_, (here.trans there).weaken (fun _ _ => rfl) ?_⟩, ?_⟩
    · simp only [applyAndExport]
      rw [applied, Option.bind_some, exported, Option.bind_some, applied']
      rfl
    · exact Linked.congr children own _ inside (fun location _ time => samePosted location time) linkedInside
    · intro location found
      rcases found with ⟨output, bound, same⟩ | ⟨child, member, found⟩
      · exact ⟨_, List.mem_cons_self, output, bound, same⟩
      · exact ⟨child, List.mem_cons_of_mem _ member, found⟩
    · intro point raw
      rcases point with (place | nested) | other
      · exact (samePosted place.location place.time).trans (posts.posted_of_not raw.2 place.time)
      · exact rawInside nested raw
      · exact rawAfter other raw

section ImportPhase

variable {P inner : TimeType}

/-- The entered frontier has the times of the parent's frontier at the first iteration. -/
theorem enterFrontier_elements {frontier : List P.T} (apart : frontier.Pairwise Incomparable) :
    (enterFrontier (Antichain.fromElemIter frontier) : Antichain (P.product inner).T).elements =
      frontier.map fun time => (⟨time, minimum⟩ : Product P.T inner.T) := by
  unfold enterFrontier
  rw [Antichain.fromElemIter_elements apart, Antichain.fromElemIter_elements]
  apply apart.map
  intro first second different
  exact ⟨fun below => different.1 below.1, fun below => different.2 below.1⟩

/-- The two posted differences turn the old frontier into the new one. -/
theorem present_difference {T : Type} [TimeOrder T] (old fresh : List T) (time : T) :
    present old time + present (old.filter fun t => !fresh.contains t) time * -1 +
      present (fresh.filter fun t => !old.contains t) time * 1 = present fresh time := by
  unfold present
  by_cases inOld : time ∈ old <;> by_cases inFresh : time ∈ fresh <;> simp [List.mem_filter, inOld, inFresh]

variable {scope : ScopeGraph (P.product inner)}

/-- The import of one input replaces the frontier imported last. -/
theorem importInput_spec (frontier : Nat → Antichain P.T) (loop : LoopState scope) (input : Nat)
    (registered : Location.source 0 input ∈ scope.builder.locations)
    (imported : ∀ time, loop.tracker.posted (.source 0 input) time = present (loop.imported input).elements time) :
    ∃ next, importInput frontier loop input = some next ∧
      (∃ net, Tracker.Posts loop.tracker next.tracker net fun location => location = .source 0 input) ∧
      next.imported = Function.update loop.imported input (enterFrontier (frontier input)) ∧
      ∀ time, next.tracker.posted (.source 0 input) time = present (next.imported input).elements time := by
  obtain ⟨released, goneDone, gonePosts⟩ := loop.tracker.foldlM_updateSource registered
    ((loop.imported input).nodup.filter fun time =>
      !(enterFrontier (frontier input) : Antichain (P.product inner).T).elements.contains time) (-1)
  obtain ⟨tracker, freshDone, freshPosts⟩ := released.foldlM_updateSource registered
    ((enterFrontier (frontier input) : Antichain (P.product inner).T).nodup.filter fun time =>
      !(loop.imported input).elements.contains time) 1
  refine ⟨⟨tracker, Function.update loop.imported input (enterFrontier (frontier input))⟩, ?_, ⟨_,
    (gonePosts.trans freshPosts).weaken (fun _ _ => rfl) fun _ => Or.rec id id⟩, rfl, fun time => ?_⟩
  · simp only [importInput]
    rw [goneDone, Option.bind_some, freshDone]
    rfl
  · rw [freshPosts.posted, gonePosts.posted, imported, if_pos rfl, if_pos rfl]
    simp only [Function.update_self]
    exact present_difference _ _ time

/-- The import of several inputs replaces each of their frontiers. -/
theorem importInputs_spec (frontier : Nat → Antichain P.T) (inputs : List Nat) (distinct : inputs.Nodup)
    (registered : ∀ input ∈ inputs, Location.source 0 input ∈ scope.builder.locations) (loop : LoopState scope)
    (imported : ∀ input ∈ inputs, ∀ time,
      loop.tracker.posted (.source 0 input) time = present (loop.imported input).elements time) :
    ∃ next, inputs.foldlM (importInput frontier) loop = some next ∧
      (∃ net, Tracker.Posts loop.tracker next.tracker net
        fun location => ∃ input ∈ inputs, location = .source 0 input) ∧
      (∀ input ∉ inputs, next.imported input = loop.imported input) ∧
      ∀ input ∈ inputs, next.imported input = enterFrontier (frontier input) ∧
        ∀ time, next.tracker.posted (.source 0 input) time = present (next.imported input).elements time := by
  induction inputs generalizing loop with
  | nil =>
    exact ⟨loop, rfl, ⟨_, (Tracker.Posts.refl loop.tracker).weaken (fun _ _ => rfl) fun _ => False.elim⟩,
      fun _ _ => rfl, nofun⟩
  | cons input rest ih =>
    obtain ⟨absent, distinctRest⟩ := List.nodup_cons.mp distinct
    obtain ⟨middle, done, ⟨net, here⟩, sameImports, present⟩ := importInput_spec frontier loop input
      (registered input List.mem_cons_self) (imported input List.mem_cons_self)
    have notHere : ∀ other ∈ rest, ¬ Location.source 0 other = .source 0 input := by
      intro other member same
      rw [Location.source.injEq] at same
      exact absent (same.2 ▸ member)
    obtain ⟨next, others, ⟨late, there⟩, untouched, replaced⟩ := ih distinctRest
      (fun other member => registered other (List.mem_cons_of_mem input member)) middle (by
        intro other member time
        have apart : other ≠ input := fun same => absent (same ▸ member)
        rw [here.posted_of_not (notHere other member), sameImports, Function.update_of_ne apart]
        exact imported other (List.mem_cons_of_mem input member) time)
    refine ⟨next, ?_, ⟨_, (here.trans there).weaken (fun _ _ => rfl) ?_⟩, ?_, ?_⟩
    · rw [List.foldlM_cons, done]
      exact others
    · intro location touched
      rcases touched with same | ⟨other, member, same⟩
      · exact ⟨input, List.mem_cons_self, same⟩
      · exact ⟨other, List.mem_cons_of_mem input member, same⟩
    · intro other missing
      have apart : other ≠ input := fun same => missing (same ▸ List.mem_cons_self)
      rw [untouched other fun member => missing (List.mem_cons_of_mem input member), sameImports,
        Function.update_of_ne apart]
    · intro other member
      rcases List.mem_cons.mp member with same | later
      · subst same
        have kept := untouched other absent
        refine ⟨?_, fun time => ?_⟩
        · rw [kept, sameImports, Function.update_self]
        · rw [there.posted_of_not fun clash => ?_, kept]
          · exact present time
          · obtain ⟨input, inRest, same⟩ := clash
            exact notHere input inRest same.symm
      · exact replaced other later

/-- What a loop exports with a given outer time is counted by the weighted sum. -/
theorem exportSum_outer_pos_iff {tracker : Tracker (P.product inner).T scope.topology} (confined : tracker.Confined)
    (output : Nat) (time : P.T) : 0 < tracker.exportSum output (outerWeight time) ↔
      ∃ location start final, start ∈ (tracker.ports location).pointstamps.frontier ∧
        (output, final) ∈ scope.topology.exported location start ∧ final.outer = time := by
  have weight_pos : ∀ inside : Product P.T inner.T, 0 < outerWeight time inside ↔ inside.outer = time := by
    intro inside
    unfold outerWeight
    split <;> simp_all
  rw [Tracker.exportSum_pos_iff tracker fun inside => by unfold outerWeight; split <;> decide]
  simp only [weight_pos]
  constructor
  · intro found
    obtain ⟨location, _, start, onFrontier, final, exported, same⟩ := found
    exact ⟨location, start, final, onFrontier, exported, same⟩
  · intro found
    obtain ⟨location, start, final, onFrontier, exported, same⟩ := found
    refine ⟨location, ?_, start, onFrontier, final, exported, same⟩
    by_contra outside
    have held := (tracker.ports location).pointstamps.isFrontier.sound start onFrontier
    exact absurd (confined.counts location outside start) (Int.ne_of_gt held)

variable {outer : ScopeGraph P} {node : Nat} {tracker : Tracker P.T outer.topology} {loop : LoopState scope}

/-- A flushed loop whose recorded changes are taken agrees with its node. -/
theorem Link.bridge (link : Link tracker node loop) (confined : loop.tracker.Confined) (flushed : Flushed loop)
    (isExact : loop.tracker.Exact)
    (imported : ∀ input < scope.builder.scopeInputs, (loop.imported input).elements =
      (tracker.targetFrontier node input).map fun time => (⟨time, minimum⟩ : Product P.T inner.T)) :
    Bridge tracker node loop where
  exactly := isExact
  applied := flushed.applied.posted
  boundary location time isBoundary posted := by
    by_contra missing
    push Not at missing
    exact Int.ne_of_gt posted (link.boundary location isBoundary missing time)
  imports input bound time := by
    rw [link.imports input bound, imported input bound]
    unfold present
    simp only [List.mem_map]
    constructor
    · intro positive
      split at positive
      · rename_i found
        obtain ⟨early, member, same⟩ := found
        exact ⟨early, member, same.symm⟩
      · exact absurd positive (by decide)
    · intro found
      obtain ⟨early, member, same⟩ := found
      rw [if_pos ⟨early, member, same.symm⟩]
      decide
  exports output bound time := by
    have sums := link.exports output bound time
    rw [flushed.taken output bound] at sums
    change _ + 0 = _ at sums
    rw [Int.add_zero] at sums
    rw [sums]
    exact exportSum_outer_pos_iff confined output time

/-- One loop imports the frontier at its node and propagates. -/
theorem Link.arrive (sound : scope.builder.Sound) (link : Link tracker node loop) (confined : loop.tracker.Confined)
    (flushed : Flushed loop) :
    ∃ entered bound propagated, (List.range scope.outerSummary.inputs).foldlM
        (importInput fun input => Antichain.fromElemIter (tracker.targetFrontier node input)) loop = some entered ∧
      (∀ fuel, bound ≤ fuel → entered.tracker.applyPending.propagateWorklist fuel = some propagated) ∧
      propagated.Confined ∧ Link tracker node ⟨propagated, entered.imported⟩ ∧
      Flushed ⟨propagated, entered.imported⟩ ∧ Bridge tracker node ⟨propagated, entered.imported⟩ ∧
      ∀ location, location.node ≠ 0 → ∀ time, propagated.posted location time = loop.tracker.posted location time := by
  have registered : ∀ input ∈ List.range scope.outerSummary.inputs, Location.source 0 input ∈ scope.builder.locations :=
    fun input member => sound.wellFormed.boundary_mem (List.mem_range.mp member)
  obtain ⟨entered, done, ⟨net, posts⟩, _, replaced⟩ := importInputs_spec
    (fun input => Antichain.fromElemIter (tracker.targetFrontier node input)) (List.range scope.outerSummary.inputs)
    List.nodup_range registered loop fun input member => link.imports input (List.mem_range.mp member)
  have confinedEntered := posts.confined (fun location touched => by
    obtain ⟨input, member, same⟩ := touched
    exact same ▸ registered input member) confined
  obtain ⟨bound, propagated, ended, confinedResult, appliedResult, isExact, sameExports, samePoints, posted⟩ :=
    Tracker.settles sound confinedEntered
  -- The import sits at the boundary, which exports nothing, so the recorded exports stay taken.
  have sameRecorded : propagated.exportChanges = loop.tracker.exportChanges := by
    rw [sameExports, ← posts.exportChanges]
    apply Tracker.foldl_drainPort_exportChanges
    intro location _
    by_cases touched : ∃ input ∈ List.range scope.outerSummary.inputs, location = .source 0 input
    · obtain ⟨input, _, same⟩ := touched
      subst same
      exact Or.inr fun time => rfl
    · rw [posts.pending location touched]
      exact Or.inl (flushed.applied location)
  have sameSum : ∀ output (time : P.T), propagated.exportSum output (outerWeight time) =
      loop.tracker.exportSum output (outerWeight time) := by
    intro output time
    have drained := entered.tracker.drainPendingChanges_exports output (outerWeight time)
    have recorded : entered.tracker.drainPendingChanges.exportChanges = entered.tracker.exportChanges := by
      rw [posts.exportChanges, ← sameRecorded, sameExports]
      rfl
    rw [recorded] at drained
    have enteredSum : entered.tracker.exportSum output (outerWeight time) =
        loop.tracker.exportSum output (outerWeight time) :=
      Tracker.exportSum_congr (fun location => by rw [posts.ports]) output _
    rw [Tracker.exportSum_congr samePoints, ← enteredSum]
    exact (Int.add_left_cancel drained).symm
  have linkResult : Link tracker node ⟨propagated, entered.imported⟩ := by
    refine ⟨fun output bound time => ?_, fun input bound time => ?_, fun location isBoundary apart time => ?_⟩
    · rw [sameRecorded, sameSum]
      exact link.exports output bound time
    · rw [posted]
      exact (replaced input (List.mem_range.mpr bound)).2 time
    · rw [posted, posts.posted_of_not fun touched => ?_]
      · exact link.boundary location isBoundary apart time
      · obtain ⟨input, member, same⟩ := touched
        exact apart input (List.mem_range.mp member) same
  have flushedResult : Flushed ⟨propagated, entered.imported⟩ :=
    ⟨appliedResult, fun output bound => by rw [sameRecorded]; exact flushed.taken output bound⟩
  refine ⟨entered, bound, propagated, done, ended, confinedResult, linkResult, flushedResult,
    linkResult.bridge confinedResult flushedResult isExact fun input bound => ?_, fun location operator time => ?_⟩
  · rw [(replaced input (List.mem_range.mpr bound)).1]
    exact enterFrontier_elements (tracker.ports (.target node input)).implications.isFrontier.incomparable
  · rw [posted, posts.posted_of_not fun touched => ?_]
    obtain ⟨input, _, same⟩ := touched
    exact operator (same ▸ rfl)

end ImportPhase

/-- The import phase ends with every loop bridged to its parent and keeps the raw counts. -/
theorem LoopScopes.importAndPropagate_spec (loops : LoopScopes P) : ∀ (outer : ScopeGraph P)
    (tracker : Tracker P.T outer.topology) (states : loops.States), loops.Wired outer.builder → loops.Apart →
    loops.Linked Flushed tracker states →
    ∃ bound after, (∀ fuel, bound ≤ fuel → loops.importAndPropagate fuel tracker states = some after) ∧
      loops.Linked Flushed tracker after ∧ loops.Bridged tracker after ∧
      ∀ point, loops.IsRaw point → loops.count after point = loops.count states point := by
  induction loops with
  | nil => exact fun _ _ _ _ _ _ => ⟨0, (), fun _ _ => rfl, trivial, trivial, fun point => point.elim⟩
  | cons inner node scope children rest ihChildren ihRest =>
    intro outer tracker state wired apart linked
    obtain ⟨⟨loop, states⟩, others⟩ := state
    obtain ⟨wiring, wiredChildren, wiredRest⟩ := wired
    obtain ⟨_, apartChildren, apartRest⟩ := apart
    obtain ⟨⟨confined, flushed, link⟩, linkedChildren, linkedRest⟩ := linked
    obtain ⟨entered, first, propagated, done, ended, confinedResult, linkResult, flushedResult, bridge, samePosted⟩ :=
      link.arrive wiring.sound confined flushed
    obtain ⟨second, inside, endedInside, linkedInside, bridgedInside, rawInside⟩ :=
      ihChildren scope propagated states wiredChildren apartChildren
        (Linked.congr children loop.tracker propagated states
          (fun location exported => samePosted location (exported.node_ne_zero apartChildren)) linkedChildren)
    obtain ⟨third, outside, endedOutside, linkedOutside, bridgedOutside, rawOutside⟩ :=
      ihRest outer tracker others wiredRest apartRest linkedRest
    refine ⟨max first (max second third), ((⟨propagated, entered.imported⟩, inside), outside), fun fuel enough => ?_,
      ⟨⟨confinedResult, flushedResult, linkResult⟩, linkedInside, linkedOutside⟩, ⟨bridge, bridgedInside, bridgedOutside⟩,
      fun point raw => ?_⟩
    · simp only [importAndPropagate]
      rw [done, Option.bind_some, ended fuel (by omega), Option.bind_some, endedInside fuel (by omega),
        Option.bind_some, endedOutside fuel (by omega)]
      rfl
    · rcases point with (place | nested) | other
      · exact samePosted place.location raw.1 place.time
      · exact rawInside nested raw
      · exact rawOutside other raw

namespace ProgressTracker

variable {graph : ProgressGraph P}

/-- The state of a dataflow between two calls. -/
structure Idle (state : ProgressTracker graph) : Prop where
  confined : state.tracker.Confined
  loops : graph.loops.Linked (fun _ => True) state.tracker state.children

/-- The state of a dataflow after a propagation: nothing is pending in any scope. -/
structure Settled (state : ProgressTracker graph) : Prop where
  confined : state.tracker.Confined
  applied : state.tracker.Applied
  loops : graph.loops.Linked Flushed state.tracker state.children

variable {state : ProgressTracker graph}

theorem Settled.idle (settled : state.Settled) : state.Idle :=
  ⟨settled.confined, LoopScopes.Linked.weaken graph.loops state.tracker state.children settled.loops⟩

/-- A propagation ends settled and bridged, and keeps the raw counts. -/
theorem exportAndPropagate_settles (wired : graph.Wired) (apart : graph.loops.Apart) (idle : state.Idle) :
    ∃ bound next, (∀ fuel, bound ≤ fuel → state.exportAndPropagate fuel = some next) ∧ next.Settled ∧ next.Bridged ∧
      ∀ point, graph.IsRaw point → next.count point = state.count point := by
  obtain ⟨exported, states, applied, flushed, ⟨net, posts⟩, rawExported⟩ :=
    graph.loops.applyAndExport_spec graph.root state.tracker state.children wired.sound.wellFormed wired.loops apart
      idle.loops
  have confinedExported := posts.confined
    (fun location found => found.registered wired.sound.wellFormed wired.loops) idle.confined
  obtain ⟨first, propagated, ended, confinedResult, appliedResult, isExact, _, _, posted⟩ :=
    Tracker.settles wired.sound confinedExported
  obtain ⟨second, children, endedLoops, linked, bridged, rawLoops⟩ :=
    graph.loops.importAndPropagate_spec graph.root propagated states wired.loops apart
      (LoopScopes.Linked.congr graph.loops exported propagated states (fun location _ => posted location) flushed)
  refine ⟨max first second, ⟨propagated, children⟩, fun fuel enough => ?_,
    ⟨confinedResult, appliedResult, linked⟩, ⟨isExact, bridged⟩, fun point raw => ?_⟩
  · unfold exportAndPropagate
    rw [applied, Option.bind_some, ended fuel (by omega), Option.bind_some, endedLoops fuel (by omega)]
    rfl
  · cases point with
    | inl own => exact (posted own.location own.time).trans (posts.posted_of_not raw own.time)
    | inr nested => exact (rawLoops nested raw).trans (rawExported nested raw)

/-- A propagation ends bridged and keeps the raw counts. -/
theorem exportAndPropagate_spec (wired : graph.Wired) (apart : graph.loops.Apart) (idle : state.Idle) :
    ∃ bound next, (∀ fuel, bound ≤ fuel → state.exportAndPropagate fuel = some next) ∧ next.Idle ∧ next.Bridged ∧
      ∀ point, graph.IsRaw point → next.count point = state.count point := by
  obtain ⟨bound, next, ended, settled, bridged, counts⟩ := exportAndPropagate_settles wired apart idle
  exact ⟨bound, next, ended, settled.idle, bridged, counts⟩

end ProgressTracker

end Instancy
