import Instancy.Library.Fallible
import Instancy.Progress.Subgraph.Phases

namespace Instancy

open Library

variable {P : TimeType}

section Compile

/-- The operators of a scope do not use the boundary node. -/
def SubgraphBuilder.Proper (builder : SubgraphBuilder P) : Prop := ∀ shape ∈ builder.operators, shape.index ≠ 0

/-- The nodes of the loops of a scope. -/
def LoopBuilders.nodes : LoopBuilders P → List Nat
  | .nil => []
  | .cons _ node _ _ rest => node :: rest.nodes

/-- No operator or loop uses the boundary node, and the loops of a scope have different nodes. -/
def LoopBuilders.Proper : {P : TimeType} → LoopBuilders P → Prop
  | _, .nil => True
  | _, .cons _ node builder children rest =>
    (node ≠ 0 ∧ node ∉ rest.nodes) ∧ builder.Proper ∧ children.Proper ∧ rest.Proper

/-- The scope ids of the loops of a scope. -/
def LoopBuilders.scopeIds : LoopBuilders P → List Nat
  | .nil => []
  | .cons _ _ builder _ rest => builder.scopeId :: rest.scopeIds

/-- The loops of every scope have different positive ids, and no operator uses the boundary node. -/
def LoopBuilders.Numbered : {P : TimeType} → LoopBuilders P → Prop
  | _, .nil => True
  | _, .cons _ _ builder children rest =>
    (builder.scopeId ≠ 0 ∧ builder.scopeId ∉ rest.scopeIds) ∧ builder.Proper ∧ children.Numbered ∧ rest.Numbered

theorem LoopBuilders.mem_assignNodes_nodes (base : Nat) (builders : LoopBuilders P) (node : Nat) :
    node ∈ (builders.assignNodes base).nodes ↔ ∃ id ∈ builders.scopeIds, node = base + id - 1 := by
  induction builders with
  | nil => simp [assignNodes, nodes, scopeIds]
  | cons inner _ builder children rest _ ihRest => simp [assignNodes, nodes, scopeIds, ihRest]

/-- The assigned nodes are different because the scope ids are. -/
theorem LoopBuilders.assignNodes_proper (base : Nat) (positive : base ≠ 0)
    (builders : LoopBuilders P) (numbered : builders.Numbered) : (builders.assignNodes base).Proper := by
  induction builders with
  | nil => trivial
  | cons inner _ builder children rest ihChildren ihRest =>
    obtain ⟨⟨nonzero, fresh⟩, proper, numberedChildren, numberedRest⟩ := numbered
    refine ⟨⟨by omega, fun member => ?_⟩, proper, ihChildren numberedChildren, ihRest numberedRest⟩
    obtain ⟨id, found, same⟩ := (mem_assignNodes_nodes base rest _).mp member
    exact fresh ((show builder.scopeId = id by omega) ▸ found)

theorem addEdge_nodes {S : Type} [PathSummary S] {builder next : Builder S} {source target : Location}
    (added : builder.addEdge source target = .ok next) : next.nodes = builder.nodes := by
  rcases Builder.addEdge_ok added with same | ⟨_, _, _, _, _, result⟩
  · rw [same]
  · rw [result]

/-- The loop nodes that are added last are all registered. -/
theorem foldlM_addNode_registered (nodes : List (ScopeNode P)) (distinct : (nodes.map ScopeNode.node).Nodup)
    {start result : Builder P.S} (done : nodes.foldlM (fun graph child => graph.addNode child.node
      child.outerSummary.inputs child.outerSummary.outputs child.outerSummary) start = .ok result) :
    ∀ child ∈ nodes, result.nodes child.node = some child.outerSummary := by
  induction nodes generalizing start with
  | nil => exact nofun
  | cons child rest ih =>
    obtain ⟨absent, distinctRest⟩ := List.nodup_cons.mp distinct
    obtain ⟨next, added, others⟩ := Library.bind_eq_ok.mp done
    intro other member
    rcases List.mem_cons.mp member with same | later
    · subst same
      refine foldlM_ok_invariant (fun graph : Builder P.S => graph.nodes other.node = some other.outerSummary) rest
        (fun item found before after held step => ?_) ?_ others
      · obtain ⟨_, _, updated⟩ := Builder.addNode_ok step
        have apart : other.node ≠ item.node := fun equal => absent (equal ▸ List.mem_map_of_mem found)
        rw [updated]
        simp only [Function.update_of_ne apart]
        exact held
      · obtain ⟨_, _, updated⟩ := Builder.addNode_ok added
        rw [updated]
        simp only [Function.update_self]
    · exact ih distinctRest others other later

variable {builder : SubgraphBuilder P} {nodes : List (ScopeNode P)}

/-- An assembled scope registers its operators, its loops and its edges. -/
theorem SubgraphBuilder.assemble_spec (proper : builder.Proper) (operators : ∀ child ∈ nodes, child.node ≠ 0)
    (distinct : (nodes.map ScopeNode.node).Nodup) {graph : Builder P.S} (done : builder.assemble nodes = .ok graph) :
    Builder.Assembled graph ∧ ∀ child ∈ nodes, graph.nodes child.node = some child.outerSummary := by
  obtain ⟨first, addedOperators, rest⟩ := Library.bind_eq_ok.mp done
  obtain ⟨second, addedScopes, addedEdges⟩ := Library.bind_eq_ok.mp rest
  have assembledFirst := foldlM_ok_invariant Builder.Assembled builder.operators
    (fun shape member _ _ held added => held.addNode (Nat.one_le_iff_ne_zero.mpr (proper shape member)) added)
    (Builder.Assembled.new _ _) addedOperators
  have assembledSecond := foldlM_ok_invariant Builder.Assembled nodes
    (fun child member _ _ held added => held.addNode (Nat.one_le_iff_ne_zero.mpr (operators child member)) added)
    assembledFirst addedScopes
  have registered := foldlM_addNode_registered nodes distinct addedScopes
  refine ⟨foldlM_ok_invariant Builder.Assembled builder.edges (fun _ _ _ _ held added => held.addEdge added)
    assembledSecond addedEdges, fun child member => ?_⟩
  exact foldlM_ok_invariant (fun graph : Builder P.S => graph.nodes child.node = some child.outerSummary) builder.edges
    (fun _ _ _ _ held added => by rw [addEdge_nodes added]; exact held) (registered child member) addedEdges

variable {fuel : Nat}

/-- A scope that is built is assembled, has no identity cycle and has the computed tables. -/
theorem SubgraphBuilder.tryBuild_ok {scope : ScopeGraph P} (built : builder.tryBuild fuel nodes = some (.ok scope)) :
    builder.assemble nodes = .ok scope.builder ∧ scope.builder.findIdentityCycle fuel = some none ∧
      scope.builder.backwardTables fuel = some scope.tables := by
  cases assembled : builder.assemble nodes with
  | error error => simp [tryBuild, assembled] at built
  | ok graph =>
    cases searched : graph.findIdentityCycle fuel with
    | none => simp [tryBuild, assembled, searched] at built
    | some found =>
      cases found with
      | some cycle => simp [tryBuild, assembled, searched] at built
      | none =>
        simp only [tryBuild, assembled, searched] at built
        obtain ⟨tables, computed, same⟩ := Option.map_eq_some_iff.mp built
        cases same
        exact ⟨rfl, searched, computed⟩

/-- A scope that is built over its loops has exact tables. -/
theorem SubgraphBuilder.tryBuild_spec (proper : builder.Proper) (operators : ∀ child ∈ nodes, child.node ≠ 0)
    (distinct : (nodes.map ScopeNode.node).Nodup) {scope : ScopeGraph P}
    (built : builder.tryBuild fuel nodes = some (.ok scope)) (reach : scope.builder.EdgesReachInputs) :
    scope.builder.Sound ∧ scope.builder.TablesExact scope.tables ∧
      ∀ child ∈ nodes, scope.builder.nodes child.node = some child.outerSummary := by
  obtain ⟨assembled, searched, computed⟩ := tryBuild_ok built
  obtain ⟨isAssembled, registered⟩ := assemble_spec proper operators distinct assembled
  exact ⟨isAssembled.sound reach searched,
    Builder.backwardTables_exact isAssembled.wellFormed reach computed, registered⟩

theorem attempt_ok {A B : Type _} {result : Option (Except DataflowError A)}
    {next : A → Option (Except DataflowError B)} {value : B} (done : attempt result next = some (.ok value)) :
    ∃ middle, result = some (.ok middle) ∧ next middle = some (.ok value) := by
  unfold attempt at done
  split at done
  · cases done
  · cases done
  · rename_i middle
    exact ⟨middle, rfl, done⟩

/-- The edges of every loop lead to input ports. -/
def LoopScopes.EdgesReachInputs : {P : TimeType} → LoopScopes P → Prop
  | _, .nil => True
  | _, .cons _ _ scope children rest =>
    scope.builder.EdgesReachInputs ∧ children.EdgesReachInputs ∧ rest.EdgesReachInputs

theorem LoopScopes.Apart.nodup (loops : LoopScopes P) (apart : loops.Apart) :
    (loops.nodes.map ScopeNode.node).Nodup := by
  induction loops with
  | nil => exact List.nodup_nil
  | cons inner node scope children rest _ ihRest =>
    refine List.nodup_cons.mpr ⟨fun member => ?_, ihRest apart.2.2⟩
    obtain ⟨child, found, same⟩ := List.mem_map.mp member
    exact apart.1.2 child found same

/-- Loops that are built have their nodes apart and are wired to every parent that registers them. -/
theorem LoopBuilders.build_spec (builders : LoopBuilders P) : ∀ loops : LoopScopes P,
    builders.build fuel = some (.ok loops) → builders.Proper → loops.EdgesReachInputs →
    loops.nodes.map ScopeNode.node = builders.nodes ∧ loops.Apart ∧
      ∀ parent : Builder P.S, (∀ child ∈ loops.nodes, parent.nodes child.node = some child.outerSummary) →
        loops.Wired parent := by
  induction builders with
  | nil =>
    intro loops built _ _
    cases built
    exact ⟨rfl, trivial, fun _ _ => trivial⟩
  | cons inner node builder children rest ihChildren ihRest =>
    intro loops built proper reach
    obtain ⟨⟨nonzero, fresh⟩, properBuilder, properChildren, properRest⟩ := proper
    obtain ⟨body, builtBody, built⟩ := attempt_ok built
    obtain ⟨scope, builtScope, built⟩ := attempt_ok built
    obtain ⟨others, builtRest, built⟩ := attempt_ok built
    cases built
    obtain ⟨reachScope, reachBody, reachRest⟩ := reach
    obtain ⟨bodyNodes, apartBody, wiredBody⟩ := ihChildren body builtBody properChildren reachBody
    obtain ⟨restNodes, apartRest, wiredRest⟩ := ihRest others builtRest properRest reachRest
    obtain ⟨sound, tables, registered⟩ := SubgraphBuilder.tryBuild_spec properBuilder
      (LoopScopes.Apart.node_ne_zero body apartBody) (LoopScopes.Apart.nodup body apartBody) builtScope reachScope
    refine ⟨?_, ⟨⟨nonzero, fun child member same => fresh ?_⟩, apartBody, apartRest⟩, fun parent known => ?_⟩
    · change node :: others.nodes.map ScopeNode.node = node :: rest.nodes
      rw [restNodes]
    · rw [← restNodes, ← same]
      exact List.mem_map_of_mem member
    · exact ⟨⟨known _ List.mem_cons_self, sound, tables⟩, wiredBody scope.builder registered,
        wiredRest parent fun child member => known child (List.mem_cons_of_mem _ member)⟩

/-- A compiled graph is wired. -/
theorem ProgressGraph.tryBuild_wired {children : LoopBuilders P}
    {graph : ProgressGraph P} (built : ProgressGraph.tryBuild fuel builder children = some (.ok graph))
    (proper : builder.Proper) (properChildren : children.Proper) (reach : graph.root.builder.EdgesReachInputs)
    (reachLoops : graph.loops.EdgesReachInputs) : graph.Wired ∧ graph.loops.Apart := by
  obtain ⟨loops, builtLoops, built⟩ := attempt_ok built
  obtain ⟨root, builtRoot, built⟩ := attempt_ok built
  cases built
  obtain ⟨_, apart, wired⟩ := LoopBuilders.build_spec children loops builtLoops properChildren reachLoops
  obtain ⟨sound, _, registered⟩ := SubgraphBuilder.tryBuild_spec proper
    (LoopScopes.Apart.node_ne_zero loops apart) (LoopScopes.Apart.nodup loops apart) builtRoot reach
  exact ⟨⟨sound, wired root.builder registered⟩, apart⟩

end Compile

section Calls

/-- A raw change goes to the tracker of its scope. -/
def LoopScopes.post : {P : TimeType} → (loops : LoopScopes P) → loops.States → loops.Point → Int → Option loops.States
  | _, .nil, _, _, _ => none
  | P, .cons inner _ scope children rest, state, point, diff =>
    match (state : (LoopState scope × children.States) × rest.States),
      (point : (Pointstamp (P.product inner).T ⊕ children.Point) ⊕ rest.Point) with
    | ((loop, states), others), .inl (.inl own) =>
      (loop.tracker.post own.location own.time diff).map fun tracker =>
        ((⟨tracker, loop.imported⟩, states), others)
    | ((loop, states), others), .inl (.inr nested) =>
      (children.post states nested diff).map fun inside => ((loop, inside), others)
    | (first, others), .inr other => (rest.post others other diff).map fun outside => (first, outside)

def ProgressTracker.post {graph : ProgressGraph P} (state : ProgressTracker graph)
    (point : graph.Point) (diff : Int) : Option (ProgressTracker graph) :=
  match point with
  | .inl own => (state.tracker.post own.location own.time diff).map fun tracker => ⟨tracker, state.children⟩
  | .inr nested => (graph.loops.post state.children nested diff).map fun children => ⟨state.tracker, children⟩

/-- A raw change keeps the loops linked and changes the count of its point only. -/
theorem LoopScopes.post_spec (loops : LoopScopes P) : ∀ {topology : Topology P.S}
    (tracker : Tracker P.T topology) (states : loops.States), loops.Linked (fun _ => True) tracker states →
    ∀ point diff, loops.IsRaw point → loops.Registered point →
    ∃ after, loops.post states point diff = some after ∧ loops.Linked (fun _ => True) tracker after ∧
      loops.count after point = loops.count states point + diff ∧
      ∀ other, other ≠ point → loops.count after other = loops.count states other := by
  induction loops with
  | nil => exact fun _ _ _ point => point.elim
  | cons inner node scope children rest ihChildren ihRest =>
    intro topology tracker state linked point diff raw registered
    obtain ⟨⟨loop, states⟩, others⟩ := state
    obtain ⟨⟨confined, _, link⟩, linkedChildren, linkedRest⟩ := linked
    rcases point with (own | nested) | other
    · obtain ⟨next, done, posts⟩ := loop.tracker.post_posts registered own.time diff
      refine ⟨((⟨next, loop.imported⟩, states), others), ?_, ⟨⟨?_, trivial, ?_⟩, ?_, linkedRest⟩, ?_, ?_⟩
      · simp only [post]
        rw [done]
        rfl
      · exact posts.confined (fun location same => same ▸ registered) confined
      · refine link.congr (fun _ _ _ => rfl) posts.exportChanges (fun _ => by rw [posts.ports]) fun location isBoundary => ?_
        exact posts.posted_of_not fun same => raw.1 (same ▸ isBoundary)
      · apply Linked.congr children loop.tracker next states _ linkedChildren
        intro location exported time
        exact posts.posted_of_not (fun same => raw.2 (same ▸ exported)) time
      · change next.posted _ _ = _
        rw [posts.posted, netOf_cons, netOf_nil, if_pos rfl, Int.add_zero]
        rfl
      · intro place apart
        rcases place with (other | deeper) | later
        · change next.posted _ _ = _
          rw [posts.posted, netOf_cons, netOf_nil, if_neg, Int.add_zero]
          · exact Int.add_zero _
          · intro equal
            exact apart (congrArg (fun place => Sum.inl (Sum.inl place))
              (Pointstamp.ext (congrArg Prod.fst equal) (congrArg Prod.snd equal)).symm)
        · rfl
        · rfl
    · obtain ⟨inside, done, linkedInside, here, elsewhere⟩ := ihChildren loop.tracker states linkedChildren nested
        diff raw registered
      refine ⟨((loop, inside), others), ?_, ⟨⟨confined, trivial, link⟩, linkedInside, linkedRest⟩, here, ?_⟩
      · simp only [post]
        rw [done]
        rfl
      · intro place apart
        rcases place with (own | deeper) | later
        · rfl
        · exact elsewhere deeper fun same => apart (congrArg (fun point => Sum.inl (Sum.inr point)) same)
        · rfl
    · obtain ⟨outside, done, linkedOutside, here, elsewhere⟩ := ihRest tracker others linkedRest other diff raw
        registered
      refine ⟨((loop, states), outside), ?_, ⟨⟨confined, trivial, link⟩, linkedChildren, linkedOutside⟩, here, ?_⟩
      · simp only [post]
        rw [done]
        rfl
      · intro place apart
        rcases place with first | later
        · rcases first with own | deeper <;> rfl
        · exact elsewhere later fun same => apart (congrArg Sum.inr same)

variable {graph : ProgressGraph P}

/-- A raw change keeps the state idle and changes the count of its point only. -/
theorem ProgressTracker.post_spec {state : ProgressTracker graph} (idle : state.Idle) {point : graph.Point}
    (raw : graph.IsRaw point) (registered : graph.Registered point) (diff : Int) :
    ∃ next, state.post point diff = some next ∧ next.Idle ∧
      ∀ other, next.count other = netOf [(point, diff)] other + state.count other := by
  suffices found : ∃ next, state.post point diff = some next ∧ next.Idle ∧
      next.count point = state.count point + diff ∧
      ∀ other, other ≠ point → next.count other = state.count other by
    obtain ⟨next, done, idleNext, here, elsewhere⟩ := found
    refine ⟨next, done, idleNext, fun other => ?_⟩
    rw [netOf_cons, netOf_nil]
    by_cases same : point = other
    · subst same
      rw [if_pos rfl, here]
      omega
    · rw [if_neg same, elsewhere other fun equal => same equal.symm]
      omega
  cases point with
  | inl own =>
    obtain ⟨next, done, posts⟩ := state.tracker.post_posts registered own.time diff
    refine ⟨⟨next, state.children⟩, ?_, ⟨?_, ?_⟩, ?_, fun other apart => ?_⟩
    · simp only [post]
      rw [done]
      rfl
    · exact posts.confined (fun location same => same ▸ registered) idle.confined
    · apply LoopScopes.Linked.congr graph.loops state.tracker next state.children _ idle.loops
      intro location exported time
      exact posts.posted_of_not (fun same => raw (same ▸ exported)) time
    · change next.posted _ _ = _
      rw [posts.posted, netOf_cons, netOf_nil, if_pos rfl, Int.add_zero]
      rfl
    · cases other with
      | inl place =>
        change next.posted _ _ = _
        rw [posts.posted, netOf_cons, netOf_nil, if_neg, Int.add_zero]
        · exact Int.add_zero _
        · intro equal
          exact apart (congrArg Sum.inl
            (Pointstamp.ext (congrArg Prod.fst equal) (congrArg Prod.snd equal)).symm)
      | inr nested => rfl
  | inr nested =>
    obtain ⟨children, done, linked, here, elsewhere⟩ :=
      graph.loops.post_spec state.tracker state.children idle.loops nested diff raw registered
    refine ⟨⟨state.tracker, children⟩, ?_, ⟨idle.confined, linked⟩, here, fun other apart => ?_⟩
    · simp only [post]
      rw [done]
      rfl
    · cases other with
      | inl place => rfl
      | inr deeper => exact elsewhere deeper fun same => apart (congrArg Sum.inr same)

/-- More fuel gives the same imports. -/
theorem LoopScopes.importAndPropagate_mono {fuel more : Nat} (enough : fuel ≤ more) {P : TimeType}
    (loops : LoopScopes P) : ∀ {topology : Topology P.S} (tracker : Tracker P.T topology) (states after : loops.States),
    loops.importAndPropagate fuel tracker states = some after →
    loops.importAndPropagate more tracker states = some after := by
  induction loops with
  | nil => exact fun _ _ _ done => done
  | cons inner node scope children rest ihChildren ihRest =>
    intro topology tracker state after done
    obtain ⟨⟨loop, states⟩, others⟩ := state
    obtain ⟨entered, arrived, done⟩ := Option.bind_eq_some_iff.mp done
    obtain ⟨propagated, ended, done⟩ := Option.bind_eq_some_iff.mp done
    obtain ⟨next, endedInside, done⟩ := Option.bind_eq_some_iff.mp done
    obtain ⟨result, endedRest, same⟩ := Option.map_eq_some_iff.mp done
    refine Option.bind_eq_some_iff.mpr ⟨entered, arrived, Option.bind_eq_some_iff.mpr ⟨propagated, ?_, ?_⟩⟩
    · exact loop_mono enough ended
    · refine Option.bind_eq_some_iff.mpr ⟨next, ihChildren propagated states next endedInside, ?_⟩
      exact Option.map_eq_some_iff.mpr ⟨result, ihRest tracker others result endedRest, same⟩

theorem ProgressTracker.exportAndPropagate_mono {fuel more : Nat} (enough : fuel ≤ more)
    {state next : ProgressTracker graph} (done : state.exportAndPropagate fuel = some next) :
    state.exportAndPropagate more = some next := by
  obtain ⟨applied, exported, done⟩ := Option.bind_eq_some_iff.mp done
  obtain ⟨propagated, ended, done⟩ := Option.bind_eq_some_iff.mp done
  obtain ⟨children, endedLoops, same⟩ := Option.map_eq_some_iff.mp done
  refine Option.bind_eq_some_iff.mpr ⟨applied, exported, Option.bind_eq_some_iff.mpr ⟨propagated, ?_, ?_⟩⟩
  · exact loop_mono enough ended
  · exact Option.map_eq_some_iff.mpr
      ⟨children, graph.loops.importAndPropagate_mono enough propagated applied.2 children endedLoops, same⟩

/-- The calls on the trackers of a dataflow: a raw change of some scope, or a propagation. -/
inductive ScopeCall (graph : ProgressGraph P) where
  | update (point : graph.Point) (diff : Int)
  | exportAndPropagate

namespace ScopeCall

def run (fuel : Nat) (state : ProgressTracker graph) : ScopeCall graph → Option (ProgressTracker graph)
  | update point diff => state.post point diff
  | exportAndPropagate => state.exportAndPropagate fuel

/-- The calls run one after the other. -/
def runAll (fuel : Nat) : List (ScopeCall graph) → ProgressTracker graph → Option (ProgressTracker graph)
  | [], state => some state
  | call :: rest, state => (call.run fuel state).bind (runAll fuel rest)

/-- The change that a call posts. -/
def posts : ScopeCall graph → Option (graph.Point × Int)
  | update point diff => some (point, diff)
  | exportAndPropagate => none

/-- The net raw count that a sequence of calls posts at a point. -/
def netRaw (calls : List (ScopeCall graph)) (point : graph.Point) : Int := netOf (calls.filterMap posts) point

/-- The call changes the raw count at a port of its scope. -/
def IsRaw (call : ScopeCall graph) : Prop :=
  ∀ change, call.posts = some change → graph.IsRaw change.1 ∧ graph.Registered change.1

variable {state : ProgressTracker graph}

theorem run_spec (wired : graph.Wired) (apart : graph.loops.Apart) (idle : state.Idle)
    (call : ScopeCall graph) (raw : call.IsRaw) :
    ∃ bound next, (∀ fuel, bound ≤ fuel → call.run fuel state = some next) ∧ next.Idle ∧
      (call = exportAndPropagate → next.Bridged) ∧
      ∀ point, graph.IsRaw point → next.count point = netRaw [call] point + state.count point := by
  cases call with
  | update point diff =>
    obtain ⟨isRaw, registered⟩ := raw (point, diff) rfl
    obtain ⟨next, done, idleNext, counts⟩ := ProgressTracker.post_spec idle isRaw registered diff
    exact ⟨0, next, fun _ _ => done, idleNext, fun impossible => (by cases impossible),
      fun other _ => counts other⟩
  | exportAndPropagate =>
    obtain ⟨bound, next, done, idleNext, bridged, counts⟩ := ProgressTracker.exportAndPropagate_spec wired apart idle
    exact ⟨bound, next, done, idleNext, fun _ => bridged,
      fun point isRaw => (counts point isRaw).trans (Int.zero_add _).symm⟩

theorem netRaw_cons (call : ScopeCall graph) (rest : List (ScopeCall graph)) (point : graph.Point) :
    netRaw (call :: rest) point = netRaw [call] point + netRaw rest point := by
  unfold netRaw
  rw [← netOf_append, ← List.filterMap_append]
  rfl

theorem runAll_spec (wired : graph.Wired) (apart : graph.loops.Apart)
    (idle : state.Idle) (calls : List (ScopeCall graph)) (raw : ∀ call ∈ calls, call.IsRaw) :
    ∃ bound next, (∀ fuel, bound ≤ fuel → runAll fuel calls state = some next) ∧ next.Idle ∧
      ∀ point, graph.IsRaw point → next.count point = netRaw calls point + state.count point := by
  induction calls generalizing state with
  | nil => exact ⟨0, state, fun _ _ => rfl, idle, fun _ _ => (Int.zero_add _).symm⟩
  | cons call rest ih =>
    obtain ⟨first, middle, ran, idleMiddle, _, middleCounts⟩ :=
      run_spec wired apart idle call (raw call List.mem_cons_self)
    obtain ⟨second, last, ranRest, idleLast, lastCounts⟩ :=
      ih idleMiddle fun other member => raw other (List.mem_cons_of_mem call member)
    refine ⟨max first second, last, fun fuel enough => ?_, idleLast, fun point isRaw => ?_⟩
    · rw [runAll, ran fuel (by omega), Option.bind_some]
      exact ranRest fuel (by omega)
    · rw [lastCounts point isRaw, middleCounts point isRaw, netRaw_cons call rest]
      omega

/-- More fuel gives the same run. -/
theorem runAll_mono {fuel more : Nat} (enough : fuel ≤ more) (calls : List (ScopeCall graph)) :
    ∀ {state next : ProgressTracker graph}, runAll fuel calls state = some next →
      runAll more calls state = some next := by
  induction calls with
  | nil => exact fun done => done
  | cons call rest ih =>
    intro state next done
    obtain ⟨middle, first, others⟩ := Option.bind_eq_some_iff.mp done
    refine Option.bind_eq_some_iff.mpr ⟨middle, ?_, ih others⟩
    cases call with
    | update point diff => exact first
    | exportAndPropagate => exact ProgressTracker.exportAndPropagate_mono enough first

theorem runAll_append (fuel : Nat) (first second : List (ScopeCall graph)) (state : ProgressTracker graph) :
    runAll fuel (first ++ second) state = (runAll fuel first state).bind (runAll fuel second) := by
  induction first generalizing state with
  | nil => rfl
  | cons call rest ih =>
    rw [List.cons_append, runAll, runAll, Option.bind_assoc]
    congr 1
    funext middle
    exact ih middle

end ScopeCall

/-- A new tracker has no counts. -/
theorem ScopeGraph.newTracker_confined (scope : ScopeGraph P) (loops : LoopScopes P) :
    (scope.newTracker loops).Confined ∧ ∀ location time, (scope.newTracker loops).posted location time = 0 :=
  ⟨.setCounted ⟨TrackerCall.new_settled.consistent, fun _ _ => rfl, fun _ _ _ => rfl⟩ _,
    fun location time => Tracker.setCounted_posted _ location time⟩

theorem LoopScopes.new_linked (loops : LoopScopes P) : ∀ {topology : Topology P.S}
    (tracker : Tracker P.T topology), (∀ location time, tracker.posted location time = 0) →
    loops.Linked (fun _ => True) tracker loops.new := by
  induction loops with
  | nil => exact fun _ _ => trivial
  | cons inner node scope children rest ihChildren ihRest =>
    intro topology tracker zero
    obtain ⟨confined, inside⟩ := scope.newTracker_confined children
    refine ⟨⟨confined, trivial, ⟨fun output bound time => ?_, fun input bound time => inside _ _,
      fun location _ _ time => inside location time⟩⟩, ihChildren _ inside, ihRest tracker zero⟩
    rw [zero]
    have sum : (scope.newTracker children).exportSum output (outerWeight time) = 0 := by
      apply Finset.sum_eq_zero
      intro location _
      unfold ScopeGraph.newTracker Tracker.setCounted
      dsimp only
      split <;> rfl
    exact sum.symm

theorem ProgressTracker.new_idle (graph : ProgressGraph P) : (ProgressTracker.new graph).Idle := by
  obtain ⟨confined, zero⟩ := graph.root.newTracker_confined graph.loops
  exact ⟨confined, graph.loops.new_linked _ zero⟩

theorem LoopScopes.new_count (loops : LoopScopes P) (point : loops.Point) :
    loops.count loops.new point = 0 := by
  induction loops with
  | nil => rfl
  | cons inner node scope children rest ihChildren ihRest =>
    rcases point with (own | nested) | other
    · exact (scope.newTracker_confined children).2 own.location own.time
    · exact ihChildren nested
    · exact ihRest other

theorem ProgressTracker.new_count (graph : ProgressGraph P) (point : graph.Point) :
    (ProgressTracker.new graph).count point = 0 := by
  cases point with
  | inl own => exact (graph.root.newTracker_confined graph.loops).2 own.location own.time
  | inr nested => exact graph.loops.new_count nested

/-- What the raw counts reach depends only on the raw counts. -/
theorem ProgressGraph.reaches_congr {held other : graph.Point → Prop}
    (same : ∀ point, graph.IsRaw point → (held point ↔ other point)) : graph.Reaches held = graph.Reaches other := by
  funext point
  apply propext
  constructor
  · intro reached
    obtain ⟨origin, raw, positive, walk⟩ := reached
    exact ⟨origin, raw, (same origin raw).mp positive, walk⟩
  · intro reached
    obtain ⟨origin, raw, positive, walk⟩ := reached
    exact ⟨origin, raw, (same origin raw).mpr positive, walk⟩

open ScopeCall in
/-- After every propagation the frontiers of all scopes are those of the flat graph. -/
theorem runAll_exportAndPropagate_frontier {buildFuel : Nat} {builder : SubgraphBuilder P} {children : LoopBuilders P}
    (built : ProgressGraph.tryBuild buildFuel builder children = some (.ok graph)) (proper : builder.Proper)
    (properChildren : children.Proper) (reach : graph.root.builder.EdgesReachInputs)
    (reachLoops : graph.loops.EdgesReachInputs) (calls : List (ScopeCall graph)) (raw : ∀ call ∈ calls, call.IsRaw) :
    ∃ bound state, (∀ fuel, bound ≤ fuel →
        runAll fuel (calls ++ [exportAndPropagate]) (ProgressTracker.new graph) = some state) ∧
      ∀ point, state.OnFrontier point ↔ Minimal (graph.Reaches fun origin => 0 < netRaw calls origin) point := by
  obtain ⟨wired, apart⟩ := ProgressGraph.tryBuild_wired built proper properChildren reach reachLoops
  obtain ⟨first, middle, ran, idle, counts⟩ := runAll_spec wired apart (ProgressTracker.new_idle graph) calls raw
  obtain ⟨second, last, propagated, _, bridged, lastCounts⟩ :=
    run_spec wired apart idle exportAndPropagate fun _ impossible => by cases impossible
  refine ⟨max first second, last, fun fuel enough => ?_, fun point => ?_⟩
  · rw [runAll_append, ran fuel (by omega), Option.bind_some, runAll, propagated fuel (by omega)]
    rfl
  · have same : ∀ origin, graph.IsRaw origin → (0 < last.count origin ↔ 0 < netRaw calls origin) := by
      intro origin isRaw
      rw [lastCounts origin isRaw, counts origin isRaw, ProgressTracker.new_count]
      change 0 < 0 + (netRaw calls origin + 0) ↔ _
      rw [Int.add_zero, Int.zero_add]
    rw [(bridged rfl).onFrontier_iff wired point, ProgressGraph.reaches_congr same]

section Laps

/-- The root of a small dataflow: a source, a loop at node 6 and a sink. -/
def lapsRoot : SubgraphBuilder (TimeType.unsigned 64) where
  scopeId := 0
  operators := [⟨1, "input", 0, 1, PortConnectivity.new 0 1⟩, ⟨2, "output", 1, 0, PortConnectivity.new 1 0⟩]
  edges := [(.source 1 0, .target 6 0), (.source 6 0, .target 2 0)]
  scopeInputs := 0
  scopeOutputs := 0

/-- The body of the loop: a concat of the entered and the fed back records, the feedback and the way out. -/
def lapsBody : SubgraphBuilder ((TimeType.unsigned 64).product (TimeType.unsigned 64)) where
  scopeId := 1
  operators := [
    ⟨3, "laps::concat", 2, 1, ((PortConnectivity.new 2 1).setPath 0 0 (Antichain.fromElem identity)).setPath 1 0
      (Antichain.fromElem identity)⟩,
    ⟨4, "laps::feedback", 1, 1, PortConnectivity.ofIdentity ⟨identity, (1 : Unsigned 64)⟩⟩,
    ⟨5, "laps::leave", 1, 1, PortConnectivity.ofIdentity identity⟩]
  edges := [(.source 0 0, .target 3 0), (.source 4 0, .target 3 1), (.source 3 0, .target 4 0),
    (.source 3 0, .target 5 0), (.source 5 0, .target 0 0)]
  scopeInputs := 1
  scopeOutputs := 1

def lapsLoops : LoopBuilders (TimeType.unsigned 64) :=
  LoopBuilders.assignNodes 6 (.cons (TimeType.unsigned 64) 0 lapsBody .nil .nil)

def laps : ProgressGraph (TimeType.unsigned 64) :=
  match ProgressGraph.tryBuild 20 lapsRoot lapsLoops with
  | some (.ok graph) => graph
  | _ => ⟨⟨0, Builder.new 0 0, fun _ _ => Antichain.new⟩, .nil⟩

theorem laps_built : ProgressGraph.tryBuild 20 lapsRoot lapsLoops = some (.ok laps) := rfl

/-- The compiled body of the loop. -/
def lapsScope : ScopeGraph ((TimeType.unsigned 64).product (TimeType.unsigned 64)) :=
  match lapsBody.tryBuild 20 [] with
  | some (.ok scope) => scope
  | _ => ⟨1, Builder.new 1 1, fun _ _ => Antichain.new⟩

theorem lapsScope_built : lapsBody.tryBuild 20 [] = some (.ok lapsScope) := rfl

theorem lapsRoot_proper : lapsRoot.Proper := by
  intro shape member
  simp only [lapsRoot, List.mem_cons, List.not_mem_nil, or_false] at member
  rcases member with same | same <;> subst same <;> decide

theorem lapsBody_proper : lapsBody.Proper := by
  intro shape member
  simp only [lapsBody, List.mem_cons, List.not_mem_nil, or_false] at member
  rcases member with same | same | same <;> subst same <;> decide

theorem laps_reach : laps.root.builder.EdgesReachInputs := by
  obtain ⟨assembled, _, _⟩ := SubgraphBuilder.tryBuild_ok (show lapsRoot.tryBuild 20 laps.loops.nodes = some (.ok laps.root) from rfl)
  have isAssembled := (SubgraphBuilder.assemble_spec lapsRoot_proper (by decide) (by decide) assembled).1
  exact isAssembled.wellFormed.edgesReachInputs (by decide)

theorem lapsScope_reach : lapsScope.builder.EdgesReachInputs := by
  obtain ⟨assembled, _, _⟩ := SubgraphBuilder.tryBuild_ok lapsScope_built
  have isAssembled := (SubgraphBuilder.assemble_spec lapsBody_proper (by decide) (by decide) assembled).1
  exact isAssembled.wellFormed.edgesReachInputs (by decide)

theorem lapsLoops_proper : lapsLoops.Proper :=
  LoopBuilders.assignNodes_proper 6 (by decide) _ ⟨⟨by decide, List.not_mem_nil⟩, lapsBody_proper, trivial, trivial⟩

theorem LoopScopes.nil_exports {location : Location} : ¬ (nil : LoopScopes P).Exports location := by
  rintro ⟨_, found, _⟩
  cases found

theorem lapsSource_raw (time : Unsigned 64) :
    laps.IsRaw (.inl ⟨.source 1 0, time⟩) ∧ laps.Registered (.inl ⟨.source 1 0, time⟩) := by
  refine ⟨fun exported => ?_, show Location.source 1 0 ∈ laps.root.builder.locations by decide⟩
  obtain ⟨child, found, output, _, same⟩ := exported
  rw [List.mem_singleton.mp (show child ∈ [_] from found)] at same
  exact absurd (congrArg Location.node same) (show 1 ≠ 6 by decide)

/-- A capability of the source, and one of the concat inside the loop. -/
def lapsCalls : List (ScopeCall laps) :=
  [.update (.inl ⟨.source 1 0, (3 : Unsigned 64)⟩) 1,
    .update (.inr (show laps.loops.Point from
      (Sum.inl (Sum.inl ⟨.source 3 0, ⟨2, 5⟩⟩) :
        (Pointstamp (Product (Unsigned 64) (Unsigned 64)) ⊕ Empty) ⊕ Empty))) 1]

theorem lapsCalls_raw : ∀ call ∈ lapsCalls, call.IsRaw := by
  intro call member change posted
  simp only [lapsCalls, List.mem_cons, List.not_mem_nil, or_false] at member
  rcases member with same | same
  · subst same
    cases posted
    exact lapsSource_raw 3
  · subst same
    cases posted
    exact ⟨⟨by decide, LoopScopes.nil_exports⟩, show Location.source 3 0 ∈ lapsScope.builder.locations by decide⟩

open ScopeCall in
theorem laps_frontier : ∃ bound state, (∀ fuel, bound ≤ fuel →
      runAll fuel (lapsCalls ++ [exportAndPropagate]) (ProgressTracker.new laps) = some state) ∧
    ∀ point, state.OnFrontier point ↔ Minimal (laps.Reaches fun origin => 0 < netRaw lapsCalls origin) point :=
  runAll_exportAndPropagate_frontier laps_built lapsRoot_proper lapsLoops_proper
    laps_reach ⟨lapsScope_reach, trivial, trivial⟩ lapsCalls lapsCalls_raw

end Laps

end Calls

end Instancy
