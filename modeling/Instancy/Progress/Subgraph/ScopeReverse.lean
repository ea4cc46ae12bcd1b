import Instancy.Progress.Subgraph.WorkerScope

namespace Instancy

open Library Relation

/-- A pair of ports with a summary between them is linked. -/
theorem PortConnectivity.mem_linked {S : Type} [PathSummary S] {connectivity : PortConnectivity S} {input output : Nat}
    {summary : S} (member : summary ∈ (connectivity.path input output).elements) :
    (input, output) ∈ connectivity.linked := by
  have inside : input < connectivity.inputs ∧ output < connectivity.outputs := by
    by_contra outside
    rw [connectivity.outside input output outside] at member
    exact List.not_mem_nil member
  have filled : (connectivity.path input output).isEmpty = false := by
    unfold Antichain.isEmpty
    cases known : (connectivity.path input output).elements with
    | nil =>
      rw [known] at member
      cases member
    | cons first rest => rfl
  simp only [linked, List.mem_flatMap, List.mem_range, List.mem_map, List.mem_filter, Prod.mk.injEq]
  exact ⟨input, inside.1, output, ⟨inside.2, by rw [filled]; rfl⟩, rfl, rfl⟩

/-- Every node of the graph is without paths or one of the entries, and every edge is one of the edges. -/
structure Builder.DrawnFrom {S : Type} [PathSummary S] (graph : Builder S) (entries : List (Nat × PortConnectivity S))
    (edges : List (Location × Location)) : Prop where
  nodes : ∀ node connectivity, graph.nodes node = some connectivity →
    (∀ input output, (connectivity.path input output).elements = []) ∨ (node, connectivity) ∈ entries
  edges : ∀ node port target, target ∈ graph.edges node port → (Location.source node port, target) ∈ edges

namespace Builder.DrawnFrom

variable {S : Type} [PathSummary S] {graph next : Builder S} {entries : List (Nat × PortConnectivity S)}
  {edges : List (Location × Location)}

theorem new (inputs outputs : Nat) : (Builder.new inputs outputs : Builder S).DrawnFrom entries edges where
  nodes node connectivity known := by
    unfold Builder.new at known
    dsimp only at known
    split at known
    · cases known
      exact .inl fun _ _ => rfl
    · cases known
  edges _ _ _ member := absurd member List.not_mem_nil

theorem addNode (drawn : graph.DrawnFrom entries edges) {index inputs outputs : Nat} {summary : PortConnectivity S}
    (listed : (index, summary) ∈ entries) (added : graph.addNode index inputs outputs summary = .ok next) :
    next.DrawnFrom entries edges := by
  obtain ⟨_, _, rfl⟩ := Builder.addNode_ok added
  refine ⟨fun node connectivity known => ?_, fun node port target member => ?_⟩
  · dsimp only at known
    rw [Function.update_apply] at known
    split at known
    · rename_i same
      cases known
      exact .inr (same ▸ listed)
    · exact drawn.nodes node connectivity known
  · dsimp only at member
    rw [Function.update_apply] at member
    split at member
    · cases member
    · exact drawn.edges node port target member

theorem addEdge (drawn : graph.DrawnFrom entries edges) {source target : Location} (listed : (source, target) ∈ edges)
    (added : graph.addEdge source target = .ok next) : next.DrawnFrom entries edges := by
  obtain same | ⟨node, port, rfl, _, _, rfl⟩ := Builder.addEdge_ok added
  · rw [same]
    exact drawn
  · refine ⟨drawn.nodes, fun other place finish member => ?_⟩
    dsimp only at member
    rw [Function.update_apply] at member
    split at member
    · rename_i sameNode
      subst sameNode
      rw [Function.update_apply] at member
      split at member
      · rename_i samePort
        subst samePort
        rcases List.mem_append.mp member with earlier | last
        · exact drawn.edges other place finish earlier
        · rw [List.mem_singleton.mp last]
          exact listed
      · exact drawn.edges other place finish member
    · exact drawn.edges other place finish member

end Builder.DrawnFrom

section Scopes

variable {P : TimeType}

/-- The nodes of a scope with their connectivity: its operators and its loops. -/
def SubgraphBuilder.entries (builder : SubgraphBuilder P) (children : List (ScopeNode P)) :
    List (Nat × PortConnectivity P.S) :=
  (builder.operators.map fun shape => (shape.index, shape.connectivity)) ++
    children.map fun child => (child.node, child.outerSummary)

variable {children : List (ScopeNode P)}

theorem SubgraphBuilder.assemble_drawnFrom {builder : SubgraphBuilder P}
    {graph : Builder P.S} (done : builder.assemble children = .ok graph) :
    graph.DrawnFrom (builder.entries children) builder.edges := by
  obtain ⟨first, addedOperators, rest⟩ := Library.bind_eq_ok.mp done
  obtain ⟨second, addedScopes, addedEdges⟩ := Library.bind_eq_ok.mp rest
  have operators := foldlM_ok_invariant (Builder.DrawnFrom · (builder.entries children) builder.edges) builder.operators
    (fun shape member _ _ held added => held.addNode (List.mem_append_left _ (List.mem_map_of_mem member)) added)
    (Builder.DrawnFrom.new _ _) addedOperators
  have scopes := foldlM_ok_invariant (Builder.DrawnFrom · (builder.entries children) builder.edges) children
    (fun child member _ _ held added => held.addNode (List.mem_append_right _ (List.mem_map_of_mem member)) added)
    operators addedScopes
  exact foldlM_ok_invariant (Builder.DrawnFrom · (builder.entries children) builder.edges) builder.edges
    (fun _ member _ _ held added => held.addEdge member added) scopes addedEdges

/-- Every hop of a compiled scope is turned around in its reversed edges. -/
theorem ScopePorts.mem_reverseEdges {ports : ScopePorts P} {graph : Builder P.S}
    (done : ports.builder.assemble children = .ok graph) (id : Nat) {before after : Location × P.T}
    (step : graph.Step before after) : ((id, after.1), (id, before.1)) ∈ ports.reverseEdges id children := by
  have drawn := SubgraphBuilder.assemble_drawnFrom done
  obtain ⟨summary, hop, _⟩ := step
  cases place : before.1 with
  | source node port =>
    rw [place] at hop
    have edge := drawn.edges node port after.1 (Builder.mem_hops_source.mp hop).1
    exact List.mem_append_left _ (List.mem_map.mpr ⟨_, edge, rfl⟩)
  | target node port =>
    rw [place] at hop
    obtain ⟨connectivity, output, known, _, finish, member⟩ := Builder.mem_hops_target.mp hop
    refine List.mem_append_right _ (List.mem_flatMap.mpr ?_)
    rcases drawn.nodes node connectivity known with none | listed
    · rw [none] at member
      cases member
    · refine ⟨(node, connectivity), listed, List.mem_map.mpr ⟨(port, output), ?_, ?_⟩⟩
      · exact PortConnectivity.mem_linked member
      · rw [finish]

end Scopes

namespace LoopScopes

/-- The scope and the location of a point of the loops. -/
def place : {P : TimeType} → (loops : LoopScopes P) → loops.Point → ScopeLocation
  | _, .nil, point => Empty.elim point
  | P, .cons inner _ scope children rest, point =>
    match (point : (Pointstamp (P.product inner).T ⊕ children.Point) ⊕ rest.Point) with
    | .inl (.inl own) => (scope.scopeId, own.location)
    | .inl (.inr nested) => children.place nested
    | .inr other => rest.place other

/-- Every loop is assembled from the registrations of its ports. -/
def Assembled : {P : TimeType} → (loops : LoopScopes P) → loops.PortTables → Prop
  | _, .nil, _ => True
  | P, .cons inner _ scope children rest, tables =>
    match (tables : (ScopePorts (P.product inner) × children.PortTables) × rest.PortTables) with
    | ((ports, inside), others) =>
      ports.builder.assemble children.nodes = .ok scope.builder ∧ children.Assembled inside ∧ rest.Assembled others

theorem assembled_of_build {fuel : Nat} {P : TimeType} (loops : LoopScopes P) : ∀ tables : loops.PortTables,
    (loops.builders tables).build fuel = some (.ok loops) → loops.Assembled tables := by
  induction loops with
  | nil => exact fun _ _ => trivial
  | cons inner node scope children rest ihChildren ihRest =>
    intro tables built
    obtain ⟨⟨ports, inside⟩, others⟩ := tables
    obtain ⟨body, builtBody, built⟩ := attempt_ok built
    obtain ⟨compiled, builtScope, built⟩ := attempt_ok built
    obtain ⟨later, builtRest, built⟩ := attempt_ok built
    cases built
    exact ⟨(SubgraphBuilder.tryBuild_ok builtScope).1, ihChildren inside builtBody, ihRest others builtRest⟩

/-- The ways into the loops, out of them and through them are turned around in the reversed graph. -/
theorem reverse_steps {P : TimeType} (loops : LoopScopes P) : ∀ (tables : loops.PortTables) (parent : Nat),
    loops.Assembled tables →
    (∀ before after, loops.Enter before after →
      (loops.place after, (parent, before.location)) ∈ loops.reverseGraph tables parent) ∧
    (∀ before after, loops.Leave before after →
      ((parent, after.location), loops.place before) ∈ loops.reverseGraph tables parent) ∧
    ∀ before after, loops.Within before after →
      (loops.place after, loops.place before) ∈ loops.reverseGraph tables parent := by
  induction loops with
  | nil =>
    refine fun _ _ _ => ⟨?_, ?_, ?_⟩
    · exact fun _ after => after.elim
    · exact fun before => before.elim
    · exact fun before => before.elim
  | cons inner node scope children rest ihChildren ihRest =>
    intro tables parent assembled
    obtain ⟨⟨ports, inside⟩, others⟩ := tables
    obtain ⟨own, assembledChildren, assembledRest⟩ := assembled
    obtain ⟨enterChildren, leaveChildren, withinChildren⟩ := ihChildren inside scope.scopeId assembledChildren
    obtain ⟨enterRest, leaveRest, withinRest⟩ := ihRest others parent assembledRest
    refine ⟨fun before after step => ?_, fun before after step => ?_, fun before after step => ?_⟩
    · rcases after with (entry | nested) | later
      · obtain ⟨input, bound, place, same⟩ := step
        subst same
        refine List.mem_append_left _ (List.mem_append_left _ (List.mem_append_left _ ?_))
        rw [place]
        exact List.mem_map.mpr ⟨input, List.mem_range.mpr bound, rfl⟩
      · exact step.elim
      · exact List.mem_append_right _ (enterRest before later step)
    · rcases before with (leaving | nested) | other
      · obtain ⟨output, bound, place, same⟩ := step
        subst same
        refine List.mem_append_left _ (List.mem_append_left _ (List.mem_append_right _ ?_))
        refine List.mem_map.mpr ⟨output, List.mem_range.mpr bound, ?_⟩
        exact Prod.ext rfl (Prod.ext rfl place.symm)
      · exact step.elim
      · exact List.mem_append_right _ (leaveRest other after step)
    · rcases before with first | other
      · rcases after with second | later
        · refine List.mem_append_left _ (List.mem_append_right _ ?_)
          rcases first with first | first
          · rcases second with second | second
            · exact List.mem_append_left _ (ScopePorts.mem_reverseEdges own scope.scopeId step.2)
            · exact List.mem_append_right _ (enterChildren first second step)
          · rcases second with second | second
            · exact List.mem_append_right _ (leaveChildren first second step)
            · exact List.mem_append_right _ (withinChildren first second step)
        · exact step.elim
      · rcases after with second | later
        · exact step.elim
        · exact List.mem_append_right _ (withinRest other later step)

end LoopScopes

namespace ProgressPorts

variable {P : TimeType} {graph : ProgressGraph P}

/-- The scope and the location of a point. -/
def place : graph.Point → ScopeLocation :=
  Sum.elim (fun own => (graph.root.scopeId, own.location)) graph.loops.place

variable {ports : ProgressPorts graph} {fuel : Nat} (compile : ports.Compile fuel)

include compile

/-- Every scope is assembled from the registrations of its ports. -/
theorem Compile.assembled :
    ports.root.builder.assemble graph.loops.nodes = .ok graph.root.builder ∧ graph.loops.Assembled ports.loops := by
  obtain ⟨loops, builtLoops, built⟩ := attempt_ok compile
  obtain ⟨root, builtRoot, built⟩ := attempt_ok built
  cases built
  exact ⟨(SubgraphBuilder.tryBuild_ok builtRoot).1, LoopScopes.assembled_of_build loops ports.loops builtLoops⟩

/-- Every step of the flat graph is turned around in the reversed graph. -/
theorem Compile.reverse_step
    {before after : graph.Point} (step : graph.Step before after) : (place after, place before) ∈ ports.reverseGraph := by
  obtain ⟨root, loops⟩ := compile.assembled
  obtain ⟨enter, leave, within⟩ := graph.loops.reverse_steps ports.loops graph.root.scopeId loops
  cases before with
  | inl before =>
    cases after with
    | inl after => exact List.mem_append_left _ (ScopePorts.mem_reverseEdges root graph.root.scopeId step.2)
    | inr after => exact List.mem_append_right _ (enter before after step)
  | inr before =>
    cases after with
    | inl after => exact List.mem_append_right _ (leave before after step)
    | inr after => exact List.mem_append_right _ (within before after step)

/-- The worker's scope has everything that leads to one of its locations. -/
theorem Compile.workerScope_closed {hosted : Nat → Bool} {seen : List ScopeLocation}
    (isScope : ∀ place, place ∈ seen ↔ ∃ seed ∈ ports.hostedPorts hosted,
      ReflTransGen (fun before after => (before, after) ∈ ports.reverseGraph) seed place)
    {origin point : graph.Point} (walk : ReflTransGen graph.Step origin point) (member : place point ∈ seen) :
    place origin ∈ seen := by
  induction walk with
  | refl => exact member
  | tail _ last ih =>
    obtain ⟨seed, hostedSeed, found⟩ := (isScope _).mp member
    exact ih ((isScope _).mpr ⟨seed, hostedSeed, found.tail (compile.reverse_step last)⟩)

end ProgressPorts

end Instancy
