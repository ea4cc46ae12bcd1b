import Instancy.Library.Search
import Instancy.Progress.Subgraph.PeerChanges

namespace Instancy

open Library

variable {P : TimeType}

/-- The side of an operator that a port is on. -/
inductive Side where
  | input
  | output
  deriving DecidableEq, Repr

/-- Where a scope counts a port that is not the port of one of its own nodes. -/
inductive PortAt where
  | elsewhere
  | boundary (port : Nat)
  | scopeNode (scope port : Nat)
  deriving DecidableEq, Repr

/-- The ports of a boundary operator, which a scope counts without having the operator as a node. -/
structure PortOwner where
  index : Nat
  inputs : Nat
  outputs : Nat
  deriving DecidableEq, Repr

/-- The registrations of a scope with its boundary operators, its port map, its routes and its initial capabilities.
Without routes every edge counts once. -/
structure ScopePorts (P : TimeType) where
  builder : SubgraphBuilder P
  owners : List PortOwner
  portMap : Side → Nat → Nat → Option PortAt
  routes : Option (Location → List (Location × Int))
  initialCapabilities : List (Nat × List (ChangeBatch P.T))

/-- A location together with the id of its scope. -/
abbrev ScopeLocation := Nat × Location

/-- The pairs of an input and an output with a path between them. -/
def PortConnectivity.linked {S : Type} [PathSummary S] (connectivity : PortConnectivity S) : List (Nat × Nat) :=
  (List.range connectivity.inputs).flatMap fun input =>
    ((List.range connectivity.outputs).filter fun output => !(connectivity.path input output).isEmpty).map fun output =>
      (input, output)

namespace ScopePorts

/-- This is `locate`: the port map decides first, then a node of the scope counts its own ports. -/
def locate (ports : ScopePorts P) (children : List (ScopeNode P)) (side : Side) (op port : Nat) : Option Location :=
  let atNode := fun node place =>
    match side with
    | .input => Location.target node place
    | .output => Location.source node place
  match ports.portMap side op port with
  | some .elsewhere => none
  | some (.boundary place) => some (atNode 0 place)
  | some (.scopeNode scope place) =>
    (children.reverse.find? fun child => child.scopeId = scope).map fun child => atNode child.node place
  | none => if ports.builder.operators.any (fun shape => shape.index = op) then some (atNode op port) else none

/-- The operators whose ports the scope may count. -/
def shapes (ports : ScopePorts P) : List PortOwner :=
  (ports.builder.operators.map fun shape => ⟨shape.index, shape.inputs, shape.outputs⟩) ++ ports.owners

/-- The operators whose inputs the scope counts, with the location of each input. -/
def inputPorts (ports : ScopePorts P) (children : List (ScopeNode P)) : List (Nat × List Location) :=
  ports.shapes.filterMap fun shape =>
    ((List.range shape.inputs).mapM (ports.locate children .input shape.index)).bind fun inputs =>
      if !inputs.isEmpty || ports.builder.operators.any (fun own => own.index = shape.index) then
        some (shape.index, inputs)
      else none

/-- The operator outputs that the scope counts, with their locations. -/
def outputPorts (ports : ScopePorts P) (children : List (ScopeNode P)) : List ((Nat × Nat) × Location) :=
  ports.shapes.flatMap fun shape =>
    (List.range shape.outputs).filterMap fun output =>
      (ports.locate children .output shape.index output).map fun location => ((shape.index, output), location)

/-- Where a produced record is counted, and how often. -/
def routesFrom (ports : ScopePorts P) (location : Location) : List (Location × Int) :=
  match ports.routes with
  | some routes => routes location
  | none => (ports.builder.edges.filter fun edge => edge.1 = location).map fun edge => (edge.2, 1)

/-- The edges and the connectivity of a scope, each turned around. -/
def reverseEdges (ports : ScopePorts P) (id : Nat) (children : List (ScopeNode P)) :
    List (ScopeLocation × ScopeLocation) :=
  (ports.builder.edges.map fun edge => ((id, edge.2), (id, edge.1))) ++
    ((ports.builder.operators.map fun shape => (shape.index, shape.connectivity)) ++
      children.map fun child => (child.node, child.outerSummary)).flatMap fun entry =>
        entry.2.linked.map fun path => ((id, .source entry.1 path.2), (id, .target entry.1 path.1))

/-- The locations of the ports of the hosted operators, also of those that are counted elsewhere. -/
def hostedPorts (ports : ScopePorts P) (id : Nat) (children : List (ScopeNode P)) (hosted : Nat → Bool) :
    List ScopeLocation :=
  ((ports.inputPorts children).filter fun entry => hosted entry.1).flatMap (fun entry =>
      entry.2.map fun location => (id, location)) ++
    ((ports.outputPorts children).filter fun entry => hosted entry.1.1).map (fun entry => (id, entry.2)) ++
    (ports.builder.operators.filter fun shape => hosted shape.index).flatMap fun shape =>
      ((List.range shape.inputs).map fun input => (id, Location.target shape.index input)) ++
        (List.range shape.outputs).map fun output => (id, Location.source shape.index output)

end ScopePorts

/-- The way into a loop and the way out of it, each turned around. -/
def ScopeNode.reverseBoundary (child : ScopeNode P) (parent : Nat) :
    List (ScopeLocation × ScopeLocation) :=
  ((List.range child.outerSummary.inputs).map fun input =>
      ((child.scopeId, .source 0 input), (parent, .target child.node input))) ++
    (List.range child.outerSummary.outputs).map fun output =>
      ((parent, .source child.node output), (child.scopeId, .target 0 output))

namespace LoopScopes

/-- The ports of the loops of a scope, at every depth. -/
def PortTables : {P : TimeType} → LoopScopes P → Type
  | _, .nil => Unit
  | P, .cons inner _ _ children rest => (ScopePorts (P.product inner) × children.PortTables) × rest.PortTables

/-- The registrations of the loops. -/
def builders : {P : TimeType} → (loops : LoopScopes P) → loops.PortTables → LoopBuilders P
  | _, .nil, _ => .nil
  | P, .cons inner node _ children rest, tables =>
    match (tables : (ScopePorts (P.product inner) × children.PortTables) × rest.PortTables) with
    | ((ports, inside), others) =>
      .cons inner node ports.builder (children.builders inside) (rest.builders others)

/-- This is the part of `reverse_graph` that adds the loops of a scope. -/
def reverseGraph : {P : TimeType} → (loops : LoopScopes P) → loops.PortTables → Nat →
    List (ScopeLocation × ScopeLocation)
  | _, .nil, _, _ => []
  | P, .cons inner node scope children rest, tables, parent =>
    match (tables : (ScopePorts (P.product inner) × children.PortTables) × rest.PortTables) with
    | ((ports, inside), others) =>
      ScopeNode.reverseBoundary ⟨node, scope.scopeId, scope.outerSummary⟩ parent ++
        (ports.reverseEdges scope.scopeId children.nodes ++ children.reverseGraph inside scope.scopeId) ++
        rest.reverseGraph others parent

/-- This is the part of `reverse_graph` that finds the hosted ports of the loops of a scope. -/
def hostedPorts (hosted : Nat → Bool) : {P : TimeType} → (loops : LoopScopes P) → loops.PortTables → List ScopeLocation
  | _, .nil, _ => []
  | P, .cons inner _ scope children rest, tables =>
    match (tables : (ScopePorts (P.product inner) × children.PortTables) × rest.PortTables) with
    | ((ports, inside), others) =>
      (children.hostedPorts hosted inside ++ ports.hostedPorts scope.scopeId children.nodes hosted) ++
        rest.hostedPorts hosted others

end LoopScopes

/-- The ports of all scopes of a dataflow. -/
structure ProgressPorts (graph : ProgressGraph P) where
  root : ScopePorts P
  loops : graph.loops.PortTables

namespace ProgressPorts

variable {graph : ProgressGraph P}

def reverseGraph (ports : ProgressPorts graph) : List (ScopeLocation × ScopeLocation) :=
  ports.root.reverseEdges graph.root.scopeId graph.loops.nodes ++
    graph.loops.reverseGraph ports.loops graph.root.scopeId

def hostedPorts (ports : ProgressPorts graph) (hosted : Nat → Bool) : List ScopeLocation :=
  graph.loops.hostedPorts hosted ports.loops ++ ports.root.hostedPorts graph.root.scopeId graph.loops.nodes hosted

/-- The worker's scope: every location from which a hosted port can be reached. -/
def workerScope (ports : ProgressPorts graph) (fuel : Nat) (hosted : Nat → Bool) : Option (List ScopeLocation) :=
  searchFrom ports.reverseGraph fuel (ports.hostedPorts hosted)

/-- The registrations of the ports compile to the graph. -/
def Compile (ports : ProgressPorts graph) (fuel : Nat) : Prop :=
  ProgressGraph.tryBuild fuel ports.root.builder (graph.loops.builders ports.loops) = some (.ok graph)

end ProgressPorts

section Counted

/-- The locations of the worker's scope are counted, except those of derived counts. -/
def ScopeGraph.assignScope (scope : ScopeGraph P) (loops : LoopScopes P) (seen : List ScopeLocation)
    (tracker : Tracker P.T scope.topology) : Tracker P.T scope.topology :=
  tracker.setCounted fun location =>
    seen.contains (scope.scopeId, location) && !(scope.derived loops).contains location

def LoopScopes.assignScope (seen : List ScopeLocation) : {P : TimeType} → (loops : LoopScopes P) → loops.States →
    loops.States
  | _, .nil, _ => ()
  | _, .cons _ _ scope children rest, state =>
    match (state : (LoopState scope × children.States) × rest.States) with
    | ((loop, states), others) =>
      ((⟨scope.assignScope children seen loop.tracker, loop.imported⟩, children.assignScope seen states),
        rest.assignScope seen others)

def ProgressTracker.assignScope {graph : ProgressGraph P} (seen : List ScopeLocation)
    (state : ProgressTracker graph) : ProgressTracker graph :=
  ⟨graph.root.assignScope graph.loops seen state.tracker, graph.loops.assignScope seen state.children⟩

end Counted

section Zero

namespace Tracker

variable {T S : Type} [PathSummary S] [Timestamp T S] {topology : Topology S}

/-- Whether changes are posted and not propagated yet. -/
def hasPending (tracker : Tracker T topology) : Bool :=
  (topology.locations.any fun location => !(tracker.pending location).isEmptyClean) || !tracker.worklist.isEmpty

def countedZero (tracker : Tracker T topology) : Bool := tracker.nonzeroCounted == 0

/-- A location that is no port has no counts. -/
def countsZeroAt (tracker : Tracker T topology) (location : Location) : Bool :=
  if location ∈ topology.locations then !(tracker.ports location).nonzero else true

/-- Every time with a nonzero count, location by location. -/
def nonzeroCounts (tracker : Tracker T topology) : List (Pointstamp T × Int) :=
  topology.locations.flatMap fun location =>
    (tracker.ports location).pointstamps.netCounts.map fun entry => (⟨location, entry.1⟩, entry.2)

end Tracker

/-- The locations that a scope looks at: all of them before a scope is assigned. -/
def inScope (scope : Option (List ScopeLocation)) (place : ScopeLocation) : Bool :=
  match scope with
  | none => true
  | some seen => seen.contains place

namespace LoopScopes

/-- This is `raw_zero` of the loops; `clean` says whether a scope has no local changes left. -/
def rawZero (clean : Nat → Bool) : {P : TimeType} → (loops : LoopScopes P) → loops.States → Bool
  | _, .nil, _ => true
  | _, .cons _ _ scope children rest, state =>
    match (state : (LoopState scope × children.States) × rest.States) with
    | ((loop, states), others) =>
      (!loop.tracker.hasPending && clean scope.scopeId && loop.tracker.countedZero &&
        children.rawZero clean states) && rest.rawZero clean others

def derivedZero (seen : Option (List ScopeLocation)) : {P : TimeType} → (loops : LoopScopes P) → loops.States → Bool
  | _, .nil, _ => true
  | _, .cons _ _ scope children rest, state =>
    match (state : (LoopState scope × children.States) × rest.States) with
    | ((loop, states), others) =>
      (((scope.derived children).filter fun location => inScope seen (scope.scopeId, location)).all
          loop.tracker.countsZeroAt &&
        children.derivedZero seen states) && rest.derivedZero seen others

end LoopScopes

namespace ProgressTracker

variable {graph : ProgressGraph P}

/-- Whether every raw count in the worker's scope is zero and nothing is pending. -/
def rawZero (clean : Nat → Bool) (state : ProgressTracker graph) : Bool :=
  !state.tracker.hasPending && clean graph.root.scopeId && state.tracker.countedZero &&
    graph.loops.rawZero clean state.children

/-- Whether every derived count in the worker's scope is zero. -/
def derivedZero (seen : Option (List ScopeLocation)) (state : ProgressTracker graph) : Bool :=
  ((graph.root.derived graph.loops).filter fun location => inScope seen (graph.root.scopeId, location)).all
      state.tracker.countsZeroAt &&
    graph.loops.derivedZero seen state.children

end ProgressTracker

end Zero

section Frontiers

/-- The frontiers of the inputs of an operator; they are refreshed by every propagation. -/
def Tracker.inputFrontiers {topology : Topology P.S} (tracker : Tracker P.T topology) (locations : List Location) :
    List (Antichain P.T) :=
  locations.map fun location => Antichain.fromElemIter (tracker.targetFrontier location.node location.port)

/-- The frontier of the stream of an output: the meet over its targets, or the output's own frontier without them. An
output that the scope does not count has the least frontier. -/
def Tracker.streamFrontier {topology : Topology P.S} (tracker : Tracker P.T topology) (ports : ScopePorts P)
    (children : List (ScopeNode P)) (operator output : Nat) : Antichain P.T :=
  match (ports.outputPorts children).lookup (operator, output) with
  | none => Antichain.fromElem minimum
  | some location =>
    if (ports.routesFrom location).isEmpty then
      Antichain.fromElemIter (tracker.sourceFrontier location.node location.port)
    else
      Antichain.fromElemIter ((ports.routesFrom location).flatMap fun route =>
        tracker.targetFrontier route.1.node route.1.port)

end Frontiers

end Instancy
