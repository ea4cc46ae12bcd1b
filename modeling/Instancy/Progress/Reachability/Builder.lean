import Instancy.Progress.Antichain
import Instancy.Progress.Timestamp
import Instancy.Library.Loop

namespace Instancy

open Library

/-- The messages of graph construction. -/
inductive DataflowError where
  | invalidConfig (message : String)
  | invalidGraph (message : String)
  deriving DecidableEq, Repr

/-- A location is an output port or an input port of a graph node. -/
inductive Location where
  | source (node port : Nat)
  | target (node port : Nat)
  deriving DecidableEq, Repr

namespace Location

def node : Location → Nat
  | source node _ => node
  | target node _ => node

/-- This is `location_port`. -/
def port : Location → Nat
  | source _ port => port
  | target _ port => port

/-- The derived order puts sources before targets, then compares node and port. -/
def key : Location → Nat × Nat × Nat
  | source node port => (0, node, port)
  | target node port => (1, node, port)

theorem key_injective : Function.Injective key := by
  intro first second same
  cases first <;> cases second <;> simp_all [key]

instance : TotalOrd Location := TotalOrd.ofKey key key_injective

end Location

/-- This matrix gives the path summaries from each input to each output. -/
structure PortConnectivity (S : Type) [PathSummary S] where
  inputs : Nat
  outputs : Nat
  path : Nat → Nat → Antichain S
  outside : ∀ input output, ¬ (input < inputs ∧ output < outputs) → path input output = Antichain.new

namespace PortConnectivity

variable {S : Type} [PathSummary S]

def new (inputs outputs : Nat) : PortConnectivity S where
  inputs := inputs
  outputs := outputs
  path _ _ := Antichain.new
  outside _ _ _ := rfl

/-- An entry in range is replaced. -/
def setPath (connectivity : PortConnectivity S) (input output : Nat) (paths : Antichain S) :
    PortConnectivity S where
  inputs := connectivity.inputs
  outputs := connectivity.outputs
  path row column :=
    if row = input ∧ column = output ∧ input < connectivity.inputs ∧ output < connectivity.outputs then paths
    else connectivity.path row column
  outside row column out := by
    split
    · rename_i same
      obtain ⟨sameRow, sameColumn, inside⟩ := same
      subst sameRow sameColumn
      exact absurd inside out
    · exact connectivity.outside row column out

def ofIdentity (summary : S) : PortConnectivity S := (new 1 1).setPath 0 0 (Antichain.fromElem summary)

end PortConnectivity

/-- The builder holds the shape, the connectivity and the outgoing edges of each node. -/
structure Builder (S : Type) [PathSummary S] where
  numNodes : Nat
  nodes : Nat → Option (PortConnectivity S)
  edges : Nat → Nat → List Location
  shape : Nat → Nat × Nat
  scopeInputs : Nat
  scopeOutputs : Nat

/-- For every location, the summaries of its paths to each scope output. -/
abbrev PathTables (S : Type) [PathSummary S] := Location → Nat → Antichain S

namespace Builder

variable {S : Type} [PathSummary S]

/-- Node 0 is the boundary: the scope outputs are its inputs and the scope inputs its outputs. -/
def new (scopeInputs scopeOutputs : Nat) : Builder S where
  numNodes := 1
  nodes node := if node = 0 then some (PortConnectivity.new scopeOutputs scopeInputs) else none
  edges _ _ := []
  shape node := if node = 0 then (scopeOutputs, scopeInputs) else (0, 0)
  scopeInputs := scopeInputs
  scopeOutputs := scopeOutputs

variable (builder : Builder S)

def addNode (index inputs outputs : Nat) (summary : PortConnectivity S) : Except DataflowError (Builder S) :=
  let summaryInputs := summary.inputs
  let summaryOutputs := summary.outputs
  if summaryInputs ≠ inputs then
    .error (.invalidConfig
      s!"PortConnectivity inputs ({summaryInputs}) don't match declared inputs ({inputs}) for node {index}")
  else if summaryOutputs ≠ outputs then
    .error (.invalidConfig
      s!"PortConnectivity outputs ({summaryOutputs}) don't match declared outputs ({outputs}) for node {index}")
  else
    .ok { builder with
      numNodes := max builder.numNodes (index + 1)
      shape := Function.update builder.shape index (inputs, outputs)
      edges := Function.update builder.edges index fun _ => []
      nodes := Function.update builder.nodes index (some summary) }

/-- An edge from an input port is ignored; the source port must be registered. -/
def addEdge (source target : Location) : Except DataflowError (Builder S) :=
  match source with
  | .target _ _ => .ok builder
  | .source node port =>
    let outputs := (builder.shape node).2
    if node < builder.numNodes ∧ port < outputs then
      .ok { builder with
        edges := Function.update builder.edges node
          (Function.update (builder.edges node) port (builder.edges node port ++ [target])) }
    else
      .error (.invalidGraph
        s!"add_edge: source node {node} port {port} is invalid (node has {outputs} output ports). Register the node with add_node() before adding edges.")

/-- These builders come from `new` by registering operators at index one or more and adding edges. -/
inductive Assembled : Builder S → Prop where
  | new (scopeInputs scopeOutputs : Nat) : Assembled (new scopeInputs scopeOutputs)
  | addNode {builder next : Builder S} {index inputs outputs : Nat} {summary : PortConnectivity S}
      (assembled : Assembled builder) (operator : 1 ≤ index)
      (added : builder.addNode index inputs outputs summary = .ok next) : Assembled next
  | addEdge {builder next : Builder S} {source target : Location}
      (assembled : Assembled builder) (added : builder.addEdge source target = .ok next) : Assembled next

/-- The ports of one node, the inputs first. -/
def portsOf (node : Nat) : List Location :=
  (List.range (builder.shape node).1).map (Location.target node) ++
    (List.range (builder.shape node).2).map (Location.source node)

/-- The registered ports, node by node. -/
def locations : List Location := (List.range builder.numNodes).flatMap builder.portsOf

/-- The location is a registered input port. -/
def IsInput : Location → Prop
  | .target node port => Location.target node port ∈ builder.locations
  | .source _ _ => False

instance : DecidablePred builder.IsInput
  | .target node port => inferInstanceAs (Decidable (Location.target node port ∈ builder.locations))
  | .source _ _ => instDecidableFalse

/-- This is the documented contract of `add_edge`: an edge leads to an input port of the graph. -/
def EdgesReachInputs : Prop :=
  ∀ node port, ∀ edge ∈ builder.edges node port, builder.IsInput edge

/-- This is the source side of `compile_forward_paths` for one input port. -/
def targetSummaries (node input : Nat) : List (Location × Antichain S) :=
  match builder.nodes node with
  | none => []
  | some connectivity =>
    (List.range (builder.shape node).2).filterMap fun output =>
      if (connectivity.path input output).isEmpty then none
      else some (Location.source node output, connectivity.path input output)

/-- Edges carry the identity summary. -/
def sourceSummaries (node output : Nat) : List (Location × Antichain S) :=
  (builder.edges node output).map fun edge => (edge, Antichain.fromElem identity)

section IdentityCycle

/-- The continuations of a path that ends at a location with a summary. -/
def continuations (location : Location) (summary : S) : List (Location × S) :=
  match location with
  | .target node port =>
    match builder.nodes node with
    | none => []
    | some connectivity =>
      (List.range (builder.shape node).2).flatMap fun output =>
        (connectivity.path port output).elements.filterMap fun s =>
          (followedBy summary s).map fun composed => (Location.source node output, composed)
  | .source node port => (builder.edges node port).map fun edge => (edge, summary)

/-- The search keeps the minimal summaries found at each location and the paths to extend. -/
structure CycleSearch (S : Type) [PathSummary S] where
  reached : Location → Antichain S
  stack : List (Location × S)

/-- A continuation that returns to the start at or below the identity ends the search. -/
def CycleSearch.visit (start : Location) (search : CycleSearch S) :
    List (Location × S) → Except (Location × S) (CycleSearch S)
  | [] => .ok search
  | (location, summary) :: rest =>
    if location = start then
      if summary ≤ identity then .error (start, summary) else search.visit start rest
    else
      let inserted := (search.reached location).insert summary
      let reached := Function.update search.reached location inserted.2
      if inserted.1 then CycleSearch.visit start ⟨reached, (location, summary) :: search.stack⟩ rest
      else CycleSearch.visit start ⟨reached, search.stack⟩ rest

def cycleSearch (builder : Builder S) (start : Location) : Nat → CycleSearch S → Option (Option (Location × S))
  | 0, _ => none
  | fuel + 1, search =>
    match search.stack with
    | [] => some none
    | (location, summary) :: rest =>
      match CycleSearch.visit start ⟨search.reached, rest⟩ (builder.continuations location summary) with
      | .error found => some (some found)
      | .ok next => builder.cycleSearch start fuel next

def cycleSearches (builder : Builder S) (fuel : Nat) : List Location → Option (Option (Location × S))
  | [] => some none
  | start :: rest =>
    match builder.cycleSearch start fuel ⟨fun _ => Antichain.new, [(start, identity)]⟩ with
    | none => none
    | some (some found) => some (some found)
    | some none => builder.cycleSearches fuel rest

/-- The search starts at every input port of the nodes after the boundary. -/
def cycleStarts : List Location :=
  (List.range' 1 (builder.numNodes - 1)).flatMap fun node =>
    (List.range (builder.shape node).1).map (Location.target node)

/-- The result is the cycle found, or `none` if no start has one; no fuel gives no result. -/
def findIdentityCycle (fuel : Nat) : Option (Option (Location × S)) :=
  builder.cycleSearches fuel builder.cycleStarts

end IdentityCycle

section BackwardTables

/-- One relaxation inserts the composed summaries of one table entry into another one. -/
structure Relaxation (S : Type) where
  into : Location
  origin : Location
  compose : S → Option S
  output : Nat

/-- The relaxation reports whether some insertion changed the entry. -/
def Relaxation.apply (relaxation : Relaxation S) (state : Bool × PathTables S) : Bool × PathTables S :=
  ((state.2 relaxation.origin relaxation.output).elements.filterMap relaxation.compose).foldl
    (fun current composed =>
      let inserted := (current.2 relaxation.into relaxation.output).insert composed
      (current.1 || inserted.1,
        Function.update current.2 relaxation.into
          (Function.update (current.2 relaxation.into) relaxation.output inserted.2)))
    state

/-- The internal paths compose their summary with the entries of an output port. -/
def internalRelaxations : List (Relaxation S) :=
  (List.range builder.numNodes).flatMap fun node =>
    match builder.nodes node with
    | none => []
    | some connectivity =>
      (List.range (builder.shape node).1).flatMap fun input =>
        (List.range (builder.shape node).2).flatMap fun output =>
          (connectivity.path input output).elements.flatMap fun internal =>
            (List.range builder.scopeOutputs).map fun scopeOutput =>
              ⟨.target node input, .source node output, followedBy internal, scopeOutput⟩

/-- The edges copy the entries of an input port. -/
def edgeRelaxations : List (Relaxation S) :=
  (List.range builder.numNodes).flatMap fun node =>
    (List.range (builder.shape node).2).flatMap fun output =>
      (builder.edges node output).flatMap fun edge =>
        match edge with
        | .source _ _ => []
        | .target _ _ =>
          (List.range builder.scopeOutputs).map fun scopeOutput =>
            ⟨.source node output, edge, some, scopeOutput⟩

/-- Each scope output reaches itself through the boundary input of the same index. -/
def initialTables : PathTables S := fun location scopeOutput =>
  if location = .target 0 scopeOutput ∧ scopeOutput < builder.scopeOutputs ∧ scopeOutput < (builder.shape 0).1
  then Antichain.fromElem identity
  else Antichain.new

/-- One pass relaxes the internal paths of every node and then every edge. -/
def backwardPass (tables : PathTables S) : Bool × PathTables S :=
  (builder.internalRelaxations ++ builder.edgeRelaxations).foldl (fun state relaxation => relaxation.apply state)
    (false, tables)

/-- The passes run while the last one changed some entry. -/
def backwardStep (state : Bool × PathTables S) : Option (Bool × PathTables S) :=
  if state.1 then some (builder.backwardPass state.2) else none

def backwardTables (fuel : Nat) : Option (PathTables S) :=
  (loop builder.backwardStep fuel (true, builder.initialTables)).map Prod.snd

/-- The scope inputs are the outputs of the boundary node. -/
def scopeSummary (tables : PathTables S) : PortConnectivity S where
  inputs := builder.scopeInputs
  outputs := builder.scopeOutputs
  path input output :=
    if input < builder.scopeInputs ∧ output < builder.scopeOutputs ∧ input < (builder.shape 0).2
    then Antichain.fromElemIter (tables (.source 0 input) output).elements
    else Antichain.new
  outside _ _ out := if_neg fun inside => out ⟨inside.1, inside.2.1⟩

/-- The export entries of a location leave out the boundary node and unreachable outputs. -/
def exportTable (tables : PathTables S) (location : Location) : List (Nat × Antichain S) :=
  if location.node = 0 then []
  else (List.range builder.scopeOutputs).filterMap fun output =>
    if (tables location output).isEmpty then none else some (output, tables location output)

end BackwardTables

end Builder

end Instancy
