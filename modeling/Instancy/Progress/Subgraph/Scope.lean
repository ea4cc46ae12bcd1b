import Instancy.Progress.Reachability.Tracker

namespace Instancy

variable {P : TimeType}

/-- A time type with its summary type and the debug text of a summary. -/
structure TimeType where
  T : Type
  S : Type
  summary : UnsignedSummary S
  timestamp : UnsignedTimestamp T S
  finite : Finite T
  debugSummary : S → String

namespace TimeType

instance (P : TimeType) : UnsignedSummary P.S := P.summary

instance (P : TimeType) : UnsignedTimestamp P.T P.S := P.timestamp

instance (P : TimeType) : Finite P.T := P.finite

instance (P : TimeType) : DecidableEq P.T := TotalOrd.decEq

def unsigned (width : Nat) : TimeType where
  T := Unsigned width
  S := Unsigned width
  summary := inferInstance
  timestamp := inferInstance
  finite := inferInstance
  debugSummary summary := toString summary.val

/-- The time of a loop: the time of its parent and the iteration. -/
abbrev product (outer inner : TimeType) : TimeType where
  T := Product outer.T inner.T
  S := Product outer.S inner.S
  summary := inferInstance
  timestamp := inferInstance
  finite := inferInstance
  debugSummary summary :=
    "Product \x7b outer: " ++ outer.debugSummary summary.outer ++ ", inner: " ++
      inner.debugSummary summary.inner ++ " \x7d"

end TimeType

def Location.debug : Location → String
  | .source node port => "Source \x7b node: " ++ toString node ++ ", port: " ++ toString port ++ " \x7d"
  | .target node port => "Target \x7b node: " ++ toString node ++ ", port: " ++ toString port ++ " \x7d"

/-- The shape and the connectivity of a registered operator. -/
structure OperatorShape (S : Type) [PathSummary S] where
  index : Nat
  name : String
  inputs : Nat
  outputs : Nat
  connectivity : PortConnectivity S

/-- The registrations of one scope; the operators stand in the order in which they are visited. -/
structure SubgraphBuilder (P : TimeType) where
  scopeId : Nat
  operators : List (OperatorShape P.S)
  edges : List (Location × Location)
  scopeInputs : Nat
  scopeOutputs : Nat

/-- The builders of the loops of a scope, each with its node and its own loops. -/
inductive LoopBuilders : TimeType → Type 1 where
  | nil {P : TimeType} : LoopBuilders P
  | cons {P : TimeType} (inner : TimeType) (node : Nat) (builder : SubgraphBuilder (P.product inner))
      (children : LoopBuilders (P.product inner)) (rest : LoopBuilders P) : LoopBuilders P

/-- Every loop gets the node `base + scope id - 1`, after every operator index. -/
def LoopBuilders.assignNodes (base : Nat) : {P : TimeType} → LoopBuilders P → LoopBuilders P
  | _, .nil => .nil
  | _, .cons inner _ builder children rest =>
    .cons inner (base + builder.scopeId - 1) builder (children.assignNodes base) (rest.assignNodes base)

/-- The compiled graph of one scope. -/
structure ScopeGraph (P : TimeType) where
  scopeId : Nat
  builder : Builder P.S
  tables : PathTables P.S

/-- The compiled loops of a scope. -/
inductive LoopScopes : TimeType → Type 1 where
  | nil {P : TimeType} : LoopScopes P
  | cons {P : TimeType} (inner : TimeType) (node : Nat) (scope : ScopeGraph (P.product inner))
      (children : LoopScopes (P.product inner)) (rest : LoopScopes P) : LoopScopes P

/-- A loop as the parent scope sees it: one node with a connectivity. -/
structure ScopeNode (P : TimeType) where
  node : Nat
  scopeId : Nat
  outerSummary : PortConnectivity P.S

namespace ScopeGraph

variable {P inner : TimeType}

abbrev topology (scope : ScopeGraph P) : Topology P.S := scope.builder.topology scope.tables

/-- The scope summary of a loop projected onto the outer time. -/
def outerSummary (scope : ScopeGraph (P.product inner)) : PortConnectivity P.S where
  inputs := (scope.builder.scopeSummary scope.tables).inputs
  outputs := (scope.builder.scopeSummary scope.tables).outputs
  path input output :=
    Antichain.fromElemIter (((scope.builder.scopeSummary scope.tables).path input output).elements.map Product.outer)
  outside input output out := by
    rw [(scope.builder.scopeSummary scope.tables).outside input output out]
    rfl

end ScopeGraph

/-- The nodes that the loops of a scope have in it. -/
def LoopScopes.nodes : LoopScopes P → List (ScopeNode P)
  | .nil => []
  | .cons _ node scope _ rest => ⟨node, scope.scopeId, scope.outerSummary⟩ :: rest.nodes

section Build

variable {α β : Type _}

/-- A failed attempt ends the construction; a lack of fuel has no result. -/
def attempt (result : Option (Except DataflowError α)) (next : α → Option (Except DataflowError β)) :
    Option (Except DataflowError β) :=
  match result with
  | none => none
  | some (.error error) => some (.error error)
  | some (.ok value) => next value

namespace SubgraphBuilder

/-- The operators are added first, then one node per loop, then the edges. -/
def assemble (builder : SubgraphBuilder P) (nodes : List (ScopeNode P)) : Except DataflowError (Builder P.S) := do
  let operators ← builder.operators.foldlM
    (fun graph shape => graph.addNode shape.index shape.inputs shape.outputs shape.connectivity)
    (Builder.new builder.scopeInputs builder.scopeOutputs)
  let scopes ← nodes.foldlM
    (fun graph child => graph.addNode child.node child.outerSummary.inputs child.outerSummary.outputs child.outerSummary)
    operators
  builder.edges.foldlM (fun graph edge => graph.addEdge edge.1 edge.2) scopes

/-- A name registered later replaces an earlier one, and a node without a name gets its number. -/
def nameOf (builder : SubgraphBuilder P) (nodes : List (ScopeNode P)) (node : Nat) : String :=
  match nodes.reverse.find? (fun child => child.node = node) with
  | some child => "loop scope " ++ toString child.scopeId
  | none =>
    match builder.operators.reverse.find? (fun shape => shape.index = node) with
    | some shape => shape.name
    | none => "node " ++ toString node

/-- This is `try_build` after the nested scopes are built. -/
def tryBuild (builder : SubgraphBuilder P) (fuel : Nat) (nodes : List (ScopeNode P)) :
    Option (Except DataflowError (ScopeGraph P)) :=
  match builder.assemble nodes with
  | .error error => some (.error error)
  | .ok graph =>
    match graph.findIdentityCycle fuel with
    | none => none
    | some (some (location, summary)) =>
      some (.error (.invalidGraph ("identity cycle through " ++ builder.nameOf nodes location.node ++ " (" ++
        location.debug ++ "): its summary " ++ P.debugSummary summary ++
        " does not advance the timestamp, so the frontier there could never advance")))
    | some none => (graph.backwardTables fuel).map fun tables => .ok ⟨builder.scopeId, graph, tables⟩

end SubgraphBuilder

/-- The loops are built one after the other, each after its own loops. -/
def LoopBuilders.build (fuel : Nat) : {P : TimeType} → LoopBuilders P → Option (Except DataflowError (LoopScopes P))
  | _, .nil => some (.ok .nil)
  | _, .cons inner node builder children rest =>
    attempt (children.build fuel) fun body =>
      attempt (builder.tryBuild fuel body.nodes) fun scope =>
        attempt (rest.build fuel) fun others => some (.ok (.cons inner node scope body others))

end Build

/-- The compiled graph of a dataflow: the root scope and its loops. -/
structure ProgressGraph (P : TimeType) where
  root : ScopeGraph P
  loops : LoopScopes P

/-- This is `try_build` of the root scope. -/
def ProgressGraph.tryBuild (fuel : Nat) (builder : SubgraphBuilder P) (children : LoopBuilders P) :
    Option (Except DataflowError (ProgressGraph P)) :=
  attempt (children.build fuel) fun loops =>
    attempt (builder.tryBuild fuel loops.nodes) fun root => some (.ok ⟨root, loops⟩)

section State

/-- The live state of one loop: its tracker and the frontier it imported last. -/
structure LoopState (scope : ScopeGraph P) where
  tracker : Tracker P.T scope.topology
  imported : Nat → Antichain P.T

/-- The live states of the loops of a scope. -/
def LoopScopes.States : {P : TimeType} → LoopScopes P → Type
  | _, .nil => Unit
  | _, .cons _ _ scope children rest => (LoopState scope × children.States) × rest.States

/-- The live state of a dataflow: the root tracker and the states of its loops. -/
structure ProgressTracker (graph : ProgressGraph P) where
  tracker : Tracker P.T graph.root.topology
  children : graph.loops.States

/-- The locations whose counts are derived: the import of a loop and the exports of its own loops. -/
def ScopeGraph.derived (scope : ScopeGraph P) (loops : LoopScopes P) : List Location :=
  (if scope.scopeId ≠ 0 then (List.range scope.builder.scopeInputs).map (Location.source 0) else []) ++
    loops.nodes.flatMap fun child => (List.range child.outerSummary.outputs).map (Location.source child.node)

/-- A new tracker leaves the derived locations out of its zero tracking. -/
def ScopeGraph.newTracker (scope : ScopeGraph P) (loops : LoopScopes P) :
    Tracker P.T scope.topology :=
  Tracker.new.setCounted fun location => !(scope.derived loops).contains location

def LoopScopes.new : {P : TimeType} → (loops : LoopScopes P) → loops.States
  | _, .nil => ()
  | _, .cons _ _ scope children rest =>
    ((⟨scope.newTracker children, fun _ => Antichain.new⟩, children.new), rest.new)

def ProgressTracker.new (graph : ProgressGraph P) : ProgressTracker graph where
  tracker := graph.root.newTracker graph.loops
  children := graph.loops.new

end State

section Exports

variable {P inner : TimeType}

/-- The drained export changes of one output, projected onto the outer time and compacted. -/
def projectExports (output : Nat) (changes : List (Product P.T inner.T × Int)) : List (Nat × P.T × Int) :=
  ((changes.foldl (fun batch change => batch.update change.1.outer change.2) ChangeBatch.new).drain.1).map
    fun change => (output, change.1, change.2)

/-- The exports of all outputs are taken out of the tracker in turn. -/
def takeExports {topology : Topology (P.product inner).S} :
    List Nat → Tracker (P.product inner).T topology → List (Nat × P.T × Int) × Tracker (P.product inner).T topology
  | [], tracker => ([], tracker)
  | output :: rest, tracker =>
    let drained := tracker.drainExportChanges output
    let others := takeExports rest drained.2
    (projectExports output drained.1 ++ others.1, others.2)

/-- The exports of a loop are posted at the outputs of its node. -/
def postExports {topology : Topology P.S} (node : Nat) (tracker : Tracker P.T topology)
    (exported : List (Nat × P.T × Int)) : Option (Tracker P.T topology) :=
  exported.foldlM (fun current change => current.updateSource node change.1 change.2.1 change.2.2) tracker

/-- This is `apply_and_export_children`: each loop applies its changes and its export goes to its node. -/
def LoopScopes.applyAndExport : {P : TimeType} → (loops : LoopScopes P) → {topology : Topology P.S} →
    Tracker P.T topology → loops.States → Option (Tracker P.T topology × loops.States)
  | _, .nil, _, tracker, _ => some (tracker, ())
  | _, .cons _ node scope children rest, _, tracker, state =>
    match (state : (LoopState scope × children.States) × rest.States) with
    | ((loop, states), others) =>
      (children.applyAndExport loop.tracker states).bind fun applied =>
        let taken := takeExports (List.range scope.outerSummary.outputs) applied.1.applyPending
        (postExports node tracker taken.1).bind fun posted =>
          (rest.applyAndExport posted others).map fun result =>
            (result.1, ((⟨taken.2, loop.imported⟩, applied.2), result.2))

end Exports

section Imports

variable {P inner : TimeType}

/-- The frontier of the parent enters the loop at the first iteration. -/
def enterFrontier (frontier : Antichain P.T) : Antichain (P.product inner).T :=
  Antichain.fromElemIter (frontier.elements.map fun time => (⟨time, minimum⟩ : Product P.T inner.T))

/-- One input of the import posts the difference to the frontier imported last. -/
def importInput {scope : ScopeGraph (P.product inner)} (frontier : Nat → Antichain P.T) (loop : LoopState scope)
    (input : Nat) : Option (LoopState scope) :=
  let imported := enterFrontier (frontier input)
  let previous := loop.imported input
  let gone := previous.elements.filter fun time => !imported.elements.contains time
  let fresh := imported.elements.filter fun time => !previous.elements.contains time
  (gone.foldlM (fun (tracker : Tracker _ scope.topology) time => tracker.updateSource 0 input time (-1)) loop.tracker).bind fun released =>
    (fresh.foldlM (fun (tracker : Tracker _ scope.topology) time => tracker.updateSource 0 input time 1) released).map fun tracker =>
      ⟨tracker, Function.update loop.imported input imported⟩

/-- This is the loop of `propagate_and_import` over the nested scopes, after the parent has propagated. -/
def LoopScopes.importAndPropagate (fuel : Nat) : {P : TimeType} → (loops : LoopScopes P) → {topology : Topology P.S} →
    Tracker P.T topology → loops.States → Option loops.States
  | _, .nil, _, _, _ => some ()
  | _, .cons _ node scope children rest, _, tracker, state =>
    match (state : (LoopState scope × children.States) × rest.States) with
    | ((loop, states), others) =>
      let inputs := fun input => Antichain.fromElemIter (tracker.targetFrontier node input)
      ((List.range scope.outerSummary.inputs).foldlM (importInput inputs) loop).bind fun entered =>
        (entered.tracker.applyPending.propagateWorklist fuel).bind fun propagated =>
          (children.importAndPropagate fuel propagated states).bind fun inside =>
            (rest.importAndPropagate fuel tracker others).map fun outside =>
              ((⟨propagated, entered.imported⟩, inside), outside)

end Imports

/-- The exports go bottom-up, then the propagation goes top-down with the imports. -/
def ProgressTracker.exportAndPropagate {graph : ProgressGraph P} (fuel : Nat)
    (state : ProgressTracker graph) : Option (ProgressTracker graph) :=
  (graph.loops.applyAndExport state.tracker state.children).bind fun applied =>
    (applied.1.applyPending.propagateWorklist fuel).bind fun propagated =>
      (graph.loops.importAndPropagate fuel propagated applied.2).map fun children => ⟨propagated, children⟩

end Instancy
