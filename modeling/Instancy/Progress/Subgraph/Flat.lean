import Instancy.Progress.Subgraph.Scope
import Instancy.Progress.Reachability.Exports
import Mathlib.Data.Sum.Order

namespace Instancy

open Library Relation

variable {P : TimeType}

/-- A time at a location of one scope. -/
@[ext] structure Pointstamp (T : Type) where
  location : Location
  time : T
  deriving DecidableEq

/-- Only times at the same location compare. -/
instance {T : Type} [PartialOrder T] : PartialOrder (Pointstamp T) where
  le first second := first.location = second.location ∧ first.time ≤ second.time
  le_refl _ := ⟨rfl, le_rfl⟩
  le_trans _ _ _ low high := ⟨low.1.trans high.1, low.2.trans high.2⟩
  le_antisymm _ _ low high := Pointstamp.ext low.1 (le_antisymm low.2 high.2)

theorem Pointstamp.le_iff {T : Type} [PartialOrder T] {first second : Pointstamp T} :
    first ≤ second ↔ first.location = second.location ∧ first.time ≤ second.time := Iff.rfl

namespace LoopScopes

/-- The pointstamps of all loops of a scope, at every depth. -/
def Point : {P : TimeType} → LoopScopes P → Type
  | _, .nil => Empty
  | P, .cons inner _ _ children rest => (Pointstamp (P.product inner).T ⊕ children.Point) ⊕ rest.Point

instance pointOrder : {P : TimeType} → (loops : LoopScopes P) → PartialOrder loops.Point
  | _, .nil => inferInstanceAs (PartialOrder Empty)
  | P, .cons inner _ _ children rest =>
    letI := pointOrder children
    letI := pointOrder rest
    inferInstanceAs (PartialOrder ((Pointstamp (P.product inner).T ⊕ children.Point) ⊕ rest.Point))

instance pointDecEq : {P : TimeType} → (loops : LoopScopes P) → DecidableEq loops.Point
  | _, .nil => inferInstanceAs (DecidableEq Empty)
  | P, .cons inner _ _ children rest =>
    letI := pointDecEq children
    letI := pointDecEq rest
    inferInstanceAs (DecidableEq ((Pointstamp (P.product inner).T ⊕ children.Point) ⊕ rest.Point))

/-- The location of the point is a port of its scope. -/
def Registered : {P : TimeType} → (loops : LoopScopes P) → loops.Point → Prop
  | _, .nil, _ => False
  | P, .cons inner _ scope children rest, point =>
    match (point : (Pointstamp (P.product inner).T ⊕ children.Point) ⊕ rest.Point) with
    | .inl (.inl own) => own.location ∈ scope.builder.locations
    | .inl (.inr nested) => children.Registered nested
    | .inr other => rest.Registered other

/-- The location is an input of a loop's node, where its paths lead through the loop. -/
def Through (loops : LoopScopes P) (location : Location) : Prop :=
  ∃ child ∈ loops.nodes, ∃ input, location = .target child.node input

/-- The location is an output of a loop's node, where the counts are derived from the loop. -/
def Exports (loops : LoopScopes P) (location : Location) : Prop :=
  ∃ child ∈ loops.nodes, ∃ output < child.outerSummary.outputs, location = .source child.node output

/-- A hop inside one scope that does not lead through a loop. -/
def OwnHop (loops : LoopScopes P) (builder : Builder P.S) (before after : Pointstamp P.T) : Prop :=
  ¬ loops.Through before.location ∧ builder.Step (before.location, before.time) (after.location, after.time)

/-- Entering a loop takes a time to its first iteration. -/
def Enter : {P : TimeType} → (loops : LoopScopes P) → Pointstamp P.T → loops.Point → Prop
  | _, .nil, _, _ => False
  | P, .cons inner node scope children rest, outside, point =>
    match (point : (Pointstamp (P.product inner).T ⊕ children.Point) ⊕ rest.Point) with
    | .inl (.inl inside) => ∃ input < scope.builder.scopeInputs,
        outside.location = .target node input ∧ inside = ⟨.source 0 input, ⟨outside.time, minimum⟩⟩
    | .inl (.inr _) => False
    | .inr other => rest.Enter outside other

/-- Leaving a loop forgets the iteration. -/
def Leave : {P : TimeType} → (loops : LoopScopes P) → loops.Point → Pointstamp P.T → Prop
  | _, .nil, _, _ => False
  | P, .cons inner node scope children rest, point, outside =>
    match (point : (Pointstamp (P.product inner).T ⊕ children.Point) ⊕ rest.Point) with
    | .inl (.inl inside) => ∃ output < scope.builder.scopeOutputs,
        inside.location = .target 0 output ∧ outside = ⟨.source node output, inside.time.outer⟩
    | .inl (.inr _) => False
    | .inr other => rest.Leave other outside

/-- The steps of a scope and its loops from the steps at its own level and below. -/
def joinStep {A B : Type} (own : A → A → Prop) (enter : A → B → Prop) (leave : B → A → Prop)
    (within : B → B → Prop) : A ⊕ B → A ⊕ B → Prop
  | .inl before, .inl after => own before after
  | .inl before, .inr after => enter before after
  | .inr before, .inl after => leave before after
  | .inr before, .inr after => within before after

/-- The steps inside the loops of a scope. -/
def Within : {P : TimeType} → (loops : LoopScopes P) → loops.Point → loops.Point → Prop
  | _, .nil, _, _ => False
  | P, .cons inner _ scope children rest, before, after =>
    match (before : (Pointstamp (P.product inner).T ⊕ children.Point) ⊕ rest.Point),
      (after : (Pointstamp (P.product inner).T ⊕ children.Point) ⊕ rest.Point) with
    | .inl first, .inl second =>
      joinStep (children.OwnHop scope.builder) children.Enter children.Leave children.Within first second
    | .inr first, .inr second => rest.Within first second
    | _, _ => False

/-- Raw counts sit at operator ports and at the inputs of loop nodes: the sources of a loop's boundary and of its
nodes are derived, and no input port is ever counted at a boundary. -/
def IsRaw : {P : TimeType} → (loops : LoopScopes P) → loops.Point → Prop
  | _, .nil, _ => False
  | P, .cons inner _ _ children rest, point =>
    match (point : (Pointstamp (P.product inner).T ⊕ children.Point) ⊕ rest.Point) with
    | .inl (.inl own) => own.location.node ≠ 0 ∧ ¬ children.Exports own.location
    | .inl (.inr nested) => children.IsRaw nested
    | .inr other => rest.IsRaw other

/-- The net count posted at a point of the loops. -/
def count : {P : TimeType} → (loops : LoopScopes P) → loops.States → loops.Point → Int
  | _, .nil, _, _ => 0
  | P, .cons inner _ scope children rest, state, point =>
    match (state : (LoopState scope × children.States) × rest.States),
      (point : (Pointstamp (P.product inner).T ⊕ children.Point) ⊕ rest.Point) with
    | ((loop, _), _), .inl (.inl own) => loop.tracker.posted own.location own.time
    | ((_, states), _), .inl (.inr nested) => children.count states nested
    | (_, others), .inr other => rest.count others other

/-- The time of the point is on the frontier of its location. -/
def OnFrontier : {P : TimeType} → (loops : LoopScopes P) → loops.States → loops.Point → Prop
  | _, .nil, _, _ => False
  | P, .cons inner _ scope children rest, state, point =>
    match (state : (LoopState scope × children.States) × rest.States),
      (point : (Pointstamp (P.product inner).T ⊕ children.Point) ⊕ rest.Point) with
    | ((loop, _), _), .inl (.inl own) => own.time ∈ loop.tracker.frontierAt own.location
    | ((_, states), _), .inl (.inr nested) => children.OnFrontier states nested
    | (_, others), .inr other => rest.OnFrontier others other

end LoopScopes

/-- The static facts that tie a loop to the graph of its parent. -/
structure Wiring {P inner : TimeType} (parent : Builder P.S) (node : Nat) (scope : ScopeGraph (P.product inner)) :
    Prop where
  registered : parent.nodes node = some scope.outerSummary
  sound : scope.builder.Sound
  tables : scope.builder.TablesExact scope.tables

/-- The counts of a loop and its parent agree: exports at the node, imports at the boundary. -/
structure Bridge {P inner : TimeType} {topology : Topology P.S} (parent : Tracker P.T topology) (node : Nat)
    {scope : ScopeGraph (P.product inner)} (loop : LoopState scope) : Prop where
  exactly : loop.tracker.Exact
  applied : ∀ location time,
    loop.tracker.posted location time = (loop.tracker.ports location).pointstamps.countFor time
  boundary : ∀ location time, location.node = 0 → 0 < loop.tracker.posted location time →
    ∃ input < scope.builder.scopeInputs, location = .source 0 input
  imports : ∀ input < scope.builder.scopeInputs, ∀ time,
    0 < loop.tracker.posted (.source 0 input) time ↔
      ∃ early ∈ parent.targetFrontier node input, time = (⟨early, minimum⟩ : Product P.T inner.T)
  exports : ∀ output < scope.builder.scopeOutputs, ∀ time,
    0 < parent.posted (.source node output) time ↔
      ∃ location start final, start ∈ (loop.tracker.ports location).pointstamps.frontier ∧
        (output, final) ∈ scope.topology.exported location start ∧ final.outer = time

namespace LoopScopes

def Wired : {P : TimeType} → LoopScopes P → Builder P.S → Prop
  | _, .nil, _ => True
  | _, .cons _ node scope children rest, parent =>
    Wiring parent node scope ∧ children.Wired scope.builder ∧ rest.Wired parent

def Bridged : {P : TimeType} → (loops : LoopScopes P) → {topology : Topology P.S} → Tracker P.T topology →
    loops.States → Prop
  | _, .nil, _, _, _ => True
  | _, .cons _ node scope children rest, _, parent, state =>
    match (state : (LoopState scope × children.States) × rest.States) with
    | ((loop, states), others) =>
      Bridge parent node loop ∧ children.Bridged loop.tracker states ∧ rest.Bridged parent others

end LoopScopes

section Loop

variable {P inner : TimeType} {outer : ScopeGraph P} {scope : ScopeGraph (P.product inner)} {node : Nat}

variable {input output : Nat} {summary : Product P.S inner.S}

/-- The summaries of a loop cover the outer part of every walk through it. -/
theorem Wiring.outerSummary_covers (wiring : Wiring outer.builder node scope)
    (inside : input < scope.builder.scopeInputs) (exits : output < scope.builder.scopeOutputs) (walk : scope.builder.Walk (.source 0 input) (.target 0 output) summary) :
    ∃ least ∈ (scope.outerSummary.path input output).elements, least ≤ summary.outer := by
  have covered := wiring.tables.covers _ output summary exits walk
  obtain ⟨entry, member, below⟩ := ((scope.tables (.source 0 input) output).lessEqual_iff summary).mp covered
  have dims := (wiring.sound.wellFormed.shape_of_node 0 _ wiring.sound.wellFormed.boundary).2
  have ports : input < (scope.builder.shape 0).2 := by
    rw [← dims]
    exact inside
  have path : (scope.builder.scopeSummary scope.tables).path input output =
      Antichain.fromElemIter (scope.tables (.source 0 input) output).elements := if_pos ⟨inside, exits, ports⟩
  have inPath : ((scope.builder.scopeSummary scope.tables).path input output).lessEqual summary = true := by
    rw [path, Antichain.fromElemIter_lessEqual]
    exact ⟨entry, member, below⟩
  obtain ⟨kept, found, kept_le⟩ := (Antichain.lessEqual_iff _ _).mp inPath
  have projected : (scope.outerSummary.path input output).lessEqual summary.outer = true := by
    apply (Antichain.fromElemIter_lessEqual _ _).mpr
    exact ⟨kept.outer, List.mem_map_of_mem found, kept_le.1⟩
  exact (Antichain.lessEqual_iff _ _).mp projected

/-- Every summary of a loop is the outer part of a walk through it. -/
theorem Wiring.outerSummary_walk (wiring : Wiring outer.builder node scope) {summary : P.S}
    (member : summary ∈ (scope.outerSummary.path input output).elements) :
    input < scope.builder.scopeInputs ∧ output < scope.builder.scopeOutputs ∧
      ∃ whole : Product P.S inner.S, whole.outer = summary ∧
        scope.builder.Walk (.source 0 input) (.target 0 output) whole := by
  obtain ⟨whole, found, same⟩ := List.mem_map.mp (Antichain.mem_of_mem_fromElemIter member)
  change whole ∈ (if _ then _ else _ : Antichain _).elements at found
  split at found
  · rename_i inside
    exact ⟨inside.1, inside.2.1, whole, same, wiring.tables.sound _ _ whole (Antichain.mem_of_mem_fromElemIter found)⟩
  · cases found

variable {tracker : Tracker P.T outer.topology} {loop : LoopState scope}

section

variable (wiring : Wiring outer.builder node scope)
include wiring

/-- A walk through a loop that starts at an imported time is a hop of its parent. -/
theorem Bridge.leave_imported (sound : outer.builder.WellFormed)
    (outerExact : tracker.Exact) (inside : input < scope.builder.scopeInputs)
    (exits : output < scope.builder.scopeOutputs) {early : P.T} (member : early ∈ tracker.targetFrontier node input) (walk : scope.builder.Walk (.source 0 input) (.target 0 output) summary)
    {late : P.T} (moved : resultsIn summary.outer early = some late) :
    ∃ below ∈ tracker.frontierAt (.source node output), below ≤ late := by
  obtain ⟨least, found, least_le⟩ := wiring.outerSummary_covers inside exits walk
  obtain ⟨result, resulted, result_le⟩ :=
    UnsignedTimestamp.resultsIn_summary_mono least summary.outer early late least_le moved
  have dims := (sound.shape_of_node node _ wiring.registered).2
  have ports : output < (outer.builder.shape node).2 := by
    rw [← dims]
    exact exits
  have hop : outer.builder.Step (.target node input, early) (.source node output, result) :=
    ⟨least, Builder.mem_hops_target.mpr ⟨_, output, wiring.registered, ports, rfl, found⟩, resulted⟩
  have reached := ((outerExact (.target node input)).sound early member).of_step hop
  obtain ⟨below, present, below_le⟩ := (outerExact (.source node output)).covers result reached
  exact ⟨below, present, below_le.trans result_le⟩

/-- A walk through a loop that starts at work of the loop ends at or after its export. -/
theorem Bridge.leave_internal (bridge : Bridge tracker node loop)
    (outerExact : tracker.Exact) {origin : Location} (operator : origin.node ≠ 0)
    (exits : output < scope.builder.scopeOutputs) {start late : Product P.T inner.T}
    (held : 0 < loop.tracker.posted origin start)
    (walk : scope.builder.Walk origin (.target 0 output) summary) (moved : resultsIn summary start = some late) :
    ∃ below ∈ tracker.frontierAt (.source node output), below ≤ late.outer := by
  rw [bridge.applied] at held
  obtain ⟨first, member, first_le⟩ := (loop.tracker.ports origin).pointstamps.isFrontier.covers start held
  obtain ⟨early, began, early_le⟩ := UnsignedTimestamp.resultsIn_mono summary first start late first_le moved
  have covered := wiring.tables.covers origin output summary exits walk
  obtain ⟨least, found, least_le⟩ := (Antichain.lessEqual_iff _ _).mp covered
  obtain ⟨final, ended, final_le⟩ :=
    UnsignedTimestamp.resultsIn_summary_mono least summary first early least_le began
  have exported : (output, final) ∈ scope.topology.exported origin first :=
    Builder.mem_exported.mpr ⟨operator, exits, least, found, ended⟩
  have posted := (bridge.exports output exits final.outer).mpr ⟨origin, first, final, member, exported, rfl⟩
  obtain ⟨below, present, below_le⟩ :=
    (outerExact (.source node output)).covers final.outer (Reached.of_holds posted)
  exact ⟨below, present, below_le.trans (final_le.trans early_le).1⟩

/-- What arrives at an output of a loop is covered at its node. -/
theorem Bridge.leave_covered (sound : outer.builder.WellFormed)
    (bridge : Bridge tracker node loop) (outerExact : tracker.Exact)
    (exits : output < scope.builder.scopeOutputs) {late : Product P.T inner.T}
    (member : late ∈ loop.tracker.frontierAt (.target 0 output)) :
    ∃ below ∈ tracker.frontierAt (.source node output), below ≤ late.outer := by
  obtain ⟨origin, start, held, chain⟩ := (bridge.exactly (.target 0 output)).sound late member
  obtain ⟨summary, walk, moved⟩ := Builder.reflTransGen_step_iff.mp chain
  by_cases operator : origin.node = 0
  · obtain ⟨input, inside, same⟩ := bridge.boundary origin start operator held
    subst same
    obtain ⟨early, found, entered⟩ := (bridge.imports input inside start).mp held
    subst entered
    exact Bridge.leave_imported wiring sound outerExact inside exits found walk
      (Product.resultsIn_eq_some.mp moved).1
  · exact Bridge.leave_internal wiring bridge outerExact operator exits held walk moved

end

end Loop

namespace LoopScopes

/-- The points on the frontiers of a scope and its loops. -/
def JointFrontier (loops : LoopScopes P) {topology : Topology P.S} (tracker : Tracker P.T topology)
    (states : loops.States) : Pointstamp P.T ⊕ loops.Point → Prop :=
  Sum.elim (fun own => own.time ∈ tracker.frontierAt own.location) (loops.OnFrontier states)

/-- Some frontier element is at or below the point. -/
def Covered (loops : LoopScopes P) {topology : Topology P.S} (tracker : Tracker P.T topology)
    (states : loops.States) (point : Pointstamp P.T ⊕ loops.Point) : Prop :=
  ∃ low, loops.JointFrontier tracker states low ∧ low ≤ point

/-- The steps of a scope and its loops as one flat graph. -/
def FlatStep (loops : LoopScopes P) (builder : Builder P.S) :
    Pointstamp P.T ⊕ loops.Point → Pointstamp P.T ⊕ loops.Point → Prop :=
  joinStep (loops.OwnHop builder) loops.Enter loops.Leave loops.Within

section Covered

variable {loops : LoopScopes P} {topology : Topology P.S} {tracker : Tracker P.T topology}
  {states : loops.States}

theorem covered_inl {own : Pointstamp P.T} :
    loops.Covered tracker states (.inl own) ↔ ∃ below ∈ tracker.frontierAt own.location, below ≤ own.time := by
  constructor
  · intro covered
    obtain ⟨low, onFrontier, below⟩ := covered
    cases low with
    | inl low =>
      obtain ⟨same, earlier⟩ := Pointstamp.le_iff.mp (Sum.inl_le_inl_iff.mp below)
      exact ⟨low.time, same ▸ onFrontier, earlier⟩
    | inr low => exact absurd below Sum.not_inr_le_inl
  · intro covered
    obtain ⟨below, member, earlier⟩ := covered
    exact ⟨.inl ⟨own.location, below⟩, member, Sum.inl_le_inl_iff.mpr ⟨rfl, earlier⟩⟩

theorem covered_inr {point : loops.Point} :
    loops.Covered tracker states (.inr point) ↔ ∃ low, loops.OnFrontier states low ∧ low ≤ point := by
  constructor
  · intro covered
    obtain ⟨low, onFrontier, below⟩ := covered
    cases low with
    | inl low => exact absurd below Sum.not_inl_le_inr
    | inr low => exact ⟨low, onFrontier, Sum.inr_le_inr_iff.mp below⟩
  · intro covered
    obtain ⟨low, onFrontier, below⟩ := covered
    exact ⟨.inr low, onFrontier, Sum.inr_le_inr_iff.mpr below⟩

end Covered

section Cons

variable {P inner : TimeType} {node : Nat} {scope : ScopeGraph (P.product inner)}
  {children : LoopScopes (P.product inner)} {rest : LoopScopes P} {topology : Topology P.S}
  {tracker : Tracker P.T topology} {loop : LoopState scope} {states : children.States} {others : rest.States}

/-- A covered point of the first loop is covered inside that loop. -/
theorem covered_cons_inl {point : Pointstamp (P.product inner).T ⊕ children.Point} :
    (cons inner node scope children rest).Covered tracker ((loop, states), others) (.inr (.inl point)) ↔
      children.Covered loop.tracker states point := by
  refine covered_inr.trans ?_
  constructor
  · intro covered
    obtain ⟨low, onFrontier, below⟩ := covered
    rcases low with (own | nested) | other
    · exact ⟨.inl own, onFrontier, Sum.inl_le_inl_iff.mp below⟩
    · exact ⟨.inr nested, onFrontier, Sum.inl_le_inl_iff.mp below⟩
    · exact absurd below Sum.not_inr_le_inl
  · intro covered
    obtain ⟨low, onFrontier, below⟩ := covered
    refine ⟨.inl low, ?_, Sum.inl_le_inl_iff.mpr below⟩
    cases low with
    | inl own => exact onFrontier
    | inr nested => exact onFrontier

theorem covered_cons_inr {point : rest.Point} :
    (cons inner node scope children rest).Covered tracker ((loop, states), others) (.inr (.inr point)) ↔
      rest.Covered tracker others (.inr point) := by
  refine covered_inr.trans (Iff.trans ?_ covered_inr.symm)
  constructor
  · intro covered
    obtain ⟨low, onFrontier, below⟩ := covered
    rcases low with first | other
    · exact absurd below Sum.not_inl_le_inr
    · exact ⟨other, onFrontier, Sum.inr_le_inr_iff.mp below⟩
  · intro covered
    obtain ⟨low, onFrontier, below⟩ := covered
    exact ⟨.inr low, onFrontier, Sum.inr_le_inr_iff.mpr below⟩

end Cons

/-- Coverage passes along the hops of one scope. -/
theorem covered_hop {outer : ScopeGraph P} {tracker : Tracker P.T outer.topology}
    (isExact : tracker.Exact) {before after : Pointstamp P.T}
    (step : outer.builder.Step (before.location, before.time) (after.location, after.time))
    (covered : ∃ below ∈ tracker.frontierAt before.location, below ≤ before.time) :
    ∃ below ∈ tracker.frontierAt after.location, below ≤ after.time := by
  obtain ⟨below, member, earlier⟩ := covered
  obtain ⟨lower, lower_le, taken⟩ := outer.builder.step_monotone earlier step
  have reached := ((isExact before.location).sound below member).of_step taken
  obtain ⟨least, found, least_le⟩ := (isExact after.location).covers lower reached
  exact ⟨least, found, least_le.trans lower_le⟩

/-- Coverage passes along every step of the flat graph. -/
theorem covered_step (loops : LoopScopes P) : ∀ (outer : ScopeGraph P)
    (tracker : Tracker P.T outer.topology) (states : loops.States), outer.builder.WellFormed → tracker.Exact →
    loops.Wired outer.builder → loops.Bridged tracker states →
    ∀ before after, loops.FlatStep outer.builder before after →
      loops.Covered tracker states before → loops.Covered tracker states after := by
  induction loops with
  | nil =>
    intro outer tracker states wellFormed isExact _ _ before after step covered
    rcases before with own | impossible
    · rcases after with next | impossible
      · exact covered_inl.mpr (covered_hop isExact step.2 (covered_inl.mp covered))
      · exact impossible.elim
    · exact impossible.elim
  | cons inner node scope children rest ihChildren ihRest =>
    intro outer tracker state wellFormed isExact wired bridged before after step covered
    obtain ⟨⟨loop, states⟩, others⟩ := state
    obtain ⟨wiring, wiredChildren, wiredRest⟩ := wired
    obtain ⟨bridge, bridgedChildren, bridgedRest⟩ := bridged
    have inside := ihChildren scope loop.tracker states wiring.sound.wellFormed bridge.exactly wiredChildren
      bridgedChildren
    have outside := ihRest outer tracker others wellFormed isExact wiredRest bridgedRest
    rcases before with own | first | other
    · rcases after with next | (entry | nested) | later
      · exact covered_inl.mpr (covered_hop isExact step.2 (covered_inl.mp covered))
      · obtain ⟨input, bound, place, same⟩ := step
        subst same
        obtain ⟨below, member, earlier⟩ := covered_inl.mp covered
        rw [place] at member
        have posted := (bridge.imports input bound _).mpr ⟨below, member, rfl⟩
        obtain ⟨least, found, least_le⟩ := (bridge.exactly (.source 0 input)).covers _ (Reached.of_holds posted)
        exact covered_cons_inl.mpr (covered_inl.mpr ⟨least, found, least_le.trans ⟨earlier, le_rfl⟩⟩)
      · exact step.elim
      · exact covered_cons_inr.mpr (outside (.inl own) (.inr later) step (covered_inl.mpr (covered_inl.mp covered)))
    · rcases after with next | second | later
      · rcases first with leaving | nested
        · obtain ⟨output, bound, place, same⟩ := step
          subst same
          obtain ⟨below, member, earlier⟩ := covered_inl.mp (covered_cons_inl.mp covered)
          rw [place] at member
          obtain ⟨least, found, least_le⟩ := Bridge.leave_covered wiring wellFormed bridge isExact bound member
          exact covered_inl.mpr ⟨least, found, least_le.trans earlier.1⟩
        · exact step.elim
      · exact covered_cons_inl.mpr (inside first second step (covered_cons_inl.mp covered))
      · exact step.elim
    · rcases after with next | second | later
      · exact covered_inl.mpr (covered_inl.mp (outside (.inr other) (.inl next) step (covered_cons_inr.mp covered)))
      · exact step.elim
      · exact covered_cons_inr.mpr (outside (.inr other) (.inr later) step (covered_cons_inr.mp covered))

/-- A set of points that no step of the flat graph leaves, apart from the hops of the outer scope. -/
structure Closed (loops : LoopScopes P) (outside : Pointstamp P.T → Prop)
    (inside : loops.Point → Prop) : Prop where
  enter : ∀ before after, loops.Enter before after → outside before → inside after
  leave : ∀ before after, loops.Leave before after → inside before → outside after
  within : ∀ before after, loops.Within before after → inside before → inside after

section Closed

variable {P inner : TimeType} {node : Nat} {scope : ScopeGraph (P.product inner)}
  {children : LoopScopes (P.product inner)} {rest : LoopScopes P} {outside : Pointstamp P.T → Prop}
  {inside : (cons inner node scope children rest).Point → Prop}

section

variable (closed : (cons inner node scope children rest).Closed outside inside)
include closed

theorem Closed.later : rest.Closed outside fun point => inside (.inr point) where
  enter before after := closed.enter before (.inr after)
  leave before := closed.leave (.inr before)
  within before after := closed.within (.inr before) (.inr after)

theorem Closed.nested : children.Closed (fun own => inside (.inl (.inl own))) fun point => inside (.inl (.inr point)) where
  enter before after := closed.within (.inl (.inl before)) (.inl (.inr after))
  leave before after := closed.within (.inl (.inr before)) (.inl (.inl after))
  within before after := closed.within (.inl (.inr before)) (.inl (.inr after))

theorem Closed.own {before after : Pointstamp (P.product inner).T} (hop : children.OwnHop scope.builder before after)
    (held : inside (.inl (.inl before))) : inside (.inl (.inl after)) :=
  closed.within (.inl (.inl before)) (.inl (.inl after)) hop held

end

end Closed

/-- The closed set has the result of every path through a loop's node. -/
def Realizes (loops : LoopScopes P) (outside : Pointstamp P.T → Prop) : Prop :=
  ∀ child ∈ loops.nodes, ∀ input output, ∀ summary ∈ (child.outerSummary.path input output).elements,
    ∀ time later, resultsIn summary time = some later →
      outside ⟨.target child.node input, time⟩ → outside ⟨.source child.node output, later⟩

section

variable {loops : LoopScopes P} {builder : Builder P.S} {outside : Pointstamp P.T → Prop}
  {before after : Location × P.T} (realizes : loops.Realizes outside)
  (registered : ∀ child ∈ loops.nodes, builder.nodes child.node = some child.outerSummary)
  (own : ∀ before after, loops.OwnHop builder before after → outside before → outside after)
include realizes registered own

/-- With the paths through the loops realized, the closed set has every hop of the scope. -/
theorem Realizes.step (step : builder.Step before after) (held : outside ⟨before.1, before.2⟩) :
    outside ⟨after.1, after.2⟩ := by
  by_cases through : loops.Through before.1
  · obtain ⟨place, time⟩ := before
    obtain ⟨finish, later⟩ := after
    obtain ⟨child, member, input, same⟩ := through
    obtain ⟨summary, hop, moved⟩ := step
    subst same
    obtain ⟨connectivity, output, found, _, isSource, path⟩ := Builder.mem_hops_target.mp hop
    rw [registered child member, Option.some.injEq] at found
    subst found isSource
    exact realizes child member input output summary path time later moved held
  · exact own ⟨before.1, before.2⟩ ⟨after.1, after.2⟩ ⟨through, step⟩ held

theorem Realizes.walk (walk : ReflTransGen builder.Step before after) (held : outside ⟨before.1, before.2⟩) :
    outside ⟨after.1, after.2⟩ := by
  induction walk with
  | refl => exact held
  | tail _ last ih => exact realizes.step registered own last ih

end

theorem Wired.registered (loops : LoopScopes P) : ∀ parent : Builder P.S, loops.Wired parent →
    ∀ child ∈ loops.nodes, parent.nodes child.node = some child.outerSummary := by
  induction loops with
  | nil => exact nofun
  | cons inner node scope children rest _ ihRest =>
    intro parent wired child member
    rcases List.mem_cons.mp member with same | later
    · subst same
      exact wired.1.registered
    · exact ihRest parent wired.2.2 child later

/-- Every path through a loop's node is a walk inside the loop. -/
theorem Closed.realizes (loops : LoopScopes P) : ∀ (outer : ScopeGraph P)
    (outside : Pointstamp P.T → Prop) (inside : loops.Point → Prop), loops.Wired outer.builder →
    loops.Closed outside inside → loops.Realizes outside := by
  induction loops with
  | nil => exact nofun
  | cons inner node scope children rest ihChildren ihRest =>
    intro outer outside inside wired closed child member input output summary path time later moved held
    obtain ⟨wiring, wiredChildren, wiredRest⟩ := wired
    rcases List.mem_cons.mp member with same | others
    · subst same
      obtain ⟨inRange, exits, whole, projected, walk⟩ := wiring.outerSummary_walk path
      obtain ⟨laps, lapped⟩ := UnsignedTimestamp.resultsIn_minimum (T := inner.T) whole.inner
      have through : resultsIn whole (⟨time, minimum⟩ : Product _ inner.T) = some ⟨later, laps⟩ :=
        Product.resultsIn_eq_some.mpr ⟨by rw [projected]; exact moved, lapped⟩
      have entered := closed.enter ⟨.target node input, time⟩
        (.inl (.inl ⟨.source 0 input, ⟨time, minimum⟩⟩)) ⟨input, inRange, rfl, rfl⟩ held
      have crossed := (ihChildren scope _ _ wiredChildren closed.nested).walk
        (Wired.registered children scope.builder wiredChildren) (fun _ _ => closed.own)
        (Builder.reflTransGen_step_iff.mpr ⟨whole, walk, through⟩) entered
      exact closed.leave (.inl (.inl ⟨.target 0 output, ⟨later, laps⟩⟩)) ⟨.source node output, later⟩
        ⟨output, exits, rfl, rfl⟩ crossed
    · exact ihRest outer outside _ wiredRest closed.later child others input output summary path time later moved held

/-- The closed set has what is posted outside, because an export of a loop is raw or exported from further inside. -/
theorem Closed.posted_held (loops : LoopScopes P) : ∀ (outer : ScopeGraph P)
    (tracker : Tracker P.T outer.topology) (states : loops.States) (outside : Pointstamp P.T → Prop)
    (inside : loops.Point → Prop), loops.Wired outer.builder → loops.Bridged tracker states →
    loops.Closed outside inside → (∀ point, loops.IsRaw point → 0 < loops.count states point → inside point) →
    ∀ location time, 0 < tracker.posted location time → (¬ loops.Exports location → outside ⟨location, time⟩) →
      outside ⟨location, time⟩ := by
  induction loops with
  | nil =>
    intro outer tracker states outside inside _ _ _ _ location time _ raw
    exact raw fun exported => nomatch exported.choose_spec.1
  | cons inner node scope children rest ihChildren ihRest =>
    intro outer tracker state outside inside wired bridged closed raws location time posted raw
    obtain ⟨⟨loop, states⟩, others⟩ := state
    obtain ⟨wiring, wiredChildren, wiredRest⟩ := wired
    obtain ⟨bridge, bridgedChildren, bridgedRest⟩ := bridged
    refine (em _).elim (fun exported => ?_) raw
    obtain ⟨child, member, output, bound, same⟩ := exported
    rcases List.mem_cons.mp member with isFirst | later
    · subst isFirst same
      obtain ⟨origin, start, final, onFrontier, carried, projected⟩ := (bridge.exports output bound time).mp posted
      obtain ⟨operator, _, summary, entry, moved⟩ := Builder.mem_exported.mp carried
      have held : 0 < loop.tracker.posted origin start := by
        rw [bridge.applied]
        exact (loop.tracker.ports origin).pointstamps.isFrontier.sound start onFrontier
      have started := ihChildren scope loop.tracker states _ _ wiredChildren bridgedChildren closed.nested
        (fun point => raws (.inl (.inr point))) origin start held
        fun own => raws (.inl (.inl ⟨origin, start⟩)) ⟨operator, own⟩ held
      have walk := wiring.tables.sound origin output summary entry
      have crossed := (Closed.realizes children scope _ _ wiredChildren closed.nested).walk
        (Wired.registered children scope.builder wiredChildren) (fun _ _ => closed.own)
        (Builder.reflTransGen_step_iff.mpr ⟨summary, walk, moved⟩) started
      rw [← projected]
      exact closed.leave (.inl (.inl ⟨.target 0 output, final⟩)) _ ⟨output, bound, rfl, rfl⟩ crossed
    · exact ihRest outer tracker others outside _ wiredRest bridgedRest closed.later
        (fun point => raws (.inr point)) location time posted fun apart =>
          absurd ⟨child, later, output, bound, same⟩ apart

/-- The closed set has every frontier of the loops if it has the frontiers outside. -/
theorem Closed.frontier_held (loops : LoopScopes P) : ∀ (outer : ScopeGraph P)
    (tracker : Tracker P.T outer.topology) (states : loops.States) (outside : Pointstamp P.T → Prop)
    (inside : loops.Point → Prop), loops.Wired outer.builder → loops.Bridged tracker states →
    loops.Closed outside inside → (∀ point, loops.IsRaw point → 0 < loops.count states point → inside point) →
    (∀ own : Pointstamp P.T, own.time ∈ tracker.frontierAt own.location → outside own) →
    ∀ point, loops.OnFrontier states point → inside point := by
  induction loops with
  | nil => exact fun _ _ _ _ _ _ _ _ _ _ point => point.elim
  | cons inner node scope children rest ihChildren ihRest =>
    intro outer tracker state outside inside wired bridged closed raws frontier point onFrontier
    obtain ⟨⟨loop, states⟩, others⟩ := state
    obtain ⟨wiring, wiredChildren, wiredRest⟩ := wired
    obtain ⟨bridge, bridgedChildren, bridgedRest⟩ := bridged
    have own : ∀ place : Pointstamp _, place.time ∈ loop.tracker.frontierAt place.location →
        inside (.inl (.inl place)) := by
      intro place member
      obtain ⟨origin, start, held, chain⟩ := (bridge.exactly place.location).sound place.time member
      have started : inside (.inl (.inl ⟨origin, start⟩)) := by
        by_cases operator : origin.node = 0
        · obtain ⟨input, inRange, same⟩ := bridge.boundary origin start operator held
          subst same
          obtain ⟨early, found, entered⟩ := (bridge.imports input inRange start).mp held
          exact closed.enter ⟨.target node input, early⟩ _ ⟨input, inRange, rfl, by rw [entered]⟩
            (frontier ⟨.target node input, early⟩ found)
        · exact Closed.posted_held children scope loop.tracker states _ _ wiredChildren bridgedChildren closed.nested
            (fun point => raws (.inl (.inr point))) origin start held
            fun own => raws (.inl (.inl ⟨origin, start⟩)) ⟨operator, own⟩ held
      exact (Closed.realizes children scope _ _ wiredChildren closed.nested).walk
        (Wired.registered children scope.builder wiredChildren) (fun _ _ => closed.own) chain started
    rcases point with (place | nested) | other
    · exact own place onFrontier
    · exact ihChildren scope loop.tracker states _ _ wiredChildren bridgedChildren closed.nested
        (fun point => raws (.inl (.inr point))) own nested onFrontier
    · exact ihRest outer tracker others outside _ wiredRest bridgedRest closed.later
        (fun point => raws (.inr point)) frontier other onFrontier

/-- A point with a positive count is covered. -/
theorem covered_of_count (loops : LoopScopes P) : ∀ {topology : Topology P.S}
    (tracker : Tracker P.T topology) (states : loops.States), loops.Bridged tracker states →
    ∀ point, 0 < loops.count states point → loops.Covered tracker states (.inr point) := by
  induction loops with
  | nil => exact fun _ _ _ point => point.elim
  | cons inner node scope children rest ihChildren ihRest =>
    intro topology tracker state bridged point positive
    obtain ⟨⟨loop, states⟩, others⟩ := state
    obtain ⟨bridge, bridgedChildren, bridgedRest⟩ := bridged
    rcases point with (own | nested) | other
    · exact covered_cons_inl.mpr (covered_inl.mpr
        ((bridge.exactly own.location).covers own.time (Reached.of_holds positive)))
    · exact covered_cons_inl.mpr (ihChildren loop.tracker states bridgedChildren nested positive)
    · exact covered_cons_inr.mpr (ihRest tracker others bridgedRest other positive)

theorem exact_eq_of_le {scope : ScopeGraph P} {tracker : Tracker P.T scope.topology}
    (isExact : tracker.Exact) {first second : Pointstamp P.T} (onFirst : first.time ∈ tracker.frontierAt first.location)
    (onSecond : second.time ∈ tracker.frontierAt second.location) (below : first ≤ second) : first = second := by
  obtain ⟨same, earlier⟩ := Pointstamp.le_iff.mp below
  exact Pointstamp.ext same ((isExact second.location).eq_of_le (same ▸ onFirst) onSecond earlier)

/-- Two frontier elements that compare are equal. -/
theorem onFrontier_eq_of_le (loops : LoopScopes P) : ∀ {topology : Topology P.S}
    (tracker : Tracker P.T topology) (states : loops.States), loops.Bridged tracker states →
    ∀ first second, loops.OnFrontier states first → loops.OnFrontier states second → first ≤ second →
      first = second := by
  induction loops with
  | nil => exact fun _ _ _ first => first.elim
  | cons inner node scope children rest ihChildren ihRest =>
    intro topology tracker state bridged first second onFirst onSecond below
    obtain ⟨⟨loop, states⟩, others⟩ := state
    obtain ⟨bridge, bridgedChildren, bridgedRest⟩ := bridged
    rcases first with (own | nested) | other
    · rcases second with (next | deeper) | later
      · exact congrArg (fun place => Sum.inl (Sum.inl place)) (exact_eq_of_le bridge.exactly onFirst onSecond
          (Sum.inl_le_inl_iff.mp (Sum.inl_le_inl_iff.mp below)))
      · exact absurd (Sum.inl_le_inl_iff.mp below) Sum.not_inl_le_inr
      · exact absurd below Sum.not_inl_le_inr
    · rcases second with (next | deeper) | later
      · exact absurd (Sum.inl_le_inl_iff.mp below) Sum.not_inr_le_inl
      · exact congrArg (fun point => Sum.inl (Sum.inr point)) (ihChildren loop.tracker states bridgedChildren
          nested deeper onFirst onSecond (Sum.inr_le_inr_iff.mp (Sum.inl_le_inl_iff.mp below)))
      · exact absurd below Sum.not_inl_le_inr
    · rcases second with first | later
      · exact absurd below Sum.not_inr_le_inl
      · exact congrArg Sum.inr (ihRest tracker others bridgedRest other later onFirst onSecond
          (Sum.inr_le_inr_iff.mp below))

end LoopScopes

namespace ProgressGraph

variable (graph : ProgressGraph P)

/-- The pointstamps of every scope. -/
abbrev Point : Type := Pointstamp P.T ⊕ graph.loops.Point

/-- The steps of the flat graph. -/
def Step : graph.Point → graph.Point → Prop := graph.loops.FlatStep graph.root.builder

/-- The points at which counts are raw. -/
def IsRaw : graph.Point → Prop :=
  Sum.elim (fun own => ¬ graph.loops.Exports own.location) graph.loops.IsRaw

/-- The location of the point is a port of its scope. -/
def Registered : graph.Point → Prop :=
  Sum.elim (fun own => own.location ∈ graph.root.builder.locations) graph.loops.Registered

/-- The points that some held raw point reaches in the flat graph. -/
def Reaches (held : graph.Point → Prop) (point : graph.Point) : Prop :=
  ∃ origin, graph.IsRaw origin ∧ held origin ∧ ReflTransGen graph.Step origin point

theorem Reaches.step {held : graph.Point → Prop} {before after : graph.Point}
    (reached : graph.Reaches held before) (step : graph.Step before after) : graph.Reaches held after := by
  obtain ⟨origin, raw, positive, walk⟩ := reached
  exact ⟨origin, raw, positive, walk.tail step⟩

theorem Reaches.of_held {held : graph.Point → Prop} {point : graph.Point} (raw : graph.IsRaw point)
    (positive : held point) : graph.Reaches held point := ⟨point, raw, positive, ReflTransGen.refl⟩

end ProgressGraph

namespace ProgressTracker

variable {graph : ProgressGraph P}

/-- The net count posted at a point. -/
def count (state : ProgressTracker graph) : graph.Point → Int :=
  Sum.elim (fun own => state.tracker.posted own.location own.time) (graph.loops.count state.children)

/-- The time of the point is on the frontier of its location. -/
def OnFrontier (state : ProgressTracker graph) : graph.Point → Prop :=
  graph.loops.JointFrontier state.tracker state.children

/-- Every tracker is exact and every loop agrees with its parent. -/
structure Bridged (state : ProgressTracker graph) : Prop where
  exactly : state.tracker.Exact
  loops : graph.loops.Bridged state.tracker state.children

end ProgressTracker

/-- The static facts of a compiled graph. -/
structure ProgressGraph.Wired (graph : ProgressGraph P) : Prop where
  sound : graph.root.builder.Sound
  loops : graph.loops.Wired graph.root.builder

namespace ProgressTracker.Bridged

open ProgressGraph

variable {graph : ProgressGraph P} {state : ProgressTracker graph}

/-- What the raw counts reach is closed under the steps of the flat graph. -/
theorem closed (held : graph.Point → Prop) :
    graph.loops.Closed (fun own => graph.Reaches held (.inl own)) fun point => graph.Reaches held (.inr point) where
  enter before after step reached := Reaches.step graph reached (show graph.Step (.inl before) (.inr after) from step)
  leave before after step reached := Reaches.step graph reached (show graph.Step (.inr before) (.inl after) from step)
  within before after step reached := Reaches.step graph reached (show graph.Step (.inr before) (.inr after) from step)

variable (bridged : state.Bridged)

include bridged

/-- Every point that the raw counts reach has a frontier element at or below it. -/
theorem covers (wired : graph.Wired) {point : graph.Point}
    (reached : graph.Reaches (fun origin => 0 < state.count origin) point) :
    ∃ low, state.OnFrontier low ∧ low ≤ point := by
  obtain ⟨origin, raw, positive, walk⟩ := reached
  have start : graph.loops.Covered state.tracker state.children origin := by
    cases origin with
    | inl own => exact LoopScopes.covered_inl.mpr ((bridged.exactly own.location).covers own.time (Reached.of_holds positive))
    | inr point => exact LoopScopes.covered_of_count graph.loops state.tracker state.children bridged.loops point positive
  induction walk with
  | refl => exact start
  | tail _ last ih =>
    exact LoopScopes.covered_step graph.loops graph.root state.tracker state.children wired.sound.wellFormed
      bridged.exactly wired.loops bridged.loops _ _ last ih

/-- Every frontier element is reached from a raw count. -/
theorem sound (wired : graph.Wired) {point : graph.Point} (onFrontier : state.OnFrontier point) :
    graph.Reaches (fun origin => 0 < state.count origin) point := by
  have closed := @closed P graph fun origin => 0 < state.count origin
  have raws : ∀ point : graph.loops.Point, graph.loops.IsRaw point → 0 < graph.loops.count state.children point →
      graph.Reaches (fun origin => 0 < state.count origin) (.inr point) :=
    fun point raw positive => Reaches.of_held graph (show graph.IsRaw (.inr point) from raw) positive
  have own : ∀ place : Pointstamp P.T, place.time ∈ state.tracker.frontierAt place.location →
      graph.Reaches (fun origin => 0 < state.count origin) (.inl place) := by
    intro place member
    obtain ⟨origin, start, held, chain⟩ := (bridged.exactly place.location).sound place.time member
    have started := LoopScopes.Closed.posted_held graph.loops graph.root state.tracker state.children _ _ wired.loops
      bridged.loops closed raws origin start held
      fun raw => Reaches.of_held graph (show graph.IsRaw (.inl ⟨origin, start⟩) from raw) held
    exact (LoopScopes.Closed.realizes graph.loops graph.root _ _ wired.loops closed).walk
      (LoopScopes.Wired.registered graph.loops graph.root.builder wired.loops)
      (fun _ _ hop reached => Reaches.step graph reached hop) chain started
  cases point with
  | inl place => exact own place onFrontier
  | inr nested =>
    exact LoopScopes.Closed.frontier_held graph.loops graph.root state.tracker state.children _ _ wired.loops
      bridged.loops closed raws own nested onFrontier

theorem eq_of_le {first second : graph.Point} (onFirst : state.OnFrontier first)
    (onSecond : state.OnFrontier second) (below : first ≤ second) : first = second := by
  cases first with
  | inl own =>
    cases second with
    | inl next =>
      exact congrArg Sum.inl (LoopScopes.exact_eq_of_le bridged.exactly onFirst onSecond (Sum.inl_le_inl_iff.mp below))
    | inr point => exact absurd below Sum.not_inl_le_inr
  | inr point =>
    cases second with
    | inl own => exact absurd below Sum.not_inr_le_inl
    | inr next =>
      exact congrArg Sum.inr (LoopScopes.onFrontier_eq_of_le graph.loops state.tracker state.children bridged.loops
        point next onFirst onSecond (Sum.inr_le_inr_iff.mp below))

/-- The frontiers of bridged trackers are the minimal points that the raw counts reach in the flat graph. -/
theorem onFrontier_iff (wired : graph.Wired) (point : graph.Point) :
    state.OnFrontier point ↔ Minimal (graph.Reaches fun origin => 0 < state.count origin) point := by
  constructor
  · intro onFrontier
    refine ⟨bridged.sound wired onFrontier, fun other reached below => ?_⟩
    obtain ⟨low, onLow, low_le⟩ := bridged.covers wired reached
    exact (bridged.eq_of_le onLow onFrontier (low_le.trans below)) ▸ low_le
  · intro least
    obtain ⟨low, onLow, low_le⟩ := bridged.covers wired least.1
    have same : low = point := le_antisymm low_le (least.2 (bridged.sound wired onLow) low_le)
    exact same ▸ onLow

end ProgressTracker.Bridged

end Instancy
