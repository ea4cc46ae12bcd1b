import Instancy.Progress.Reachability.ZeroCounts
import Instancy.Progress.Subgraph.WorkerScope

namespace Instancy

open Library

variable {P : TimeType}

/-- The locations that a scope counts for a worker's scope. -/
def ScopeGraph.counts (scope : ScopeGraph P) (loops : LoopScopes P) (seen : List ScopeLocation)
    (location : Location) : Bool :=
  seen.contains (scope.scopeId, location) && !(scope.derived loops).contains location

/-- The ports of a scope's graph are listed once. -/
theorem ScopeGraph.topology_nodup (scope : ScopeGraph P) : scope.topology.locations.Nodup :=
  scope.builder.locations_nodup

namespace LoopScopes

/-- The zero tests of every loop follow its counts. -/
def Tallied (seen : List ScopeLocation) : {P : TimeType} → (loops : LoopScopes P) → loops.States → Prop
  | _, .nil, _ => True
  | _, .cons _ _ scope children rest, state =>
    match (state : (LoopState scope × children.States) × rest.States) with
    | ((loop, states), others) =>
      loop.tracker.Tallied (scope.counts children seen) ∧ children.Tallied seen states ∧ rest.Tallied seen others

variable {seen : List ScopeLocation}

theorem Tallied.post (loops : LoopScopes P) : ∀ (states after : loops.States) (point : loops.Point)
    (diff : Int), loops.Tallied seen states → loops.post states point diff = some after → loops.Tallied seen after := by
  induction loops with
  | nil => exact fun _ _ point => point.elim
  | cons inner node scope children rest ihChildren ihRest =>
    intro state after point diff tallied posted
    obtain ⟨⟨loop, states⟩, others⟩ := state
    obtain ⟨own, inside, outside⟩ := tallied
    rcases point with (place | nested) | other
    · obtain ⟨tracker, done, same⟩ := Option.map_eq_some_iff.mp posted
      cases same
      exact ⟨own.post done, inside, outside⟩
    · obtain ⟨next, done, same⟩ := Option.map_eq_some_iff.mp posted
      cases same
      exact ⟨own, ihChildren states next nested diff inside done, outside⟩
    · obtain ⟨next, done, same⟩ := Option.map_eq_some_iff.mp posted
      cases same
      exact ⟨own, inside, ihRest others next other diff outside done⟩

end LoopScopes

variable {counted : Location → Bool}

section Exports

variable {P inner : TimeType}

theorem Tracker.Tallied.postExports {topology : Topology P.S} {node : Nat}
    {tracker next : Tracker P.T topology} {exported : List (Nat × P.T × Int)} (tallied : tracker.Tallied counted)
    (done : postExports node tracker exported = some next) : next.Tallied counted :=
  foldlM_some_invariant (·.Tallied counted) exported (fun _ _ _ _ held posted => held.post posted) tallied done

theorem Tracker.Tallied.takeExports {topology : Topology (P.product inner).S} {counted : Location → Bool}
    (outputs : List Nat) {tracker : Tracker (P.product inner).T topology} (tallied : tracker.Tallied counted) :
    (takeExports outputs tracker).2.Tallied counted := by
  induction outputs generalizing tracker with
  | nil => exact tallied
  | cons output rest ih => exact ih (tallied.drainExportChanges output)

variable {scope : ScopeGraph (P.product inner)} {frontier : Nat → Antichain P.T}

theorem importInput_tallied {loop next : LoopState scope} {input : Nat}
    (tallied : loop.tracker.Tallied counted) (done : importInput frontier loop input = some next) :
    next.tracker.Tallied counted := by
  obtain ⟨released, gone, rest⟩ := Option.bind_eq_some_iff.mp done
  obtain ⟨tracker, fresh, same⟩ := Option.map_eq_some_iff.mp rest
  cases same
  have first := foldlM_some_invariant (·.Tallied counted) _ (fun _ _ _ _ held posted => held.post posted) tallied gone
  exact foldlM_some_invariant (·.Tallied counted) _ (fun _ _ _ _ held posted => held.post posted) first fresh

end Exports

namespace LoopScopes

variable {seen : List ScopeLocation}

theorem Tallied.applyAndExport (loops : LoopScopes P) : ∀ {topology : Topology P.S}
    {counted : Location → Bool} (tracker next : Tracker P.T topology) (states after : loops.States),
    tracker.Tallied counted → loops.Tallied seen states → loops.applyAndExport tracker states = some (next, after) →
    next.Tallied counted ∧ loops.Tallied seen after := by
  induction loops with
  | nil =>
    intro topology counted tracker next states after parent _ done
    cases done
    exact ⟨parent, trivial⟩
  | cons inner node scope children rest ihChildren ihRest =>
    intro topology counted tracker next state after parent tallied done
    obtain ⟨⟨loop, states⟩, others⟩ := state
    obtain ⟨own, inside, outside⟩ := tallied
    obtain ⟨applied, appliedInside, done⟩ := Option.bind_eq_some_iff.mp done
    obtain ⟨posted, postedHere, done⟩ := Option.bind_eq_some_iff.mp done
    obtain ⟨result, rested, same⟩ := Option.map_eq_some_iff.mp done
    cases same
    obtain ⟨ownApplied, insideApplied⟩ := ihChildren loop.tracker applied.1 states applied.2 own inside appliedInside
    obtain ⟨parentRest, outsideRest⟩ :=
      ihRest posted result.1 others result.2 (parent.postExports postedHere) outside rested
    exact ⟨parentRest, Tracker.Tallied.takeExports _ (ownApplied.applyPending scope.topology_nodup), insideApplied,
      outsideRest⟩

theorem Tallied.importAndPropagate {fuel : Nat} {P : TimeType} (loops : LoopScopes P) : ∀ {topology : Topology P.S}
    (tracker : Tracker P.T topology) (states after : loops.States), loops.Tallied seen states →
    loops.importAndPropagate fuel tracker states = some after → loops.Tallied seen after := by
  induction loops with
  | nil => exact fun _ _ _ _ _ => trivial
  | cons inner node scope children rest ihChildren ihRest =>
    intro topology tracker state after tallied done
    obtain ⟨⟨loop, states⟩, others⟩ := state
    obtain ⟨own, inside, outside⟩ := tallied
    obtain ⟨entered, arrived, done⟩ := Option.bind_eq_some_iff.mp done
    obtain ⟨propagated, ended, done⟩ := Option.bind_eq_some_iff.mp done
    obtain ⟨next, endedInside, done⟩ := Option.bind_eq_some_iff.mp done
    obtain ⟨result, endedRest, same⟩ := Option.map_eq_some_iff.mp done
    cases same
    have ownEntered := foldlM_some_invariant (·.tracker.Tallied (scope.counts children seen)) _
      (fun _ _ _ _ => importInput_tallied) own arrived
    exact ⟨(ownEntered.applyPending scope.topology_nodup).propagateWorklist ended,
      ihChildren propagated states next inside endedInside, ihRest tracker others result outside endedRest⟩

end LoopScopes

namespace ProgressTracker

variable {graph : ProgressGraph P} {seen : List ScopeLocation} {state next : ProgressTracker graph}

/-- The zero tests of every scope follow its counts. -/
structure Tallied (seen : List ScopeLocation) (state : ProgressTracker graph) : Prop where
  root : state.tracker.Tallied (graph.root.counts graph.loops seen)
  loops : graph.loops.Tallied seen state.children

theorem Tallied.post (tallied : state.Tallied seen) {point : graph.Point} {diff : Int}
    (posted : state.post point diff = some next) : next.Tallied seen := by
  cases point with
  | inl own =>
    obtain ⟨tracker, done, same⟩ := Option.map_eq_some_iff.mp posted
    cases same
    exact ⟨tallied.root.post done, tallied.loops⟩
  | inr nested =>
    obtain ⟨children, done, same⟩ := Option.map_eq_some_iff.mp posted
    cases same
    exact ⟨tallied.root, LoopScopes.Tallied.post graph.loops _ _ nested diff tallied.loops done⟩

variable {fuel : Nat}

theorem Tallied.exportAndPropagate (tallied : state.Tallied seen)
    (done : state.exportAndPropagate fuel = some next) : next.Tallied seen := by
  obtain ⟨applied, exported, done⟩ := Option.bind_eq_some_iff.mp done
  obtain ⟨propagated, ended, done⟩ := Option.bind_eq_some_iff.mp done
  obtain ⟨children, endedLoops, same⟩ := Option.map_eq_some_iff.mp done
  cases same
  obtain ⟨root, loops⟩ := LoopScopes.Tallied.applyAndExport graph.loops state.tracker applied.1 state.children applied.2
    tallied.root tallied.loops exported
  exact ⟨(root.applyPending graph.root.topology_nodup).propagateWorklist ended,
    LoopScopes.Tallied.importAndPropagate graph.loops propagated applied.2 children loops endedLoops⟩

theorem Tallied.run (tallied : state.Tallied seen) {call : ScopeCall graph}
    (done : call.run fuel state = some next) : next.Tallied seen := by
  cases call with
  | update point diff => exact tallied.post done
  | exportAndPropagate => exact tallied.exportAndPropagate done

theorem Tallied.runAll (calls : List (ScopeCall graph)) : ∀ {state next : ProgressTracker graph},
    state.Tallied seen → ScopeCall.runAll fuel calls state = some next → next.Tallied seen := by
  induction calls with
  | nil =>
    intro state next tallied done
    cases done
    exact tallied
  | cons call rest ih =>
    intro state next tallied done
    obtain ⟨middle, first, others⟩ := Option.bind_eq_some_iff.mp done
    exact ih (tallied.run first) others

end ProgressTracker

end Instancy
