import Instancy.Progress.MutableAntichain
import Instancy.Progress.Reachability.Builder

namespace Instancy

open Library

/-- This is one entry of the propagation worklist. -/
structure WorklistEntry (T : Type) where
  time : T
  location : Location
  diff : Int
  deriving DecidableEq

namespace WorklistEntry

variable {T : Type}

def key (entry : WorklistEntry T) : T × Location × Int := (entry.time, entry.location, entry.diff)

theorem key_injective : Function.Injective (key : WorklistEntry T → T × Location × Int) := by
  intro first second same
  cases first
  cases second
  simpa [key] using same

instance [TotalOrd T] : TotalOrd (WorklistEntry T) := TotalOrd.ofKey key key_injective

end WorklistEntry

/-- A port has direct counts, propagated counts and the two flags of zero tracking. -/
structure PortInformation (T : Type) [TimeOrder T] where
  pointstamps : MutableAntichain T
  implications : MutableAntichain T
  nonzero : Bool
  counted : Bool

def PortInformation.new {T : Type} [TimeOrder T] : PortInformation T where
  pointstamps := MutableAntichain.new
  implications := MutableAntichain.new
  nonzero := false
  counted := true

/-- These are the tables that `build` computes once for a tracker. -/
structure Topology (S : Type) [PathSummary S] where
  locations : List Location
  targetSummaries : Nat → Nat → List (Location × Antichain S)
  sourceSummaries : Nat → Nat → List (Location × Antichain S)
  exports : Location → List (Nat × Antichain S)
  scopeOutputs : Nat

/-- The live state of a tracker over fixed tables. -/
structure Tracker (T : Type) {S : Type} [PathSummary S] [Timestamp T S] (topology : Topology S) where
  ports : Location → PortInformation T
  pending : Location → ChangeBatch T
  worklist : List (WorklistEntry T)
  pushedChanges : ChangeBatch (Location × T)
  outputChanges : Nat → ChangeBatch T
  totalCounts : Int
  nonzeroCounted : Nat
  exportChanges : Nat → ChangeBatch T

section Topology

variable {T S : Type} [PathSummary S] [Timestamp T S]

/-- The places and times that a frontier time leads to in one hop; edges keep the time. -/
def Topology.forward (topology : Topology S) : Location → T → List (Location × T)
  | .target node port, time =>
    (topology.targetSummaries node port).flatMap fun path =>
      path.2.elements.filterMap fun summary => (resultsIn summary time).map fun result => (path.1, result)
  | .source node port, time =>
    (topology.sourceSummaries node port).map fun path => (path.1, time)

/-- The scope outputs and times that a frontier time is exported to. -/
def Topology.exported (topology : Topology S) (location : Location) (time : T) : List (Nat × T) :=
  (topology.exports location).flatMap fun path =>
    path.2.elements.filterMap fun summary => (resultsIn summary time).map fun result => (path.1, result)

end Topology

namespace Tracker

variable {T S : Type} [PathSummary S] [Timestamp T S] {topology : Topology S}

def new : Tracker T topology where
  ports _ := PortInformation.new
  pending _ := ChangeBatch.new
  worklist := []
  pushedChanges := ChangeBatch.new
  outputChanges _ := ChangeBatch.new
  totalCounts := 0
  nonzeroCounted := 0
  exportChanges _ := ChangeBatch.new

variable (tracker : Tracker T topology)

/-- A change at a port that does not exist panics, which has no result. -/
def post (location : Location) (time : T) (diff : Int) : Option (Tracker T topology) :=
  if location ∈ topology.locations then
    some { tracker with
      pending := Function.update tracker.pending location ((tracker.pending location).update time diff) }
  else none

def updateTarget (node port : Nat) (time : T) (diff : Int) :
    Option (Tracker T topology) := tracker.post (.target node port) time diff

def updateSource (node port : Nat) (time : T) (diff : Int) :
    Option (Tracker T topology) := tracker.post (.source node port) time diff

/-- The heap is a sorted list, because entries that compare equal are equal. -/
def push (worklist : List (WorklistEntry T)) (entries : List (WorklistEntry T)) : List (WorklistEntry T) :=
  entries.foldl (fun heap entry => heap.orderedInsert ordLe entry) worklist

/-- The flag of a port follows its counts, and the counter follows the flags of counted ports. -/
def refreshNonzero (info : PortInformation T) (nonzeroCounted : Nat) : PortInformation T × Nat :=
  let zero := info.pointstamps.isZero
  let nonzero := !zero.1
  ({ info with pointstamps := zero.2, nonzero := nonzero },
    if nonzero ≠ info.nonzero ∧ info.counted = true then
      if nonzero then nonzeroCounted + 1 else nonzeroCounted - 1
    else nonzeroCounted)

/-- Each frontier change is carried along the export table of its location. -/
def recordExports (topology : Topology S) (location : Location) (exportChanges : Nat → ChangeBatch T) (changes : List (T × Int)) :
    Nat → ChangeBatch T :=
  changes.foldl (fun current change =>
    (topology.exported location change.1).foldl
      (fun batches exported => Function.update batches exported.1 ((batches exported.1).update exported.2 change.2))
      current) exportChanges

/-- The posted batch of one port goes to its pointstamps, and the frontier changes go to the worklist. -/
def drainPort (location : Location) : Tracker T topology :=
  if (tracker.pending location).isEmptyClean then tracker
  else
    let drained := (tracker.pending location).drain
    let info := tracker.ports location
    let updated := info.pointstamps.updateIter drained.1
    let refreshed := refreshNonzero { info with pointstamps := updated.1 } tracker.nonzeroCounted
    { tracker with
      pending := Function.update tracker.pending location drained.2
      ports := Function.update tracker.ports location refreshed.1
      nonzeroCounted := refreshed.2
      totalCounts := updated.2.foldl (fun total change => total + change.2) tracker.totalCounts
      exportChanges := recordExports topology location tracker.exportChanges updated.2
      worklist := push tracker.worklist (updated.2.map fun change => ⟨change.1, location, change.2⟩) }

/-- The drain visits the ports node by node, inputs before outputs. -/
def drainPendingChanges : Tracker T topology :=
  topology.locations.foldl drainPort tracker

/-- An implication change updates one port and pushes its frontier changes one hop further. -/
def propagateAt (location : Location) (time : T) (diff : Int) : Tracker T topology :=
  let info := tracker.ports location
  let updated := info.implications.updateIter [(time, diff)]
  { tracker with
    ports := Function.update tracker.ports location { info with implications := updated.1 }
    pushedChanges := updated.2.foldl (fun batch change => batch.update (location, change.1) change.2)
      tracker.pushedChanges
    outputChanges :=
      match location with
      | .target 0 port =>
        if port < topology.scopeOutputs then
          Function.update tracker.outputChanges port
            (updated.2.foldl (fun batch change => batch.update change.1 change.2) (tracker.outputChanges port))
        else tracker.outputChanges
      | _ => tracker.outputChanges
    worklist := push tracker.worklist (updated.2.flatMap fun change =>
      (topology.forward location change.1).map fun hop => ⟨hop.2, hop.1, change.2⟩) }

def propagateTarget (node port : Nat) (time : T) (diff : Int) :
    Tracker T topology := tracker.propagateAt (.target node port) time diff

def propagateSource (node port : Nat) (time : T) (diff : Int) :
    Tracker T topology := tracker.propagateAt (.source node port) time diff

/-- The entries of the same time and location at the top of the heap are added up. -/
def accumulate (time : T) (location : Location) :
    Int → List (WorklistEntry T) → Int × List (WorklistEntry T)
  | diff, [] => (diff, [])
  | diff, entry :: rest =>
    if entry.time = time ∧ entry.location = location then accumulate time location (diff + entry.diff) rest
    else (diff, entry :: rest)

/-- One round of the loop takes the smallest time and location off the worklist. -/
def propagateStep : Option (Tracker T topology) :=
  match tracker.worklist with
  | [] => none
  | entry :: rest =>
    let total := accumulate entry.time entry.location entry.diff rest
    let popped := { tracker with worklist := total.2 }
    if total.1 = 0 then some popped
    else
      match entry.location with
      | .target node port => some (popped.propagateTarget node port entry.time total.1)
      | .source node port => some (popped.propagateSource node port entry.time total.1)

def applyPending : Tracker T topology := tracker.drainPendingChanges

def propagateWorklist (fuel : Nat) (tracker : Tracker T topology) : Option (Tracker T topology) :=
  loop propagateStep fuel tracker

def propagateAll (fuel : Nat) (tracker : Tracker T topology) : Option (Tracker T topology) :=
  tracker.drainPendingChanges.propagateWorklist fuel

/-- The recorded export changes of one scope output are taken out. -/
def drainExportChanges (output : Nat) : List (T × Int) × Tracker T topology :=
  ((tracker.exportChanges output).drain.1,
    { tracker with
      exportChanges := Function.update tracker.exportChanges output (tracker.exportChanges output).drain.2 })

/-- The ports at which `counted` holds are the ones that zero tracking looks at. -/
def setCounted (counted : Location → Bool) : Tracker T topology :=
  { tracker with
    ports := fun location =>
      if location ∈ topology.locations then { tracker.ports location with counted := counted location }
      else tracker.ports location
    nonzeroCounted :=
      (topology.locations.filter fun location => counted location && (tracker.ports location).nonzero).length }

def targetFrontier (node port : Nat) : List T :=
  (tracker.ports (.target node port)).implications.frontier

def sourceFrontier (node port : Nat) : List T :=
  (tracker.ports (.source node port)).implications.frontier

/-- The frontier at a location of either kind. -/
def frontierAt : Location → List T
  | .target node port => tracker.targetFrontier node port
  | .source node port => tracker.sourceFrontier node port

end Tracker

/-- The tracker of a builder, its tables and the scope summary. -/
structure Built (T S : Type) [PathSummary S] [Timestamp T S] where
  topology : Topology S
  tracker : Tracker T topology
  summary : PortConnectivity S

namespace Builder

variable {T S : Type} [PathSummary S] [Timestamp T S]

def topology (builder : Builder S) (tables : PathTables S) : Topology S where
  locations := builder.locations
  targetSummaries := builder.targetSummaries
  sourceSummaries := builder.sourceSummaries
  exports := builder.exportTable tables
  scopeOutputs := builder.scopeOutputs

def build (builder : Builder S) (fuel : Nat) : Option (Built T S) :=
  (builder.backwardTables fuel).map fun tables =>
    { topology := builder.topology tables
      tracker := Tracker.new
      summary := builder.scopeSummary tables }

end Builder

end Instancy
