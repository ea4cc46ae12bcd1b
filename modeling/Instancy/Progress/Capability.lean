import Instancy.Progress.Operate

/-
This file models `capability.rs`: capabilities, sets of capabilities and their calls, one call of the reporter at a time.
-/

namespace Instancy

open Library

/-- The errors of a request that no held capability allows; the times are debug texts. -/
inductive CapabilityError where
  | timeNotAdvanced (old new : String)
  | noDominatingCapability (time : String)
  deriving DecidableEq, Repr

/-- The pending changes go to the batch of the caller. -/
def ProgressReporter.drainInto {T : Type} [TimeOrder T] (reporter : ProgressReporter T) (target : ChangeBatch T) :
    ChangeBatch T × ProgressReporter T :=
  let moved := reporter.pending.drainInto target
  (moved.1, { reporter with pending := moved.2 })

/-- A permit to produce data at a time; all capabilities here share one reporter. -/
structure Capability (T : Type) where
  time : T
  deriving DecidableEq, Repr

namespace Capability

variable {T : Type} [TimeOrder T]

def new (time : T) (reporter : ProgressReporter T) : Capability T × ProgressReporter T :=
  (⟨time⟩, reporter.update time 1)

/-- An initial capability is held from the start and not reported. -/
def seeded (time : T) (reporter : ProgressReporter T) : Capability T × ProgressReporter T :=
  (⟨time⟩, reporter.seedHeld time 1)

def clone (capability : Capability T) (reporter : ProgressReporter T) : Capability T × ProgressReporter T :=
  new capability.time reporter

/-- This is the drop of a capability. -/
def drop (capability : Capability T) (reporter : ProgressReporter T) : ProgressReporter T :=
  reporter.release capability.time

variable [ToString T]

def delayed (capability : Capability T) (newTime : T) (reporter : ProgressReporter T) :
    Except CapabilityError (Capability T × ProgressReporter T) :=
  if capability.time ≤ newTime then .ok (new newTime reporter)
  else .error (.timeNotAdvanced (toString capability.time) (toString newTime))

def downgrade (capability : Capability T) (newTime : T) (reporter : ProgressReporter T) :
    Except CapabilityError (Capability T × ProgressReporter T) :=
  if capability.time ≤ newTime then .ok (⟨newTime⟩, reporter.downgrade capability.time newTime)
  else .error (.timeNotAdvanced (toString capability.time) (toString newTime))

end Capability

/-- Where the current call of a `CapabilitySet` is; the capabilities that a downgrade still has to insert come last.
Between two states there is at most one call of the reporter. -/
inductive SetPhase (T : Type) where
  | idle (elements : List (Capability T))
  | refusing (elements : List (Capability T)) (refused : Capability T) (later : List (Capability T))
  | retaining (kept rest : List (Capability T)) (inserted : Capability T) (later : List (Capability T))
  | creating (elements made : List (Capability T)) (times : List T)
  | clearing (elements made : List (Capability T))

namespace SetPhase

variable {T : Type} [TimeOrder T]

/-- An insertion begins with the test whether the set already covers the time. -/
def insert (elements : List (Capability T)) (inserted : Capability T) (later : List (Capability T)) : SetPhase T :=
  if elements.any fun element => element.time ≤ inserted.time then refusing elements inserted later
  else retaining [] elements inserted later

/-- The next of the new capabilities of a downgrade is inserted. -/
def insertNext (elements : List (Capability T)) : List (Capability T) → SetPhase T
  | [] => idle elements
  | inserted :: later => insert elements inserted later

variable [ToString T]

/-- The call goes on. A time that no capability of the set covers would be a panic of `expect`, which has no result. -/
def advance (reporter : ProgressReporter T) : SetPhase T → Option (SetPhase T × ProgressReporter T)
  | idle _ => none
  | refusing elements refused later => some (insertNext elements later, refused.drop reporter)
  | retaining kept [] inserted later => some (insertNext (kept ++ [inserted]) later, reporter)
  | retaining kept (first :: rest) inserted later =>
    if inserted.time ≤ first.time then some (retaining kept rest inserted later, first.drop reporter)
    else some (retaining (kept ++ [first]) rest inserted later, reporter)
  | creating elements made [] => some (clearing elements made, reporter)
  | creating elements made (time :: times) =>
    match elements.find? fun element => element.time ≤ time with
    | none => none
    | some found =>
      match found.delayed time reporter with
      | .error _ => none
      | .ok (capability, next) => some (creating elements (made ++ [capability]) times, next)
  | clearing [] made => some (insertNext [] made, reporter)
  | clearing (first :: rest) made => some (clearing rest made, first.drop reporter)

/-- The validation of a downgrade finds the first time that the set does not cover. -/
def downgrade (elements : List (Capability T)) (times : List T) : Except CapabilityError (SetPhase T) :=
  match times.find? fun time => !elements.any fun element => element.time ≤ time with
  | some time => .error (.noDominatingCapability (toString time))
  | none => .ok (creating elements [] times)

end SetPhase

/-- The last call of a set with the times it was made with. The code keeps no such record; it is for statements only. -/
inductive SetCall (T : Type) where
  | insert (old : List T) (time : T)
  | downgrade (given : List T)
  | drop

structure SetState (T : Type) where
  last : Option (SetCall T)
  phase : SetPhase T

/-- One reporter with its live capabilities. `collected` is the batch that `drain_into` fills; the drained changes and the
seeded times are kept for statements only. -/
structure CapabilityWorld (T : Type) [TimeOrder T] where
  reporter : ProgressReporter T
  loose : List (Capability T)
  sets : List (SetState T)
  collected : ChangeBatch T
  drained : List (T × Int)
  seeded : List T

/-- What the threads can do next: an index names a capability outside of the sets, or a set. -/
inductive CapabilityAction (T : Type) where
  | seeded (time : T)
  | new (time : T)
  | clone (index : Nat)
  | delayed (index : Nat) (time : T)
  | downgrade (index : Nat) (time : T)
  | drop (index : Nat)
  | newSet
  | setInsert (set index : Nat)
  | setDelayed (set : Nat) (time : T)
  | setDowngrade (set : Nat) (times : List T)
  | setDrop (set : Nat)
  | setAdvance (set : Nat)
  | drain
  | drainInto

namespace CapabilityWorld

variable {T : Type} [TimeOrder T]

def init : CapabilityWorld T := ⟨ProgressReporter.new, [], [], ChangeBatch.new, [], []⟩

/-- A new capability joins those outside of the sets. -/
def keep (world : CapabilityWorld T) (made : Capability T × ProgressReporter T) : CapabilityWorld T :=
  { world with reporter := made.2, loose := made.1 :: world.loose }

/-- The elements of a set that no call is working on. -/
def idleSet (world : CapabilityWorld T) (set : Nat) : Option (List (Capability T)) :=
  (world.sets[set]?).bind fun state =>
    match state.phase with
    | .idle elements => some elements
    | _ => none

def setPhase (world : CapabilityWorld T) (set : Nat) (last : Option (SetCall T)) (phase : SetPhase T) :
    CapabilityWorld T :=
  { world with sets := world.sets.set set ⟨last, phase⟩ }

variable [ToString T]

/-- The fallible requests that make a capability: a failure leaves everything as it is. -/
def request (world : CapabilityWorld T) :
    Except CapabilityError (Capability T × ProgressReporter T) → Except CapabilityError Unit × CapabilityWorld T
  | .error error => (.error error, world)
  | .ok made => (.ok (), world.keep made)

/-- One atomic step; an action that names nothing, or a set with a running call, is not possible. -/
def step (world : CapabilityWorld T) : CapabilityAction T → Option (Except CapabilityError Unit × CapabilityWorld T)
  | .seeded time =>
    some (.ok (), { world.keep (Capability.seeded time world.reporter) with seeded := time :: world.seeded })
  | .new time => some (.ok (), world.keep (Capability.new time world.reporter))
  | .clone index => (world.loose[index]?).map fun capability => (.ok (), world.keep (capability.clone world.reporter))
  | .delayed index time =>
    (world.loose[index]?).map fun capability => world.request (capability.delayed time world.reporter)
  | .downgrade index time =>
    (world.loose[index]?).map fun capability =>
      match capability.downgrade time world.reporter with
      | .error error => (.error error, world)
      | .ok (moved, reporter) => (.ok (), { world with reporter := reporter, loose := world.loose.set index moved })
  | .drop index =>
    (world.loose[index]?).map fun capability =>
      (.ok (), { world with reporter := capability.drop world.reporter, loose := world.loose.eraseIdx index })
  | .newSet => some (.ok (), { world with sets := world.sets ++ [⟨none, .idle []⟩] })
  | .setInsert set index =>
    (world.idleSet set).bind fun elements =>
      (world.loose[index]?).map fun capability =>
        (.ok (), { world with loose := world.loose.eraseIdx index }.setPhase set
          (some (.insert (elements.map Capability.time) capability.time)) (.insert elements capability []))
  | .setDelayed set time =>
    (world.idleSet set).map fun elements =>
      match elements.find? fun element => element.time ≤ time with
      | none => (.error (.noDominatingCapability (toString time)), world)
      | some found => world.request (found.delayed time world.reporter)
  | .setDowngrade set times =>
    (world.idleSet set).map fun elements =>
      match SetPhase.downgrade elements times with
      | .error error => (.error error, world)
      | .ok phase => (.ok (), world.setPhase set (some (.downgrade times)) phase)
  | .setDrop set =>
    (world.idleSet set).map fun elements => (.ok (), world.setPhase set (some .drop) (.clearing elements []))
  | .setAdvance set =>
    (world.sets[set]?).bind fun state =>
      (state.phase.advance world.reporter).map fun moved =>
        (.ok (), { world with reporter := moved.2 }.setPhase set state.last moved.1)
  | .drain =>
    some (.ok (), { world with
      reporter := world.reporter.drain.2, drained := world.drained ++ world.reporter.drain.1 })
  | .drainInto =>
    let moved := world.reporter.drainInto world.collected
    some (.ok (), { world with reporter := moved.2, collected := moved.1 })

/-- The actions happen one after the other, in any order; one that is not possible does nothing. -/
def run (actions : List (CapabilityAction T)) : CapabilityWorld T :=
  actions.foldl (fun world action => ((world.step action).map Prod.snd).getD world) init

end CapabilityWorld

end Instancy
