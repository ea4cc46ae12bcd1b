import Instancy.Progress.FrameRoundTrip
import Instancy.Progress.Subgraph.Refinement

namespace Instancy

variable {P : TimeType}

/-- This is `apply_changes`: each change is posted at its port. -/
def Tracker.applyChanges {T S : Type} [UnsignedSummary S] [UnsignedTimestamp T S] {topology : Topology S}
    (tracker : Tracker T topology) (changes : List (ProgressChange T)) : Option (Tracker T topology) :=
  changes.foldlM (fun current change =>
    match change.kind with
    | .source => current.updateSource change.node change.port change.time change.diff
    | .target => current.updateTarget change.node change.port change.time change.diff) tracker

namespace LoopScopes

/-- The places of the loops in the tree. -/
def Place : {P : TimeType} → LoopScopes P → Type
  | _, .nil => Empty
  | _, .cons _ _ _ children rest => (Unit ⊕ children.Place) ⊕ rest.Place

/-- The time of the loop at a place. -/
def timeAt : {P : TimeType} → (loops : LoopScopes P) → loops.Place → TimeType
  | P, .cons inner _ _ children rest, place =>
    match (place : (Unit ⊕ children.Place) ⊕ rest.Place) with
    | .inl (.inl _) => P.product inner
    | .inl (.inr nested) => children.timeAt nested
    | .inr other => rest.timeAt other

/-- The loops are searched in order, each before its own loops. -/
def findPlace : {P : TimeType} → (loops : LoopScopes P) → Nat → Option loops.Place
  | _, .nil, _ => none
  | _, .cons _ _ scope children rest, id =>
    if id = scope.scopeId then some (.inl (.inl ()))
    else ((children.findPlace id).map fun nested => Sum.inl (Sum.inr nested)).or
      ((rest.findPlace id).map Sum.inr)

/-- A pointstamp of the loop at a place. -/
def pointAt : {P : TimeType} → (loops : LoopScopes P) → (place : loops.Place) →
    Pointstamp (loops.timeAt place).T → loops.Point
  | _, .cons _ _ _ children rest, place, own =>
    match (place : (Unit ⊕ children.Place) ⊕ rest.Place), own with
    | .inl (.inl _), own => .inl (.inl own)
    | .inl (.inr nested), own => .inl (.inr (children.pointAt nested own))
    | .inr other, own => .inr (rest.pointAt other own)

/-- The changes of a section go to the tracker of the loop at its place. -/
def applyAt : {P : TimeType} → (loops : LoopScopes P) → loops.States → (place : loops.Place) →
    List (ProgressChange (loops.timeAt place).T) → Option loops.States
  | _, .cons _ _ scope children rest, state, place, changes =>
    match (state : (LoopState scope × children.States) × rest.States),
      (place : (Unit ⊕ children.Place) ⊕ rest.Place), changes with
    | ((loop, states), others), .inl (.inl _), changes =>
      (loop.tracker.applyChanges changes).map fun tracker => ((⟨tracker, loop.imported⟩, states), others)
    | ((loop, states), others), .inl (.inr nested), changes =>
      (children.applyAt states nested changes).map fun inside => ((loop, inside), others)
    | (first, others), .inr other, changes =>
      (rest.applyAt others other changes).map fun outside => (first, outside)

/-- The time of a loop that was searched; a loop that was not found has no changes of its own. -/
def TimeIn (loops : LoopScopes P) : Option loops.Place → Type
  | none => Unit
  | some place => (loops.timeAt place).T

/-- A section is applied if its loop was found, and the result says whether it was. -/
def applySection (loops : LoopScopes P) (states : loops.States) :
    (found : Option loops.Place) → List (ProgressChange (loops.TimeIn found)) → Option (loops.States × Bool)
  | none, _ => some (states, false)
  | some place, changes => (loops.applyAt states place changes).map fun next => (next, true)

/-- The point and the diff of a change of a loop that was searched. -/
def entryIn (loops : LoopScopes P) :
    (found : Option loops.Place) → ProgressChange (loops.TimeIn found) → Option (loops.Point × Int)
  | none, _ => none
  | some place, change => some (loops.pointAt place ⟨change.location, change.time⟩, change.diff)

end LoopScopes

section Graph

/-- The time of the scope with an id; the root has the id zero. -/
def ProgressGraph.Time (graph : ProgressGraph P) : Nat → Type
  | 0 => P.T
  | id + 1 => graph.loops.TimeIn (graph.loops.findPlace (id + 1))

/-- The point and the diff of a change; a change of an unknown scope has none. -/
def ProgressGraph.entry (graph : ProgressGraph P) : ScopedChange graph.Time → Option (graph.Point × Int)
  | ⟨0, change⟩ =>
    let own : ProgressChange P.T := change
    some (.inl ⟨own.location, own.time⟩, own.diff)
  | ⟨id + 1, change⟩ =>
    (graph.loops.entryIn (graph.loops.findPlace (id + 1)) change).map fun found => (.inr found.1, found.2)

namespace ProgressTracker

variable {graph : ProgressGraph P}

def applyChanges (state : ProgressTracker graph) (changes : List (ProgressChange (graph.Time 0))) :
    Option (ProgressTracker graph) :=
  (state.tracker.applyChanges (show List (ProgressChange P.T) from changes)).map fun tracker => ⟨tracker, state.children⟩

/-- This is `apply_section` of the root scope. -/
def applySection (state : ProgressTracker graph) :
    (scope : Nat) → List (ProgressChange (graph.Time scope)) → Option (ProgressTracker graph × Bool)
  | 0, changes => (state.applyChanges changes).map fun next => (next, true)
  | id + 1, changes =>
    (graph.loops.applySection state.children (graph.loops.findPlace (id + 1)) changes).map fun result =>
      (⟨state.tracker, result.1⟩, result.2)

/-- The sections are applied in order, and a section that no scope takes is an error. -/
def applySections (state : ProgressTracker graph) :
    List ((scope : Nat) × List (ProgressChange (graph.Time scope))) →
      Option (Except DataflowError (ProgressTracker graph))
  | [] => some (.ok state)
  | part :: rest =>
    (state.applySection part.1 part.2).bind fun result =>
      if result.2 then result.1.applySections rest
      else
        let scope := part.1
        some (.error (.invalidGraph
          s!"a peer sent progress for scope {scope}, which this worker does not have"))

/-- One batch of a peer: the root changes first, then the sections. -/
def applyBatch (state : ProgressTracker graph) (batch : ProgressBatch graph.Time) :
    Option (Except DataflowError (ProgressTracker graph)) :=
  (state.applyChanges batch.root).bind fun rooted => rooted.applySections batch.scopes

/-- This is the loop of `receive_peer_changes` over the drained batches. -/
def receivePeerChanges : List (ProgressBatch graph.Time) → ProgressTracker graph →
    Option (Except DataflowError (ProgressTracker graph))
  | [], state => some (.ok state)
  | batch :: rest, state => attempt (state.applyBatch batch) (receivePeerChanges rest)

end ProgressTracker

end Graph

section Entries

/-- A fold that works on a part of the state is the fold on that part. -/
theorem foldlM_embed {A B C : Type} {small : A → C → Option A} {large : B → C → Option B} (embed : A → B)
    (step : ∀ part item, large (embed part) item = (small part item).map embed) (items : List C) (part : A) :
    items.foldlM large (embed part) = (items.foldlM small part).map embed := by
  induction items generalizing part with
  | nil => rfl
  | cons item rest ih =>
    rw [List.foldlM_cons, List.foldlM_cons, step]
    cases small part item with
    | none => rfl
    | some next => exact ih next

theorem Tracker.applyChanges_eq {T S : Type} [UnsignedSummary S] [UnsignedTimestamp T S] {topology : Topology S}
    (tracker : Tracker T topology) (changes : List (ProgressChange T)) :
    tracker.applyChanges changes =
      changes.foldlM (fun current change => current.post change.location change.time change.diff) tracker := by
  unfold applyChanges
  congr 1
  funext current change
  cases kind : change.kind <;> simp only [ProgressChange.location, kind] <;> rfl

/-- A section is applied change by change at the points of its loop. -/
theorem LoopScopes.applyAt_eq (loops : LoopScopes P) : ∀ (states : loops.States) (place : loops.Place)
    (changes : List (ProgressChange (loops.timeAt place).T)),
    loops.applyAt states place changes = changes.foldlM (fun current change =>
      loops.post current (loops.pointAt place ⟨change.location, change.time⟩) change.diff) states := by
  induction loops with
  | nil => exact fun _ place => place.elim
  | cons inner node scope children rest ihChildren ihRest =>
    intro state place changes
    obtain ⟨⟨loop, states⟩, others⟩ := state
    rcases place with (_ | nested) | other
    · exact (congrArg (Option.map _) (loop.tracker.applyChanges_eq changes)).trans
        (foldlM_embed (fun tracker => ((LoopState.mk tracker loop.imported, states), others)) (fun _ _ => rfl) changes
          loop.tracker).symm
    · exact (congrArg (Option.map _) (ihChildren states nested changes)).trans
        (foldlM_embed (fun inside => ((loop, inside), others)) (fun _ _ => rfl) changes states).symm
    · exact (congrArg (Option.map _) (ihRest others other changes)).trans
        (foldlM_embed (fun outside => ((loop, states), outside)) (fun _ _ => rfl) changes others).symm

/-- A section of a loop that was found is applied entry by entry. -/
theorem LoopScopes.applySection_eq (loops : LoopScopes P) (states : loops.States) :
    ∀ (found : Option loops.Place) (changes : List (ProgressChange (loops.TimeIn found))), found.isSome →
      loops.applySection states found changes =
        ((changes.filterMap (loops.entryIn found)).foldlM (fun current entry => loops.post current entry.1 entry.2)
          states).map fun next => (next, true)
  | none, _, known => absurd known Bool.false_ne_true
  | some place, changes, _ => by
    apply congrArg (Option.map _)
    rw [loops.applyAt_eq states place changes]
    have entries : changes.filterMap (loops.entryIn (some place)) =
        changes.map fun change => (loops.pointAt place ⟨change.location, change.time⟩, change.diff) :=
      congrFun List.filterMap_eq_map changes
    rw [entries, List.foldlM_map]
    rfl

variable {graph : ProgressGraph P}

/-- The scope is the root or one of the loops. -/
def ProgressGraph.Knows (graph : ProgressGraph P) : Nat → Prop
  | 0 => True
  | id + 1 => (graph.loops.findPlace (id + 1)).isSome

/-- The entries of all changes of a batch. -/
def ProgressGraph.entries (graph : ProgressGraph P) (batch : ProgressBatch graph.Time) : List (graph.Point × Int) :=
  batch.changes.filterMap graph.entry

/-- A batch of a worker with the same graph: every section has a scope, and every change is at a raw port. -/
structure ProgressGraph.Admits (graph : ProgressGraph P) (batch : ProgressBatch graph.Time) : Prop where
  known : ∀ part ∈ batch.scopes, graph.Knows part.1
  raw : ∀ entry ∈ graph.entries batch, graph.IsRaw entry.1 ∧ graph.Registered entry.1

variable {batch : ProgressBatch graph.Time}

namespace ProgressTracker

/-- Changes are posted one after the other at their points. -/
def postAll (state : ProgressTracker graph) (entries : List (graph.Point × Int)) : Option (ProgressTracker graph) :=
  entries.foldlM (fun current entry => current.post entry.1 entry.2) state

variable (state : ProgressTracker graph)

theorem postAll_append (first second : List (graph.Point × Int)) :
    state.postAll (first ++ second) = (state.postAll first).bind fun next => next.postAll second :=
  List.foldlM_append

/-- The entries of the changes of one scope. -/
def entriesOf (scope : Nat) (changes : List (ProgressChange (graph.Time scope))) : List (graph.Point × Int) :=
  changes.filterMap fun change => graph.entry ⟨scope, change⟩

theorem applyChanges_eq (changes : List (ProgressChange (graph.Time 0))) :
    state.applyChanges changes = state.postAll (entriesOf 0 changes) := by
  have entries : entriesOf 0 changes = (show List (ProgressChange P.T) from changes).map fun change =>
      ((.inl ⟨change.location, change.time⟩, change.diff) : graph.Point × Int) :=
    congrFun List.filterMap_eq_map _
  rw [entries]
  unfold applyChanges postAll
  rw [Tracker.applyChanges_eq, List.foldlM_map]
  exact (foldlM_embed (fun tracker => ProgressTracker.mk tracker state.children) (fun _ _ => rfl) _
    state.tracker).symm

theorem applySection_eq {scope : Nat} (known : graph.Knows scope) (changes : List (ProgressChange (graph.Time scope))) :
    state.applySection scope changes = (state.postAll (entriesOf scope changes)).map fun next => (next, true) := by
  cases scope with
  | zero => exact congrArg (Option.map _) (state.applyChanges_eq changes)
  | succ id =>
    have applied := graph.loops.applySection_eq state.children (graph.loops.findPlace (id + 1)) changes known
    have entries : entriesOf (id + 1) changes =
        (changes.filterMap (graph.loops.entryIn (graph.loops.findPlace (id + 1)))).map
          fun found => ((.inr found.1, found.2) : graph.Point × Int) :=
      (List.map_filterMap).symm
    have posted : state.postAll (entriesOf (id + 1) changes) =
        ((changes.filterMap (graph.loops.entryIn (graph.loops.findPlace (id + 1)))).foldlM
          (fun current entry => graph.loops.post current entry.1 entry.2) state.children).map
            fun children => ⟨state.tracker, children⟩ := by
      rw [entries]
      unfold postAll
      rw [List.foldlM_map]
      exact foldlM_embed (fun children => ProgressTracker.mk state.tracker children) (fun _ _ => rfl) _ state.children
    rw [posted, Option.map_map]
    refine (congrArg (Option.map _) applied).trans ?_
    rw [Option.map_map]
    rfl

/-- The sections of known scopes are applied entry by entry. -/
theorem applySections_eq (parts : List ((scope : Nat) × List (ProgressChange (graph.Time scope)))) :
    ∀ state : ProgressTracker graph, (∀ part ∈ parts, graph.Knows part.1) →
      state.applySections parts =
        (state.postAll (parts.flatMap fun part => entriesOf part.1 part.2)).map Except.ok := by
  induction parts with
  | nil => exact fun _ _ => rfl
  | cons part rest ih =>
    intro state known
    rw [applySections, applySection_eq state (known part List.mem_cons_self), List.flatMap_cons, postAll_append]
    cases state.postAll (entriesOf part.1 part.2) with
    | none => rfl
    | some next => exact ih next fun other member => known other (List.mem_cons_of_mem part member)

theorem applyBatch_eq (known : ∀ part ∈ batch.scopes, graph.Knows part.1) :
    state.applyBatch batch = (state.postAll (graph.entries batch)).map Except.ok := by
  have split : graph.entries batch =
      entriesOf 0 batch.root ++ batch.scopes.flatMap fun part => entriesOf part.1 part.2 := by
    unfold ProgressGraph.entries ProgressBatch.changes entriesOf
    rw [List.filterMap_append, List.filterMap_map, List.filterMap_flatMap]
    simp only [List.filterMap_map]
    rfl
  rw [split, postAll_append]
  unfold applyBatch
  rw [applyChanges_eq]
  cases state.postAll (entriesOf 0 batch.root) with
  | none => rfl
  | some next => exact applySections_eq batch.scopes next known

/-- Raw changes keep the state idle and add up. -/
theorem postAll_spec (entries : List (graph.Point × Int)) : ∀ state : ProgressTracker graph, state.Idle →
    (∀ entry ∈ entries, graph.IsRaw entry.1 ∧ graph.Registered entry.1) →
    ∃ next, state.postAll entries = some next ∧ next.Idle ∧
      ∀ point, next.count point = netOf entries point + state.count point := by
  induction entries with
  | nil => exact fun state idle _ => ⟨state, rfl, idle, fun _ => (Int.zero_add _).symm⟩
  | cons entry rest ih =>
    intro state idle raw
    obtain ⟨isRaw, registered⟩ := raw entry List.mem_cons_self
    obtain ⟨middle, posted, idleMiddle, middleCount⟩ := post_spec idle isRaw registered entry.2
    obtain ⟨last, done, idleLast, lastCount⟩ :=
      ih middle idleMiddle fun other member => raw other (List.mem_cons_of_mem entry member)
    refine ⟨last, ?_, idleLast, fun point => ?_⟩
    · unfold postAll
      rw [List.foldlM_cons, posted]
      exact done
    · rw [lastCount, middleCount, netOf_cons, netOf_cons, netOf_nil]
      dsimp only
      omega

/-- A batch of a peer adds its net changes to the counts. -/
theorem applyBatch_spec {state : ProgressTracker graph} (idle : state.Idle) (admits : graph.Admits batch) :
    ∃ next, state.applyBatch batch = some (.ok next) ∧ next.Idle ∧
      ∀ point, next.count point = netOf (graph.entries batch) point + state.count point := by
  obtain ⟨next, posted, idleNext, counts⟩ := postAll_spec (graph.entries batch) state idle admits.raw
  exact ⟨next, by rw [applyBatch_eq state admits.known, posted]; rfl, idleNext, counts⟩

end ProgressTracker

end Entries

end Instancy
