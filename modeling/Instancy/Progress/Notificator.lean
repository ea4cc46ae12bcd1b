import Instancy.Progress.Antichain

namespace Instancy

section OrderedSet

variable {T : Type} [TotalOrd T]

/-- A `BTreeSet` holds each element once, in the order of `Ord`. -/
structure OrderedSet (T : Type) [TotalOrd T] where
  elements : List T
  sorted : elements.Pairwise OrdLt

namespace OrderedSet

def empty : OrderedSet T := ⟨[], List.Pairwise.nil⟩

def contains (set : OrderedSet T) (element : T) : Bool := decide (element ∈ set.elements)

theorem orderedInsert_sorted {element : T} {elements : List T} (fresh : element ∉ elements)
    (sorted : elements.Pairwise OrdLt) : (elements.orderedInsert ordLe element).Pairwise OrdLt := by
  have ordered : (elements.orderedInsert ordLe element).Pairwise ordLe :=
    (sorted.imp fun below => below.1).orderedInsert element elements
  have distinct : (elements.orderedInsert ordLe element).Nodup := by
    rw [(List.perm_orderedInsert ordLe element elements).nodup_iff, List.nodup_cons]
    exact ⟨fresh, sorted.imp fun below => below.2⟩
  exact ordered.imp₂ (fun _ _ below apart => ⟨below, apart⟩) distinct

def insert (set : OrderedSet T) (element : T) : OrderedSet T :=
  if member : element ∈ set.elements then set
  else ⟨set.elements.orderedInsert ordLe element, orderedInsert_sorted member set.sorted⟩

/-- The first element is the least one. -/
def popFirst (set : OrderedSet T) : Option (T × OrderedSet T) :=
  match shape : set.elements with
  | [] => none
  | first :: rest => some (first, ⟨rest, (List.pairwise_cons.mp (shape ▸ set.sorted)).2⟩)

/-- The elements that the test refuses leave the set. -/
def retain (set : OrderedSet T) (keep : T → Bool) : OrderedSet T := ⟨set.elements.filter keep, set.sorted.filter keep⟩

def extend (set : OrderedSet T) (elements : List T) : OrderedSet T := elements.foldl insert set

def remove (set : OrderedSet T) (element : T) : OrderedSet T := set.retain fun other => other ≠ element

section

variable (set : OrderedSet T)
include set

theorem nodup : set.elements.Nodup := set.sorted.imp fun below => below.2

@[simp] theorem contains_iff (element : T) :
    set.contains element = true ↔ element ∈ set.elements := decide_eq_true_iff

theorem insert_of_contains {element : T} (held : set.contains element = true) : set.insert element = set :=
  dif_pos ((set.contains_iff element).mp held)

@[simp] theorem mem_insert (element other : T) :
    other ∈ (set.insert element).elements ↔ other = element ∨ other ∈ set.elements := by
  unfold insert
  split
  · rename_i member
    constructor
    · exact Or.inr
    · rintro (same | old)
      · exact same ▸ member
      · exact old
  · exact List.mem_orderedInsert ordLe

@[simp] theorem mem_retain (keep : T → Bool) (element : T) :
    element ∈ (set.retain keep).elements ↔ element ∈ set.elements ∧ keep element = true := List.mem_filter

@[simp] theorem mem_remove (element other : T) :
    other ∈ (set.remove element).elements ↔ other ∈ set.elements ∧ other ≠ element := by
  simp [remove]

@[simp] theorem mem_extend (elements : List T) (element : T) :
    element ∈ (set.extend elements).elements ↔ element ∈ set.elements ∨ element ∈ elements := by
  induction elements generalizing set with
  | nil => simp [extend]
  | cons first rest ih =>
    have later := ih (set.insert first)
    simp only [extend, List.foldl_cons, List.mem_cons, mem_insert] at later ⊢
    tauto

end

theorem popFirst_some {set rest : OrderedSet T} {first : T} (popped : set.popFirst = some (first, rest)) :
    set.elements = first :: rest.elements := by
  unfold popFirst at popped
  split at popped
  · cases popped
  · rename_i shape
    cases popped
    exact shape

theorem popFirst_none {set : OrderedSet T} (popped : set.popFirst = none) : set.elements = [] := by
  unfold popFirst at popped
  split at popped
  · rename_i empty
    exact empty
  · cases popped

end OrderedSet

end OrderedSet

/-- The requested times that wait for the frontier, those that have fired, and the input frontier. -/
structure Notificator (T : Type) [TimeOrder T] where
  pending : OrderedSet T
  ready : OrderedSet T
  frontier : Antichain T

namespace Notificator

variable {T : Type} [TimeOrder T]

def new (initialFrontier : Antichain T) : Notificator T := ⟨OrderedSet.empty, OrderedSet.empty, initialFrontier⟩

/-- A time that the frontier has passed fires at once; a repeated request is ignored. -/
def notifyAt (notificator : Notificator T) (time : T) : Notificator T :=
  if notificator.pending.contains time || notificator.ready.contains time then notificator
  else if !notificator.frontier.lessEqual time then { notificator with ready := notificator.ready.insert time }
  else { notificator with pending := notificator.pending.insert time }

def next (notificator : Notificator T) : Option (T × Notificator T) :=
  match notificator.ready.popFirst with
  | none => none
  | some (time, ready) => some (time, { notificator with ready := ready })

def hasReady (notificator : Notificator T) : Bool := !notificator.ready.elements.isEmpty

def pendingCount (notificator : Notificator T) : Nat := notificator.pending.elements.length

/-- The pending times that the new frontier has passed fire; the result has their number. -/
def updateFrontier (notificator : Notificator T) (frontier : Antichain T) : Nat × Notificator T :=
  let fired := notificator.pending.elements.filter fun time => !frontier.lessEqual time
  (fired.length, {
    pending := notificator.pending.retain fun time => frontier.lessEqual time
    ready := notificator.ready.extend fired
    frontier := frontier })

variable {notificator : Notificator T}

theorem notifyAt_frontier (time : T) : (notificator.notifyAt time).frontier = notificator.frontier := by
  unfold notifyAt
  split
  · rfl
  · split <;> rfl

theorem next_some {rest : Notificator T} {time : T} (fired : notificator.next = some (time, rest)) :
    notificator.ready.elements = time :: rest.ready.elements ∧ rest.pending = notificator.pending ∧
      rest.frontier = notificator.frontier := by
  unfold next at fired
  split at fired
  · cases fired
  · rename_i popped
    cases fired
    exact ⟨OrderedSet.popFirst_some popped, rfl, rfl⟩

theorem next_none (fired : notificator.next = none) : notificator.ready.elements = [] := by
  unfold next at fired
  split at fired
  · rename_i popped
    exact OrderedSet.popFirst_none popped
  · cases fired

end Notificator

end Instancy
