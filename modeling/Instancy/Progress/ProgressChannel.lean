import Instancy.Progress.Reachability.Builder

namespace Instancy

/-- A change is at an output port or at an input port. -/
inductive ProgressKind where
  | source
  | target
  deriving DecidableEq, Repr

/-- One progress change that a worker broadcasts. -/
structure ProgressChange (T : Type) where
  kind : ProgressKind
  node : Nat
  port : Nat
  time : T
  diff : Int
  deriving DecidableEq, Repr

namespace ProgressChange

variable {T : Type}

def location (change : ProgressChange T) : Location :=
  match change.kind with
  | .source => .source change.node change.port
  | .target => .target change.node change.port

/-- The fields have the range of `usize` and `i64`. -/
structure Fits (change : ProgressChange T) : Prop where
  node : change.node < 2 ^ 64
  port : change.port < 2 ^ 64
  low : -(2 ^ 63 : Int) ≤ change.diff
  high : change.diff < (2 ^ 63 : Int)

end ProgressChange

/-- A change together with the id of its scope; each scope has its own time. -/
abbrev ScopedChange (Time : Nat → Type) := (scope : Nat) × ProgressChange (Time scope)

/-- One commit of one worker: the changes of the root scope and one section per loop scope. -/
structure ProgressBatch (Time : Nat → Type) where
  root : List (ProgressChange (Time 0))
  scopes : List ((scope : Nat) × List (ProgressChange (Time scope)))

namespace ScopedChange

variable {Time : Nat → Type}

/-- The change, if it belongs to the scope. -/
def pick (scope : Nat) (change : ScopedChange Time) : List (ProgressChange (Time scope)) :=
  if same : change.1 = scope then [same ▸ change.2] else []

@[simp] theorem pick_self (scope : Nat) (change : ProgressChange (Time scope)) :
    pick scope ⟨scope, change⟩ = [change] := dif_pos rfl

theorem pick_of_ne {scope : Nat} {change : ScopedChange Time} (apart : change.1 ≠ scope) :
    pick scope change = [] := dif_neg apart

theorem pick_mk_of_ne {scope other : Nat} (change : ProgressChange (Time other)) (apart : other ≠ scope) :
    pick scope (⟨other, change⟩ : ScopedChange Time) = [] := dif_neg apart

/-- The test of the diff commutes with the choice of a scope. -/
theorem filter_pick (keep : Int → Bool) (scope : Nat) (change : ScopedChange Time) :
    (pick scope change).filter (fun picked => keep picked.diff) = if keep change.2.diff then pick scope change else [] := by
  by_cases same : change.1 = scope
  · subst same
    obtain ⟨scope, change⟩ := change
    cases kept : keep change.diff <;> simp [kept]
  · rw [pick_of_ne same, List.filter_nil, ite_self]

theorem filter_flatMap_pick (keep : Int → Bool) (scope : Nat) (changes : List (ScopedChange Time)) :
    (changes.flatMap (pick scope)).filter (fun picked => keep picked.diff) =
      (changes.filter fun change => keep change.2.diff).flatMap (pick scope) := by
  induction changes with
  | nil => rfl
  | cons change rest ih =>
    rw [List.flatMap_cons, List.filter_append, filter_pick, ih, List.filter_cons]
    cases keep change.2.diff <;> simp

end ScopedChange

namespace ProgressBatch

variable {Time : Nat → Type}

/-- All changes of a batch, the root scope first. -/
def changes (batch : ProgressBatch Time) : List (ScopedChange Time) :=
  batch.root.map (fun change => ⟨0, change⟩) ++
    batch.scopes.flatMap fun section_ => section_.2.map fun change => ⟨section_.1, change⟩

/-- The changes of one scope, in the order of the batch. -/
def changesOf (batch : ProgressBatch Time) (scope : Nat) : List (ProgressChange (Time scope)) :=
  batch.changes.flatMap (ScopedChange.pick scope)

end ProgressBatch

end Instancy
