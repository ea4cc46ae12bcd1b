import Mathlib.Order.Minimal
import Mathlib.Data.List.Nodup

namespace Instancy.Library

variable {T : Type} [PartialOrder T]

/-- The two elements are not ordered either way. -/
def Incomparable (first second : T) : Prop := ¬ first ≤ second ∧ ¬ second ≤ first

/-- The list holds the minimal elements of the predicate, and every element of it lies above one. -/
structure IsFrontier (frontier : List T) (holds : T → Prop) : Prop where
  incomparable : frontier.Pairwise Incomparable
  sound : ∀ time ∈ frontier, holds time
  covers : ∀ time, holds time → ∃ below ∈ frontier, below ≤ time

theorem eq_of_le_of_incomparable {frontier : List T} (apart : frontier.Pairwise Incomparable)
    {first second : T} (left : first ∈ frontier) (right : second ∈ frontier) (ordered : first ≤ second) :
    first = second := by
  induction apart with
  | nil => cases left
  | cons above _ ih =>
    rcases List.mem_cons.mp left with isHead | inTail
    · rcases List.mem_cons.mp right with same | later
      · rw [isHead, same]
      · exact absurd (isHead ▸ ordered) (above second later).1
    · rcases List.mem_cons.mp right with same | later
      · exact absurd (same ▸ ordered) (above first inTail).2
      · exact ih inTail later

namespace IsFrontier

variable {frontier : List T} {holds : T → Prop}

/-- Nothing holds of the empty frontier. -/
theorem nil : IsFrontier ([] : List T) fun _ => False :=
  ⟨List.Pairwise.nil, nofun, fun _ impossible => impossible.elim⟩

/-- An antichain is its own frontier. -/
theorem self (incomparable : frontier.Pairwise Incomparable) : IsFrontier frontier (· ∈ frontier) :=
  ⟨incomparable, fun _ member => member, fun time member => ⟨time, member, le_refl time⟩⟩

section

variable (isFrontier : IsFrontier frontier holds)
include isFrontier

theorem nodup : frontier.Nodup :=
  isFrontier.incomparable.imp fun apart same => apart.1 (le_of_eq same)

theorem eq_of_le {first second : T}
    (left : first ∈ frontier) (right : second ∈ frontier) (ordered : first ≤ second) : first = second :=
  eq_of_le_of_incomparable isFrontier.incomparable left right ordered

/-- The members of a frontier are exactly the minimal elements. -/
theorem mem_iff_minimal (time : T) : time ∈ frontier ↔ Minimal holds time := by
  constructor
  · intro member
    refine ⟨isFrontier.sound time member, fun other held ordered => ?_⟩
    obtain ⟨below, found, under⟩ := isFrontier.covers other held
    have same := isFrontier.eq_of_le found member (under.trans ordered)
    exact same ▸ under
  · intro minimal
    obtain ⟨below, found, under⟩ := isFrontier.covers time minimal.1
    have above := minimal.2 (isFrontier.sound below found) under
    exact le_antisymm under above ▸ found

theorem congr {other : T → Prop} (same : ∀ time, holds time ↔ other time) : IsFrontier frontier other :=
  ⟨isFrontier.incomparable, fun time member => (same time).mp (isFrontier.sound time member),
    fun time held => isFrontier.covers time ((same time).mpr held)⟩

end

end IsFrontier

end Instancy.Library
