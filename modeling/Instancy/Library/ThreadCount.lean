import Mathlib.Algebra.Order.BigOperators.Group.Finset

namespace Instancy.Library

variable {Thread Place : Type} [Fintype Thread]

/-- The weights of the places of all threads. -/
def total (weight : Place → Nat) (place : Thread → Place) : Nat := ∑ thread, weight (place thread)

variable {weight : Place → Nat} {place : Thread → Place}

theorem weight_le_total (thread : Thread) : weight (place thread) ≤ total weight place :=
  Finset.single_le_sum (f := fun thread => weight (place thread)) (fun _ _ => Nat.zero_le _) (Finset.mem_univ thread)

theorem total_eq_zero (none : ∀ thread, weight (place thread) = 0) : total weight place = 0 :=
  Finset.sum_eq_zero fun thread _ => none thread

theorem total_le_total {lighter : Place → Nat} (less : ∀ place, lighter place ≤ weight place) :
    total lighter place ≤ total weight place :=
  Finset.sum_le_sum fun thread _ => less (place thread)

theorem exists_of_total_pos (some : 0 < total weight place) : ∃ thread, 0 < weight (place thread) := by
  by_contra none
  have empty : total weight place = 0 :=
    total_eq_zero fun thread => Nat.eq_zero_of_not_pos fun positive => none ⟨thread, positive⟩
  omega

variable [DecidableEq Thread]

/-- One thread moves. -/
theorem total_update (thread : Thread) (next : Place) :
    total weight (Function.update place thread next) + weight (place thread) = total weight place + weight next := by
  unfold total
  have others : ∑ other ∈ Finset.univ.erase thread, weight (Function.update place thread next other) =
      ∑ other ∈ Finset.univ.erase thread, weight (place other) :=
    Finset.sum_congr rfl fun other different => by
      rw [Function.update_of_ne (Finset.ne_of_mem_erase different)]
  rw [← Finset.sum_erase_add _ _ (Finset.mem_univ thread), others, Function.update_self,
    ← Finset.sum_erase_add Finset.univ (fun other => weight (place other)) (Finset.mem_univ thread)]
  omega

/-- The threads of a range are at one place, the others weigh nothing. -/
theorem total_range {count : Nat} (created : Fin count ↪ Thread) (home other : Place) (none : weight other = 0) :
    total weight (fun thread => if ∃ index, created index = thread then home else other) = count * weight home := by
  have range : Finset.univ.filter (fun thread => ∃ index, created index = thread) = Finset.univ.map created := by
    ext thread
    simp
  unfold total
  simp only [apply_ite weight, none]
  rw [← Finset.sum_filter, range, Finset.sum_const, Finset.card_map, Finset.card_fin]
  rfl

/-- Two threads together weigh no more than all. -/
theorem two_le_total {first second : Thread} (different : first ≠ second) :
    weight (place first) + weight (place second) ≤ total weight place := by
  unfold total
  rw [← Finset.sum_erase_add _ _ (Finset.mem_univ first), Nat.add_comm]
  refine Nat.add_le_add_right ?_ _
  exact Finset.single_le_sum (f := fun thread => weight (place thread)) (fun _ _ => Nat.zero_le _)
    (Finset.mem_erase.mpr ⟨different.symm, Finset.mem_univ second⟩)

end Instancy.Library
