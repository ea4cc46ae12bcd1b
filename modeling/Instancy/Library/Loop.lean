import Mathlib.Logic.Hydra
import Mathlib.Tactic.Abel

namespace Instancy.Library

section Loop

variable {State : Type}

/-- The loop runs until the step has nothing to do; no fuel gives no result. -/
def loop (step : State → Option State) : Nat → State → Option State
  | 0, _ => none
  | fuel + 1, state =>
    match step state with
    | none => some state
    | some next => loop step fuel next

variable {step : State → Option State}

theorem loop_of_done {state : State} (done : step state = none) (fuel : Nat) :
    loop step (fuel + 1) state = some state := by
  rw [loop, done]

theorem loop_of_step {state next : State} (taken : step state = some next) (fuel : Nat) :
    loop step (fuel + 1) state = loop step fuel next := by
  rw [loop, taken]

/-- More fuel gives the same result. -/
theorem loop_mono {fuel more : Nat} (enough : fuel ≤ more) {state result : State}
    (ended : loop step fuel state = some result) : loop step more state = some result := by
  induction fuel generalizing more state with
  | zero => exact absurd ended (by simp [loop])
  | succ fuel ih =>
    obtain ⟨extra, same⟩ : ∃ extra, more = extra + 1 := ⟨more - 1, by omega⟩
    subst same
    cases taken : step state with
    | none =>
      rw [loop_of_done taken] at ended ⊢
      exact ended
    | some next =>
      rw [loop_of_step taken] at ended ⊢
      exact ih (by omega) ended

/-- What every step keeps holds at the end, and the end has no step. -/
theorem loop_invariant (holds : State → Prop)
    (keeps : ∀ state next, holds state → step state = some next → holds next)
    {fuel : Nat} {state result : State} (start : holds state) (ended : loop step fuel state = some result) :
    holds result ∧ step result = none := by
  induction fuel generalizing state with
  | zero => exact absurd ended (by simp [loop])
  | succ fuel ih =>
    cases taken : step state with
    | none =>
      rw [loop_of_done taken] at ended
      cases ended
      exact ⟨start, taken⟩
    | some next =>
      rw [loop_of_step taken] at ended
      exact ih (keeps state next start taken) ended

/-- A loop whose steps go down in a well-founded relation ends with every large fuel. -/
theorem loop_terminates (holds : State → Prop) {lower : State → State → Prop} (wellFounded : WellFounded lower)
    (keeps : ∀ state next, holds state → step state = some next → holds next)
    (descends : ∀ state next, holds state → step state = some next → lower next state)
    (state : State) (start : holds state) :
    ∃ bound result, ∀ fuel, bound ≤ fuel → loop step fuel state = some result := by
  induction state using wellFounded.induction with
  | _ state ih =>
    cases taken : step state with
    | none =>
      refine ⟨1, state, fun fuel enough => ?_⟩
      exact loop_mono enough (loop_of_done taken 0)
    | some next =>
      obtain ⟨bound, result, ended⟩ := ih next (descends state next start taken) (keeps state next start taken)
      refine ⟨bound + 1, result, fun fuel enough => ?_⟩
      apply loop_mono enough
      rw [loop_of_step taken]
      exact ended bound le_rfl

end Loop

section Acyclic

variable {L : Type} {before : L → L → Prop} {support : Set L}

/-- An acyclic relation between the members of a finite set is well-founded. -/
theorem wellFounded_of_acyclic (finite : support.Finite)
    (inside : ∀ first second, before first second → first ∈ support ∧ second ∈ support)
    (acyclic : ∀ location, ¬ Relation.TransGen before location location) : WellFounded before := by
  have strict : IsStrictOrder L (Relation.TransGen before) :=
    { irrefl := acyclic
      trans := fun _ _ _ => Relation.TransGen.trans }
  have onSupport := Set.wellFoundedOn_iff.mp (finite.wellFoundedOn (r := Relation.TransGen before))
  refine Subrelation.wf ?_ onSupport
  intro first second related
  exact ⟨Relation.TransGen.single related, inside first second related⟩

theorem wellFounded_flip_of_acyclic (finite : support.Finite)
    (inside : ∀ first second, before first second → first ∈ support ∧ second ∈ support)
    (acyclic : ∀ location, ¬ Relation.TransGen before location location) : WellFounded (flip before) := by
  refine wellFounded_of_acyclic finite (fun first second related => (inside second first related).symm) ?_
  intro location cycle
  have turned : Relation.TransGen (Function.swap before) location location := cycle
  rw [Relation.transGen_swap] at turned
  exact acyclic location turned

end Acyclic

section Worklist

open Relation

variable {K : Type} {after : K → K → Prop}

theorem reflTransGen_cutExpand_drop (kept dropped : Multiset K) :
    ReflTransGen (CutExpand after) kept (dropped + kept) := by
  induction dropped using Multiset.induction_on with
  | empty =>
    rw [Multiset.zero_add]
  | cons key rest ih =>
    refine ih.tail ⟨0, key, fun _ member => absurd member (Multiset.notMem_zero _), ?_⟩
    rw [Multiset.cons_add, Multiset.add_zero, ← Multiset.singleton_add, Multiset.add_comm]

/-- A round that takes keys off a worklist and adds only keys after one of them goes down. -/
theorem transGen_cutExpand_round (after : K → K → Prop) (key : K) (taken kept added : Multiset K)
    (later : ∀ fresh ∈ added, after fresh key) :
    TransGen (CutExpand after) (added + kept) (key ::ₘ (taken + kept)) := by
  refine TransGen.trans_right (reflTransGen_cutExpand_drop (added + kept) taken) (TransGen.single ?_)
  refine ⟨added, key, later, ?_⟩
  rw [← Multiset.singleton_add]
  abel

end Worklist

end Instancy.Library
