import Mathlib.Order.WellQuasiOrder

namespace Instancy.Library

variable {K S : Type} [Preorder S]

/-- What a table covers grows by something at one of the given keys, and stays closed upwards. -/
structure Grows (keys : Set K) (after before : K → S → Prop) : Prop where
  upward : ∀ key low high, low ≤ high → after key low → after key high
  keeps : ∀ key item, before key item → after key item
  fresh : ∃ key ∈ keys, ∃ item, after key item ∧ ¬ before key item

theorem Grows.trans {keys : Set K} {first second third : K → S → Prop} (late : Grows keys third second)
    (early : Grows keys second first) : Grows keys third first := by
  obtain ⟨key, inside, item, covered, missing⟩ := early.fresh
  exact ⟨late.upward, fun key item held => late.keeps key item (early.keeps key item held),
    key, inside, item, late.keeps key item covered, missing⟩

/-- In an endless growth some fresh item would lie above an earlier one, which is covered already. -/
theorem grows_wellFounded [WellQuasiOrderedLE S] {keys : Set K} (finite : keys.Finite) :
    WellFounded (Grows keys : (K → S → Prop) → (K → S → Prop) → Prop) := by
  rw [wellFounded_iff_isEmpty_descending_chain]
  refine ⟨fun chain => ?_⟩
  obtain ⟨tables, grows⟩ := chain
  choose key inside item covered missing using fun round => (grows round).fresh
  have later : ∀ early late, early < late → tables late (key early) (item early) := by
    intro early late before
    induction late, before using Nat.le_induction with
    | base => exact covered early
    | succ late _ ih => exact (grows late).keeps _ _ ih
  have finiteKeys : Finite keys := finite
  have ordered : WellQuasiOrdered fun first second : keys × S => first.1 = second.1 ∧ first.2 ≤ second.2 :=
    (Finite.wellQuasiOrdered (· = ·)).prod wellQuasiOrdered_le
  obtain ⟨early, late, before, sameKey, below⟩ := ordered fun round => (⟨key round, inside round⟩, item round)
  have same : key early = key late := congrArg Subtype.val sameKey
  obtain ⟨round, isLate⟩ : ∃ round, late = round + 1 := ⟨late - 1, by omega⟩
  subst isLate
  exact missing (round + 1) ((grows round).upward _ _ _ below (same ▸ later early (round + 1) before))

end Instancy.Library
