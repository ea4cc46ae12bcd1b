import Instancy.Order

namespace Instancy

/-- This class is the summary side of the `PathSummary` trait. -/
class PathSummary (S : Type) extends PartialOrder S where
  summaryDecEq : DecidableEq S
  summaryDecLe : DecidableLE S
  identity : S
  followedBy : S → S → Option S

export PathSummary (identity followedBy)

instance {S : Type} [PathSummary S] : DecidableEq S := PathSummary.summaryDecEq

instance summaryDecLE {S : Type} [PathSummary S] : DecidableLE S := PathSummary.summaryDecLe

/-- This class is the `Timestamp` trait with the `results_in` of its summary. -/
class Timestamp (T : Type) (S : outParam Type) [PathSummary S] extends TimeOrder T where
  minimum : T
  resultsIn : S → T → Option T

export Timestamp (minimum resultsIn)

/-- These summary laws hold for the unsigned integers and for every nested product of them. -/
class UnsignedSummary (S : Type) extends PathSummary S where
  identity_least : ∀ s : S, identity ≤ s
  followedBy_identity : ∀ s : S, followedBy s identity = some s
  identity_followedBy : ∀ s : S, followedBy identity s = some s
  followedBy_mono : ∀ (s s' r r' c' : S), s ≤ s' → r ≤ r' → followedBy s' r' = some c' →
    ∃ c, followedBy s r = some c ∧ c ≤ c'
  followedBy_assoc : ∀ s r q : S,
    (followedBy s r).bind (followedBy · q) = (followedBy r q).bind (followedBy s)

/-- A summary at or below the identity is the identity. -/
theorem eq_identity_of_le {S : Type} [UnsignedSummary S] {summary : S} (below : summary ≤ identity) :
    summary = identity :=
  le_antisymm below (UnsignedSummary.identity_least summary)

/-- These time laws hold for the unsigned integers and for every nested product of them. -/
class UnsignedTimestamp (T : Type) (S : outParam Type) [UnsignedSummary S] extends Timestamp T S where
  wellFoundedLT : WellFoundedLT T
  minimum_le : ∀ t : T, minimum ≤ t
  resultsIn_identity : ∀ t : T, resultsIn identity t = some t
  resultsIn_followedBy : ∀ (first second : S) (t : T),
    (followedBy first second).bind (resultsIn · t) = (resultsIn first t).bind (resultsIn second)
  resultsIn_inflates : ∀ (s : S) (t u : T), resultsIn s t = some u → t ≤ u
  resultsIn_mono : ∀ (s : S) (t t' u' : T), t ≤ t' → resultsIn s t' = some u' →
    ∃ u, resultsIn s t = some u ∧ u ≤ u'
  resultsIn_summary_mono : ∀ (s s' : S) (t u' : T), s ≤ s' → resultsIn s' t = some u' →
    ∃ u, resultsIn s t = some u ∧ u ≤ u'
  resultsIn_fixed : ∀ (s : S) (t : T), resultsIn s t = some t → s ≤ identity
  resultsIn_minimum : ∀ s : S, ∃ t : T, resultsIn s minimum = some t

instance timestampLT {T S : Type} [UnsignedSummary S] [UnsignedTimestamp T S] : WellFoundedLT T :=
  UnsignedTimestamp.wellFoundedLT

/-- The unsigned machine integers of a given width. -/
abbrev Unsigned (width : Nat) := Fin (2 ^ width)

instance wordNeZero : @NeZero Nat Zero.ofOfNat0 (2 ^ 64) := ⟨by decide⟩

/-- This is `checked_add`: the sum, or `None` on overflow. -/
def checkedAdd {bound : Nat} (first second : Fin bound) : Option (Fin bound) :=
  if fits : first.val + second.val < bound then some ⟨first.val + second.val, fits⟩ else none

theorem checkedAdd_eq_some {bound : Nat} {first second sum : Fin bound} :
    checkedAdd first second = some sum ↔ sum.val = first.val + second.val := by
  unfold checkedAdd
  split
  · rw [Option.some.injEq, Fin.ext_iff]
    exact eq_comm
  · constructor
    · intro impossible
      cases impossible
    · intro same
      omega

section Unsigned

variable {width : Nat}

instance : PathSummary (Unsigned width) where
  toPartialOrder := inferInstance
  summaryDecEq := inferInstance
  summaryDecLe := inferInstance
  identity := ⟨0, Nat.two_pow_pos width⟩
  followedBy := checkedAdd

theorem Unsigned.identity_val : (identity : Unsigned width).val = 0 := rfl

/-- The summary of an integer adds to the time. -/
instance : Timestamp (Unsigned width) (Unsigned width) where
  toTimeOrder := inferInstance
  minimum := ⟨0, Nat.two_pow_pos width⟩
  resultsIn summary src := checkedAdd src summary

theorem Unsigned.resultsIn_eq (summary src : Unsigned width) :
    resultsIn summary src = checkedAdd src summary := rfl

theorem checkedAdd_mono {bound : Nat} {a a' b b' sum' : Fin bound} (left : a ≤ a') (right : b ≤ b')
    (present : checkedAdd a' b' = some sum') : ∃ sum, checkedAdd a b = some sum ∧ sum ≤ sum' := by
  rw [checkedAdd_eq_some] at present
  refine ⟨⟨a.val + b.val, by omega⟩, checkedAdd_eq_some.mpr rfl, ?_⟩
  change a.val + b.val ≤ sum'.val
  omega

/-- Both orders of a sequence of checked additions overflow together. -/
theorem checkedAdd_bind {bound : Nat} (a b c : Fin bound) :
    (checkedAdd b c).bind (checkedAdd a) = (checkedAdd a b).bind (checkedAdd · c) := by
  apply Option.ext
  intro sum
  simp only [Option.bind_eq_some_iff, checkedAdd_eq_some]
  constructor
  · rintro ⟨tail, tailVal, total⟩
    exact ⟨⟨a.val + b.val, by omega⟩, rfl, by change sum.val = a.val + b.val + c.val; omega⟩
  · rintro ⟨head, headVal, total⟩
    exact ⟨⟨b.val + c.val, by omega⟩, rfl, by change sum.val = a.val + (b.val + c.val); omega⟩

instance : UnsignedSummary (Unsigned width) where
  toPathSummary := inferInstance
  identity_least s := Nat.zero_le s.val
  followedBy_identity s := checkedAdd_eq_some.mpr rfl
  identity_followedBy s := checkedAdd_eq_some.mpr (by rw [Unsigned.identity_val]; omega)
  followedBy_mono s s' r r' c' left right present := checkedAdd_mono left right present
  followedBy_assoc s r q := (checkedAdd_bind s r q).symm

/-- The unsigned integers satisfy the laws of an unsigned timestamp. -/
instance : UnsignedTimestamp (Unsigned width) (Unsigned width) where
  wellFoundedLT := inferInstance
  minimum_le t := Nat.zero_le t.val
  resultsIn_identity t := checkedAdd_eq_some.mpr rfl
  resultsIn_followedBy first second t := checkedAdd_bind t first second
  resultsIn_inflates s t u present := by
    rw [Unsigned.resultsIn_eq, checkedAdd_eq_some] at present
    exact Fin.le_def.mpr (by omega)
  resultsIn_mono s t t' u' below present := checkedAdd_mono below le_rfl present
  resultsIn_summary_mono s s' t u' below present := checkedAdd_mono le_rfl below present
  resultsIn_fixed s t present := by
    rw [Unsigned.resultsIn_eq, checkedAdd_eq_some] at present
    exact Fin.le_def.mpr (by rw [Unsigned.identity_val]; omega)
  resultsIn_minimum s := ⟨s, checkedAdd_eq_some.mpr (Nat.zero_add s.val).symm⟩

end Unsigned

section Unbounded

/-- The natural numbers as times without a limit, where no sum overflows. -/
def Unbounded : Type := Nat

instance : LinearOrder Unbounded := inferInstanceAs (LinearOrder Nat)

instance : WellFoundedLT Unbounded := inferInstanceAs (WellFoundedLT Nat)

instance (value : Nat) : OfNat Unbounded value := ⟨(value : Nat)⟩

instance : TimeOrder Unbounded := TimeOrder.ofLinearOrder Unbounded

def Unbounded.add (first second : Unbounded) : Unbounded := Nat.add first second

theorem Unbounded.add_mono {first first' second second' : Unbounded} (left : first ≤ first')
    (right : second ≤ second') :
    first.add second ≤ first'.add second' := Nat.add_le_add left right

theorem Unbounded.le_add (first second : Unbounded) : first ≤ first.add second := Nat.le_add_right first second

instance : PathSummary Unbounded where
  toPartialOrder := inferInstance
  summaryDecEq := inferInstance
  summaryDecLe := inferInstance
  identity := 0
  followedBy first second := some (first.add second)

instance : Timestamp Unbounded Unbounded where
  toTimeOrder := inferInstance
  minimum := 0
  resultsIn summary src := some (src.add summary)

instance : UnsignedSummary Unbounded where
  toPathSummary := inferInstance
  identity_least s := Nat.zero_le s
  followedBy_identity s := congrArg some (Nat.add_zero s)
  identity_followedBy s := congrArg some (Nat.zero_add s)
  followedBy_mono s s' r r' c' left right present := by
    cases present
    exact ⟨s.add r, rfl, Unbounded.add_mono left right⟩
  followedBy_assoc s r q := congrArg some (Nat.add_assoc s r q)

/-- The unbounded times satisfy the laws of the unsigned ones. -/
instance : UnsignedTimestamp Unbounded Unbounded where
  wellFoundedLT := inferInstance
  minimum_le t := Nat.zero_le t
  resultsIn_identity t := congrArg some (Nat.add_zero t)
  resultsIn_followedBy first second t := congrArg some (Nat.add_assoc t first second).symm
  resultsIn_inflates s t u present := by
    cases present
    exact t.le_add s
  resultsIn_mono s t t' u' below present := by
    cases present
    exact ⟨t.add s, rfl, Unbounded.add_mono below le_rfl⟩
  resultsIn_summary_mono s s' t u' below present := by
    cases present
    exact ⟨t.add s, rfl, Unbounded.add_mono le_rfl below⟩
  resultsIn_fixed s t present := by
    have same : Nat.add t s = t := Option.some.inj present
    exact Nat.le_of_eq (Nat.add_left_cancel (same.trans (Nat.add_zero t).symm))
  resultsIn_minimum s := ⟨s, congrArg some (Nat.zero_add s)⟩

end Unbounded

section Product

variable {A B SA SB : Type} [PathSummary SA] [PathSummary SB]

instance : PathSummary (Product SA SB) where
  toPartialOrder := inferInstance
  summaryDecEq := inferInstance
  summaryDecLe := inferInstance
  identity := ⟨identity, identity⟩
  followedBy first second :=
    (followedBy first.outer second.outer).bind fun outer =>
      (followedBy first.inner second.inner).map fun inner => ⟨outer, inner⟩

/-- A product summary advances both components. -/
instance [Timestamp A SA] [Timestamp B SB] : Timestamp (Product A B) (Product SA SB) where
  toTimeOrder := inferInstance
  minimum := ⟨minimum, minimum⟩
  resultsIn summary src :=
    (resultsIn summary.outer src.outer).bind fun outer =>
      (resultsIn summary.inner src.inner).map fun inner => ⟨outer, inner⟩

/-- A product is there if both of its components are. -/
theorem Product.bind_map_eq_some {A B : Type} {outer : Option A} {inner : Option B} {result : Product A B} :
    (outer.bind fun first => inner.map fun second => (⟨first, second⟩ : Product A B)) = some result ↔
      outer = some result.outer ∧ inner = some result.inner := by
  cases result
  simp only [Option.bind_eq_some_iff, Option.map_eq_some_iff, Product.mk.injEq]
  grind

theorem Product.followedBy_eq_some {first second sum : Product SA SB} :
    followedBy first second = some sum ↔
      followedBy first.outer second.outer = some sum.outer ∧
        followedBy first.inner second.inner = some sum.inner := Product.bind_map_eq_some

theorem Product.resultsIn_eq_some [Timestamp A SA] [Timestamp B SB] {summary : Product SA SB}
    {src result : Product A B} :
    resultsIn summary src = some result ↔
      resultsIn summary.outer src.outer = some result.outer ∧
        resultsIn summary.inner src.inner = some result.inner := Product.bind_map_eq_some

instance {SA SB : Type} [UnsignedSummary SA] [UnsignedSummary SB] : UnsignedSummary (Product SA SB) where
  toPathSummary := inferInstance
  identity_least s :=
    ⟨UnsignedSummary.identity_least s.outer, UnsignedSummary.identity_least s.inner⟩
  followedBy_identity s := Product.followedBy_eq_some.mpr
    ⟨UnsignedSummary.followedBy_identity s.outer,
      UnsignedSummary.followedBy_identity s.inner⟩
  identity_followedBy s := Product.followedBy_eq_some.mpr
    ⟨UnsignedSummary.identity_followedBy s.outer,
      UnsignedSummary.identity_followedBy s.inner⟩
  followedBy_mono s s' r r' c' left right present := by
    obtain ⟨outer, inner⟩ := Product.followedBy_eq_some.mp present
    obtain ⟨co, coFollowed, coLe⟩ :=
      UnsignedSummary.followedBy_mono _ _ _ _ _ left.1 right.1 outer
    obtain ⟨ci, ciFollowed, ciLe⟩ :=
      UnsignedSummary.followedBy_mono _ _ _ _ _ left.2 right.2 inner
    exact ⟨⟨co, ci⟩, Product.followedBy_eq_some.mpr ⟨coFollowed, ciFollowed⟩, coLe, ciLe⟩
  followedBy_assoc s r q := by
    have outerLaw := UnsignedSummary.followedBy_assoc s.outer r.outer q.outer
    have innerLaw := UnsignedSummary.followedBy_assoc s.inner r.inner q.inner
    apply Option.ext
    intro sum
    have outerAt := congrArg (· = some sum.outer) outerLaw
    have innerAt := congrArg (· = some sum.inner) innerLaw
    simp only [Option.bind_eq_some_iff, eq_iff_iff] at outerAt innerAt
    simp only [Option.bind_eq_some_iff, Product.followedBy_eq_some]
    constructor
    · rintro ⟨head, ⟨outerHead, innerHead⟩, outerRest, innerRest⟩
      obtain ⟨outerTail, outerSecond, outerFirst⟩ := outerAt.mp ⟨_, outerHead, outerRest⟩
      obtain ⟨innerTail, innerSecond, innerFirst⟩ := innerAt.mp ⟨_, innerHead, innerRest⟩
      exact ⟨⟨outerTail, innerTail⟩, ⟨outerSecond, innerSecond⟩, outerFirst, innerFirst⟩
    · rintro ⟨tail, ⟨outerTail, innerTail⟩, outerFirst, innerFirst⟩
      obtain ⟨outerHead, outerRest, outerSecond⟩ := outerAt.mpr ⟨_, outerTail, outerFirst⟩
      obtain ⟨innerHead, innerRest, innerSecond⟩ := innerAt.mpr ⟨_, innerTail, innerFirst⟩
      exact ⟨⟨outerHead, innerHead⟩, ⟨outerRest, innerRest⟩, outerSecond, innerSecond⟩

/-- The component-wise laws give the laws of the product. -/
instance {SA SB : Type} [UnsignedSummary SA] [UnsignedSummary SB] [UnsignedTimestamp A SA] [UnsignedTimestamp B SB] :
    UnsignedTimestamp (Product A B) (Product SA SB) where
  wellFoundedLT := inferInstance
  minimum_le t := ⟨UnsignedTimestamp.minimum_le t.outer, UnsignedTimestamp.minimum_le t.inner⟩
  resultsIn_identity t := Product.resultsIn_eq_some.mpr
    ⟨UnsignedTimestamp.resultsIn_identity t.outer, UnsignedTimestamp.resultsIn_identity t.inner⟩
  resultsIn_followedBy first second t := by
    have outerLaw := UnsignedTimestamp.resultsIn_followedBy first.outer second.outer t.outer
    have innerLaw := UnsignedTimestamp.resultsIn_followedBy first.inner second.inner t.inner
    apply Option.ext
    intro result
    have outerAt := congrArg (· = some result.outer) outerLaw
    have innerAt := congrArg (· = some result.inner) innerLaw
    simp only [Option.bind_eq_some_iff, eq_iff_iff] at outerAt innerAt
    simp only [Option.bind_eq_some_iff, Product.followedBy_eq_some, Product.resultsIn_eq_some]
    constructor
    · rintro ⟨sum, ⟨outerSum, innerSum⟩, outerResult, innerResult⟩
      obtain ⟨outerMid, outerFirst, outerSecond⟩ := outerAt.mp ⟨_, outerSum, outerResult⟩
      obtain ⟨innerMid, innerFirst, innerSecond⟩ := innerAt.mp ⟨_, innerSum, innerResult⟩
      exact ⟨⟨outerMid, innerMid⟩, ⟨outerFirst, innerFirst⟩, outerSecond, innerSecond⟩
    · rintro ⟨mid, ⟨outerFirst, innerFirst⟩, outerSecond, innerSecond⟩
      obtain ⟨outerSum, outerFollowed, outerResult⟩ := outerAt.mpr ⟨_, outerFirst, outerSecond⟩
      obtain ⟨innerSum, innerFollowed, innerResult⟩ := innerAt.mpr ⟨_, innerFirst, innerSecond⟩
      exact ⟨⟨outerSum, innerSum⟩, ⟨outerFollowed, innerFollowed⟩, outerResult, innerResult⟩
  resultsIn_inflates s t u present := by
    obtain ⟨outer, inner⟩ := Product.resultsIn_eq_some.mp present
    exact ⟨UnsignedTimestamp.resultsIn_inflates _ _ _ outer,
      UnsignedTimestamp.resultsIn_inflates _ _ _ inner⟩
  resultsIn_mono s t t' u' below present := by
    obtain ⟨outer, inner⟩ := Product.resultsIn_eq_some.mp present
    obtain ⟨uo, uoResult, uoLe⟩ := UnsignedTimestamp.resultsIn_mono _ _ _ _ below.1 outer
    obtain ⟨ui, uiResult, uiLe⟩ := UnsignedTimestamp.resultsIn_mono _ _ _ _ below.2 inner
    exact ⟨⟨uo, ui⟩, Product.resultsIn_eq_some.mpr ⟨uoResult, uiResult⟩, uoLe, uiLe⟩
  resultsIn_summary_mono s s' t u' below present := by
    obtain ⟨outer, inner⟩ := Product.resultsIn_eq_some.mp present
    obtain ⟨uo, uoResult, uoLe⟩ := UnsignedTimestamp.resultsIn_summary_mono _ _ _ _ below.1 outer
    obtain ⟨ui, uiResult, uiLe⟩ := UnsignedTimestamp.resultsIn_summary_mono _ _ _ _ below.2 inner
    exact ⟨⟨uo, ui⟩, Product.resultsIn_eq_some.mpr ⟨uoResult, uiResult⟩, uoLe, uiLe⟩
  resultsIn_fixed s t present := by
    obtain ⟨outer, inner⟩ := Product.resultsIn_eq_some.mp present
    exact ⟨UnsignedTimestamp.resultsIn_fixed _ _ outer, UnsignedTimestamp.resultsIn_fixed _ _ inner⟩
  resultsIn_minimum s := by
    obtain ⟨outer, outerResult⟩ := UnsignedTimestamp.resultsIn_minimum (T := A) s.outer
    obtain ⟨inner, innerResult⟩ := UnsignedTimestamp.resultsIn_minimum (T := B) s.inner
    exact ⟨⟨outer, inner⟩, Product.resultsIn_eq_some.mpr ⟨outerResult, innerResult⟩⟩

end Product

end Instancy
