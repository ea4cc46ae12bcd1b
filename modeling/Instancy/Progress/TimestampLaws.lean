import Instancy.Progress.Timestamp
import Mathlib

namespace Instancy

/-- The signed machine integers of a given width. -/
abbrev Signed (width : Nat) := {value : Int // -2 ^ (width - 1) ≤ value ∧ value < 2 ^ (width - 1)}

section Unit

instance : PathSummary Unit where
  toPartialOrder := inferInstance
  summaryDecEq := inferInstance
  summaryDecLe := inferInstance
  identity := ()
  followedBy _ _ := some ()

instance : Timestamp Unit Unit where
  toTimeOrder := TimeOrder.ofLinearOrder Unit
  minimum := ()
  resultsIn _ _ := some ()

end Unit

namespace Signed

variable {width : Nat}

/-- This is `checked_add` of a signed integer: the sum, or `None` if it leaves the range on either side. -/
def checkedAdd (first second : Signed width) : Option (Signed width) :=
  if fits : -2 ^ (width - 1) ≤ first.1 + second.1 ∧ first.1 + second.1 < 2 ^ (width - 1) then
    some ⟨first.1 + second.1, fits⟩
  else none

theorem checkedAdd_eq_some {first second sum : Signed width} :
    checkedAdd first second = some sum ↔ sum.1 = first.1 + second.1 := by
  unfold checkedAdd
  split
  · rw [Option.some.injEq, Subtype.ext_iff]
    exact eq_comm
  · rename_i outside
    constructor
    · intro impossible
      cases impossible
    · intro same
      exact absurd (same ▸ sum.2) outside

theorem two_pow_pos (width : Nat) : (0 : Int) < 2 ^ (width - 1) := Int.pow_pos (by decide)

/-- The order of the integers is named here, since another instance of it does not compute. -/
instance linearOrder : LinearOrder (Signed width) := @Subtype.instLinearOrder Int Int.instLinearOrder _

instance : PathSummary (Signed width) where
  toPartialOrder := linearOrder.toPartialOrder
  summaryDecEq := linearOrder.toDecidableEq
  summaryDecLe := linearOrder.toDecidableLE
  identity := ⟨0, by have := two_pow_pos width; omega⟩
  followedBy := checkedAdd

/-- The summary of a signed integer adds to the time, in either direction. -/
instance : Timestamp (Signed width) (Signed width) where
  toTimeOrder := @TimeOrder.ofLinearOrder (Signed width) linearOrder
  minimum := ⟨-2 ^ (width - 1), by have := two_pow_pos width; omega⟩
  resultsIn summary src := checkedAdd src summary

end Signed

/-- The timestamps that the library implements. -/
inductive BuiltInTime where
  | unit
  | usize
  | u32
  | u64
  | i32
  | i64
  | product (outer inner : BuiltInTime)
  deriving DecidableEq, Repr

namespace BuiltInTime

/-- The values of a built-in timestamp; its summaries are values of the same type. -/
def Time : BuiltInTime → Type
  | unit => Unit
  | usize => Unsigned 64
  | u32 => Unsigned 32
  | u64 => Unsigned 64
  | i32 => Signed 32
  | i64 => Signed 64
  | product outer inner => Product outer.Time inner.Time

instance pathSummary : (kind : BuiltInTime) → PathSummary kind.Time
  | unit => inferInstanceAs (PathSummary Unit)
  | usize => inferInstanceAs (PathSummary (Unsigned 64))
  | u32 => inferInstanceAs (PathSummary (Unsigned 32))
  | u64 => inferInstanceAs (PathSummary (Unsigned 64))
  | i32 => inferInstanceAs (PathSummary (Signed 32))
  | i64 => inferInstanceAs (PathSummary (Signed 64))
  | product outer inner => @instPathSummaryProduct outer.Time inner.Time (pathSummary outer) (pathSummary inner)

instance timestamp : (kind : BuiltInTime) → Timestamp kind.Time kind.Time
  | unit => inferInstanceAs (Timestamp Unit Unit)
  | usize => inferInstanceAs (Timestamp (Unsigned 64) (Unsigned 64))
  | u32 => inferInstanceAs (Timestamp (Unsigned 32) (Unsigned 32))
  | u64 => inferInstanceAs (Timestamp (Unsigned 64) (Unsigned 64))
  | i32 => inferInstanceAs (Timestamp (Signed 32) (Signed 32))
  | i64 => inferInstanceAs (Timestamp (Signed 64) (Signed 64))
  | product outer inner => @instTimestampProduct outer.Time inner.Time outer.Time inner.Time (pathSummary outer)
      (pathSummary inner) (timestamp outer) (timestamp inner)

/-- The integers that a nested timestamp consists of. -/
def Component : BuiltInTime → Type
  | unit => Empty
  | product outer inner => outer.Component ⊕ inner.Component
  | _ => Unit

/-- The integer values of a timestamp, without a range. -/
def values : (kind : BuiltInTime) → kind.Time → kind.Component → Int
  | unit, _ => Empty.elim
  | usize, time => fun _ => (show Unsigned 64 from time).val
  | u32, time => fun _ => (show Unsigned 32 from time).val
  | u64, time => fun _ => (show Unsigned 64 from time).val
  | i32, time => fun _ => (show Signed 32 from time).1
  | i64, time => fun _ => (show Signed 64 from time).1
  | product outer inner, time =>
    Sum.elim (outer.values (show Product outer.Time inner.Time from time).outer)
      (inner.values (show Product outer.Time inner.Time from time).inner)

/-- Every integer is in the range of its machine type. -/
def InRange : (kind : BuiltInTime) → (kind.Component → Int) → Prop
  | unit, _ => True
  | usize, numbers => 0 ≤ numbers () ∧ numbers () < 2 ^ 64
  | u32, numbers => 0 ≤ numbers () ∧ numbers () < 2 ^ 32
  | u64, numbers => 0 ≤ numbers () ∧ numbers () < 2 ^ 64
  | i32, numbers => -2 ^ 31 ≤ numbers () ∧ numbers () < 2 ^ 31
  | i64, numbers => -2 ^ 63 ≤ numbers () ∧ numbers () < 2 ^ 63
  | product outer inner, numbers =>
    outer.InRange (fun component => numbers (Sum.inl component)) ∧
      inner.InRange fun component => numbers (Sum.inr component)

/-- How the operations of a built-in timestamp act on its integers. -/
structure Arithmetic (kind : BuiltInTime) : Prop where
  followedBy : ∀ first second sum : kind.Time,
    followedBy first second = some sum ↔ kind.values sum = kind.values first + kind.values second
  resultsIn : ∀ summary src result : kind.Time,
    resultsIn summary src = some result ↔ kind.values result = kind.values src + kind.values summary
  identity : kind.values identity = 0
  inRange : ∀ numbers, kind.InRange numbers ↔ ∃ time, kind.values time = numbers
  le : ∀ first second : kind.Time, first ≤ second ↔ kind.values first ≤ kind.values second

theorem unsigned_inRange {width : Nat} (numbers : Unit → Int) :
    (0 ≤ numbers () ∧ numbers () < 2 ^ width) ↔
      ∃ time : Unsigned width, (fun _ => (time.val : Int)) = numbers := by
  constructor
  · intro fits
    have below : (numbers ()).toNat < 2 ^ width := by
      apply Int.ofNat_lt.mp
      rw [Int.toNat_of_nonneg fits.1, Int.natCast_pow]
      exact fits.2
    exact ⟨⟨(numbers ()).toNat, below⟩, funext fun _ => Int.toNat_of_nonneg fits.1⟩
  · intro found
    obtain ⟨time, same⟩ := found
    subst same
    refine ⟨Int.natCast_nonneg _, ?_⟩
    have below := Int.ofNat_lt.mpr time.isLt
    exact below

theorem unsigned_sum {width : Nat} {first second sum : Unsigned width} :
    checkedAdd first second = some sum ↔
      (fun _ : Unit => (sum.val : Int)) = (fun _ => (first.val : Int)) + fun _ => (second.val : Int) := by
  rw [checkedAdd_eq_some, funext_iff]
  constructor
  · intro same _
    rw [Pi.add_apply, same, Int.natCast_add]
  · intro same
    have total := same ()
    rw [Pi.add_apply] at total
    omega

theorem signed_sum {width : Nat} {first second sum : Signed width} :
    Signed.checkedAdd first second = some sum ↔ (fun _ : Unit => sum.1) = (fun _ => first.1) + fun _ => second.1 := by
  rw [Signed.checkedAdd_eq_some, funext_iff]
  exact ⟨fun same _ => same, fun same => same ()⟩

theorem signed_inRange (width : Nat) (numbers : Unit → Int) :
    (-2 ^ (width - 1) ≤ numbers () ∧ numbers () < 2 ^ (width - 1)) ↔
      ∃ time : Signed width, (fun _ => time.1) = numbers :=
  ⟨fun fits => ⟨⟨numbers (), fits⟩, rfl⟩, fun ⟨time, same⟩ => same ▸ time.2⟩

theorem const_le {first second : Int} : first ≤ second ↔ (fun _ : Unit => first) ≤ fun _ => second :=
  ⟨fun below _ => below, fun below => below ()⟩

/-- A product has the integers of both components. -/
theorem arithmetic_product {outer inner : BuiltInTime} (outside : outer.Arithmetic) (inside : inner.Arithmetic) :
    (product outer inner).Arithmetic where
  followedBy first second sum := by
    refine (@Product.followedBy_eq_some outer.Time inner.Time _ _ first second sum).trans ?_
    rw [outside.followedBy, inside.followedBy]
    exact ⟨fun both => funext fun component => component.casesOn (congrFun both.1) (congrFun both.2),
      fun same => ⟨funext fun component => congrFun same (Sum.inl component),
        funext fun component => congrFun same (Sum.inr component)⟩⟩
  resultsIn summary src result := by
    refine (Product.resultsIn_eq_some (A := outer.Time) (B := inner.Time)).trans ?_
    rw [outside.resultsIn, inside.resultsIn]
    exact ⟨fun both => funext fun component => component.casesOn (congrFun both.1) (congrFun both.2),
      fun same => ⟨funext fun component => congrFun same (Sum.inl component),
        funext fun component => congrFun same (Sum.inr component)⟩⟩
  identity := funext fun component => component.casesOn (congrFun outside.identity) (congrFun inside.identity)
  inRange numbers := by
    refine (and_congr (outside.inRange _) (inside.inRange _)).trans ?_
    constructor
    · intro both
      obtain ⟨⟨first, isFirst⟩, second, isSecond⟩ := both
      exact ⟨(⟨first, second⟩ : Product outer.Time inner.Time),
        funext fun component => component.casesOn (congrFun isFirst) (congrFun isSecond)⟩
    · intro found
      obtain ⟨time, same⟩ := found
      subst same
      exact ⟨⟨_, rfl⟩, _, rfl⟩
  le first second := by
    refine Product.le_def.trans ?_
    rw [outside.le, inside.le]
    exact ⟨fun both component => component.casesOn both.1 both.2,
      fun below => ⟨fun component => below (Sum.inl component), fun component => below (Sum.inr component)⟩⟩

theorem arithmetic (kind : BuiltInTime) : kind.Arithmetic := by
  induction kind with
  | unit =>
    exact ⟨fun _ _ _ => ⟨fun _ => funext fun component => component.elim, fun _ => rfl⟩,
      fun _ _ _ => ⟨fun _ => funext fun component => component.elim, fun _ => rfl⟩,
      funext fun component => component.elim,
      fun _ => ⟨fun _ => ⟨(), funext fun component => component.elim⟩, fun _ => trivial⟩,
      fun _ _ => ⟨fun _ component => component.elim, fun _ => trivial⟩⟩
  | usize | u32 | u64 =>
    exact ⟨fun _ _ _ => unsigned_sum, fun _ _ _ => unsigned_sum, rfl, unsigned_inRange,
      fun _ _ => Int.ofNat_le.symm.trans const_le⟩
  | i32 =>
    exact ⟨fun _ _ _ => signed_sum, fun _ _ _ => signed_sum, rfl, signed_inRange 32, fun _ _ => const_le⟩
  | i64 =>
    exact ⟨fun _ _ _ => signed_sum, fun _ _ _ => signed_sum, rfl, signed_inRange 64, fun _ _ => const_le⟩
  | product outer inner outside inside => exact arithmetic_product outside inside

/-- The composed summary applied to a time. -/
def composed (kind : BuiltInTime) (first second time : kind.Time) : Option kind.Time :=
  (followedBy first second).bind fun summary => resultsIn summary time

/-- Both summaries applied to a time, one after the other. -/
def sequential (kind : BuiltInTime) (first second time : kind.Time) : Option kind.Time :=
  (resultsIn first time).bind (resultsIn second)

section Composition

variable (kind : BuiltInTime) (first second time result : kind.Time)

theorem composed_eq_some : kind.composed first second time = some result ↔
    kind.InRange (kind.values first + kind.values second) ∧
      kind.values result = kind.values time + kind.values first + kind.values second := by
  unfold composed
  rw [Option.bind_eq_some_iff, kind.arithmetic.inRange]
  simp only [kind.arithmetic.followedBy, kind.arithmetic.resultsIn]
  constructor
  · intro found
    obtain ⟨summary, isSum, isResult⟩ := found
    refine ⟨⟨summary, isSum⟩, ?_⟩
    rw [isResult, isSum, add_assoc]
  · intro found
    obtain ⟨⟨summary, isSum⟩, isResult⟩ := found
    refine ⟨summary, isSum, ?_⟩
    rw [isResult, isSum, add_assoc]

theorem sequential_eq_some : kind.sequential first second time = some result ↔
    kind.InRange (kind.values time + kind.values first) ∧
      kind.values result = kind.values time + kind.values first + kind.values second := by
  unfold sequential
  rw [Option.bind_eq_some_iff, kind.arithmetic.inRange]
  simp only [kind.arithmetic.resultsIn]
  constructor
  · intro found
    obtain ⟨middle, isMiddle, isResult⟩ := found
    refine ⟨⟨middle, isMiddle⟩, ?_⟩
    rw [isResult, isMiddle]
  · intro found
    obtain ⟨⟨middle, isMiddle⟩, isResult⟩ := found
    refine ⟨middle, isMiddle, ?_⟩
    rw [isResult, isMiddle]

/-- The composition law holds exactly if both orders of the additions overflow together wherever the total fits. -/
theorem composed_eq_sequential_iff : kind.composed first second time = kind.sequential first second time ↔
    (kind.InRange (kind.values time + kind.values first + kind.values second) →
      (kind.InRange (kind.values first + kind.values second) ↔ kind.InRange (kind.values time + kind.values first))) := by
  constructor
  · intro same fits
    obtain ⟨total, isTotal⟩ := (kind.arithmetic.inRange _).mp fits
    have left := kind.composed_eq_some first second time total
    have right := kind.sequential_eq_some first second time total
    rw [same] at left
    simp only [isTotal, and_true] at left right
    exact left.symm.trans right
  · intro together
    apply Option.ext
    intro result
    rw [composed_eq_some, sequential_eq_some]
    refine and_congr_left fun isTotal => ?_
    exact together ((kind.arithmetic.inRange _).mpr ⟨result, isTotal⟩)

end Composition

/-- For every built-in timestamp and every nesting of them: the default summary is the identity, the summaries are
monotone, and the composition law holds for exactly those summaries and times whose additions overflow together. -/
theorem laws (kind : BuiltInTime) :
    (∀ time : kind.Time, resultsIn (identity : kind.Time) time = some time) ∧
    (∀ first second time : kind.Time, kind.composed first second time = kind.sequential first second time ↔
      (kind.InRange (kind.values time + kind.values first + kind.values second) →
        (kind.InRange (kind.values first + kind.values second) ↔
          kind.InRange (kind.values time + kind.values first)))) ∧
    ∀ summary early late earlyResult lateResult : kind.Time, early ≤ late → resultsIn summary early = some earlyResult →
      resultsIn summary late = some lateResult → earlyResult ≤ lateResult := by
  refine ⟨fun time => ?_, kind.composed_eq_sequential_iff, fun summary early late earlyResult lateResult below
    isEarly isLate => ?_⟩
  · rw [kind.arithmetic.resultsIn, kind.arithmetic.identity, add_zero]
  · rw [kind.arithmetic.le] at below ⊢
    rw [kind.arithmetic.resultsIn] at isEarly isLate
    rw [isEarly, isLate]
    exact add_le_add below (le_refl _)

/-- Whether a signed integer occurs in the timestamp. -/
def hasSigned : BuiltInTime → Bool
  | i32 => true
  | i64 => true
  | product outer inner => outer.hasSigned || inner.hasSigned
  | _ => false

/-- A sum of natural numbers that fits has parts that fit. -/
theorem unsigned_parts {limit : Int} {time first second : Nat}
    (fits : 0 ≤ (time : Int) + first + second ∧ (time : Int) + first + second < limit) :
    (0 ≤ (first : Int) + second ∧ (first : Int) + second < limit) ∧
      0 ≤ (time : Int) + first ∧ (time : Int) + first < limit := by
  omega

/-- Without a signed integer the composition law holds for all summaries and times. -/
theorem composed_eq_sequential_of_unsigned (kind : BuiltInTime) (unsigned : kind.hasSigned = false)
    (first second time : kind.Time) : kind.composed first second time = kind.sequential first second time := by
  rw [composed_eq_sequential_iff]
  suffices parts : kind.InRange (kind.values time + kind.values first + kind.values second) →
      kind.InRange (kind.values first + kind.values second) ∧ kind.InRange (kind.values time + kind.values first) from
    fun fits => iff_of_true (parts fits).1 (parts fits).2
  induction kind with
  | unit => exact fun _ => ⟨trivial, trivial⟩
  | usize | u32 | u64 => exact unsigned_parts
  | i32 | i64 => cases unsigned
  | product outer inner outside inside =>
    intro fits
    obtain ⟨outerUnsigned, innerUnsigned⟩ := Bool.or_eq_false_iff.mp unsigned
    obtain ⟨outerSum, outerFirst⟩ := outside outerUnsigned _ _ _ fits.1
    obtain ⟨innerSum, innerFirst⟩ := inside innerUnsigned _ _ _ fits.2
    exact ⟨⟨outerSum, innerSum⟩, outerFirst, innerFirst⟩

theorem composed_eq_sequential_nested : (product u32 u64).hasSigned = false ∧ ∀ first second time,
    (product u32 u64).composed first second time = (product u32 u64).sequential first second time :=
  ⟨rfl, composed_eq_sequential_of_unsigned _ rfl⟩

/-- A summary that goes one step back undoes a step forward, but not at the largest time. -/
theorem i32_not_composed :
    i32.composed (show Signed 32 from ⟨1, by decide⟩) (show Signed 32 from ⟨-1, by decide⟩)
        (show Signed 32 from ⟨2147483647, by decide⟩) = some (show Signed 32 from ⟨2147483647, by decide⟩) ∧
      i32.sequential (show Signed 32 from ⟨1, by decide⟩) (show Signed 32 from ⟨-1, by decide⟩)
        (show Signed 32 from ⟨2147483647, by decide⟩) = none :=
  ⟨rfl, rfl⟩

end BuiltInTime

end Instancy
