import Mathlib.Data.Finite.Prod
import Mathlib.Order.WellQuasiOrder

namespace Instancy

/-- This class is the total order of `Ord`, kept apart from the partial order `≤`. -/
class TotalOrd (A : Type) where
  ordLe : A → A → Prop
  decEq : DecidableEq A
  decOrdLe : DecidableRel ordLe
  ordLe_total : ∀ a b, ordLe a b ∨ ordLe b a
  ordLe_trans : ∀ a b c, ordLe a b → ordLe b c → ordLe a c
  ordLe_antisymm : ∀ a b, ordLe a b → ordLe b a → a = b

export TotalOrd (ordLe)

instance (priority := 50) {A : Type} [TotalOrd A] : DecidableEq A := TotalOrd.decEq

instance {A : Type} [TotalOrd A] : DecidableRel (ordLe : A → A → Prop) := TotalOrd.decOrdLe

section TotalOrd

variable {A : Type} [TotalOrd A]

theorem ordLe_refl (a : A) : ordLe a a := (TotalOrd.ordLe_total a a).elim id id

variable {a b c : A}

theorem ordLe_of_not (above : ¬ ordLe a b) : ordLe b a :=
  (TotalOrd.ordLe_total a b).resolve_left above

instance : Std.Total (ordLe : A → A → Prop) := ⟨TotalOrd.ordLe_total⟩

instance : IsTrans A ordLe := ⟨TotalOrd.ordLe_trans⟩

/-- This is the strict part of `Ord`. -/
def OrdLt (a b : A) : Prop := ordLe a b ∧ a ≠ b

instance (a b : A) : Decidable (OrdLt a b) := inferInstanceAs (Decidable (_ ∧ _))

theorem OrdLt.trans (first : OrdLt a b) (second : OrdLt b c) : OrdLt a c := by
  refine ⟨TotalOrd.ordLe_trans _ _ _ first.1 second.1, ?_⟩
  intro same
  subst c
  exact first.2 (TotalOrd.ordLe_antisymm _ _ first.1 second.1)

theorem OrdLt.irrefl (a : A) : ¬ OrdLt a a := fun below => below.2 rfl

theorem OrdLt.trans_le (first : OrdLt a b) (second : ordLe b c) : OrdLt a c := by
  refine ⟨TotalOrd.ordLe_trans _ _ _ first.1 second, ?_⟩
  intro same
  subst c
  exact first.2 (TotalOrd.ordLe_antisymm _ _ first.1 second)

theorem ordLe.trans_lt (first : ordLe a b) (second : OrdLt b c) : OrdLt a c := by
  refine ⟨TotalOrd.ordLe_trans _ _ _ first second.1, ?_⟩
  intro same
  subst c
  exact second.2 (TotalOrd.ordLe_antisymm _ _ second.1 first)

theorem OrdLt.not_le (below : OrdLt a b) : ¬ ordLe b a :=
  fun back => below.2 (TotalOrd.ordLe_antisymm _ _ below.1 back)

theorem ordLt_of_not_le (above : ¬ ordLe b a) : OrdLt a b := by
  refine ⟨ordLe_of_not above, ?_⟩
  intro same
  subst b
  exact above (ordLe_refl a)

theorem ordLt_or_eq_of_le (below : ordLe a b) : OrdLt a b ∨ a = b := by
  by_cases same : a = b
  · exact Or.inr same
  · exact Or.inl ⟨below, same⟩

end TotalOrd

/-- A type with a Mathlib linear order uses it as its `Ord`. -/
@[reducible] def TotalOrd.ofLinearOrder (A : Type) [LinearOrder A] : TotalOrd A where
  ordLe a b := a ≤ b
  decEq := inferInstance
  decOrdLe := inferInstance
  ordLe_total := le_total
  ordLe_trans _ _ _ := le_trans
  ordLe_antisymm _ _ := le_antisymm

instance : TotalOrd Nat := TotalOrd.ofLinearOrder Nat
instance : TotalOrd Int := TotalOrd.ofLinearOrder Int
instance {bound : Nat} : TotalOrd (Fin bound) := TotalOrd.ofLinearOrder (Fin bound)

section Lexicographic

variable {A B : Type} [TotalOrd A] [TotalOrd B]

/-- The second component decides only when the first ones are equal. -/
def lexLe (first : A × B) (second : A × B) : Prop :=
  ordLe first.1 second.1 ∧ (ordLe second.1 first.1 → ordLe first.2 second.2)

/-- Tuples use the lexicographic order. -/
instance : TotalOrd (A × B) where
  ordLe := lexLe
  decEq := inferInstance
  decOrdLe first second := inferInstanceAs (Decidable (_ ∧ (_ → _)))
  ordLe_total first second := by
    rcases TotalOrd.ordLe_total first.1 second.1 with forward | backward
    · by_cases back : ordLe second.1 first.1
      · rcases TotalOrd.ordLe_total first.2 second.2 with low | high
        · exact Or.inl ⟨forward, fun _ => low⟩
        · exact Or.inr ⟨back, fun _ => high⟩
      · exact Or.inl ⟨forward, fun contrary => absurd contrary back⟩
    · by_cases ahead : ordLe first.1 second.1
      · rcases TotalOrd.ordLe_total first.2 second.2 with low | high
        · exact Or.inl ⟨ahead, fun _ => low⟩
        · exact Or.inr ⟨backward, fun _ => high⟩
      · exact Or.inr ⟨backward, fun contrary => absurd contrary ahead⟩
  ordLe_trans first second third low high := by
    refine ⟨TotalOrd.ordLe_trans _ _ _ low.1 high.1, fun back => ?_⟩
    have secondBack := TotalOrd.ordLe_trans _ _ _ high.1 back
    have thirdBack := TotalOrd.ordLe_trans _ _ _ back low.1
    exact TotalOrd.ordLe_trans _ _ _ (low.2 secondBack) (high.2 thirdBack)
  ordLe_antisymm first second low high :=
    Prod.ext (TotalOrd.ordLe_antisymm _ _ low.1 high.1)
      (TotalOrd.ordLe_antisymm _ _ (low.2 high.1) (high.2 low.1))

end Lexicographic

/-- The comparison through an injective key keeps the laws of `Ord`. -/
@[reducible] def TotalOrd.ofKey {A B : Type} [TotalOrd B] [DecidableEq A] (key : A → B)
    (injective : Function.Injective key) : TotalOrd A where
  ordLe a b := ordLe (key a) (key b)
  decEq := inferInstance
  decOrdLe a b := inferInstanceAs (Decidable (ordLe (key a) (key b)))
  ordLe_total _ _ := TotalOrd.ordLe_total _ _
  ordLe_trans _ _ _ := TotalOrd.ordLe_trans _ _ _
  ordLe_antisymm _ _ low high := injective (TotalOrd.ordLe_antisymm _ _ low high)

/-- This class joins the `PartialOrder` and `Ord` traits: `Ord` is a linear extension. -/
class TimeOrder (T : Type) extends PartialOrder T, TotalOrd T where
  decLe : DecidableLE T
  extension : ∀ a b : T, a ≤ b → ordLe a b

instance timeDecLE {T : Type} [TimeOrder T] : DecidableLE T := TimeOrder.decLe

instance timeDecLT {T : Type} [TimeOrder T] : DecidableLT T := fun a b =>
  decidable_of_iff (a ≤ b ∧ ¬ b ≤ a) lt_iff_le_not_ge.symm

theorem ordLe_of_le {T : Type} [TimeOrder T] {a b : T} (below : a ≤ b) : ordLe a b :=
  TimeOrder.extension a b below

/-- A type with a linear order is its own linear extension. -/
@[reducible] def TimeOrder.ofLinearOrder (T : Type) [LinearOrder T] : TimeOrder T where
  toPartialOrder := inferInstance
  toTotalOrd := TotalOrd.ofLinearOrder T
  decLe := inferInstance
  extension _ _ := id

instance : TimeOrder Nat := TimeOrder.ofLinearOrder Nat
instance {bound : Nat} : TimeOrder (Fin bound) := TimeOrder.ofLinearOrder (Fin bound)

/-- A product pairs an outer time with an inner time. -/
structure Product (TOuter TInner : Type) where
  outer : TOuter
  inner : TInner
  deriving DecidableEq, Repr

namespace Product

variable {A B : Type}

variable {first second : Product A B}

theorem ext_iff' :
    first = second ↔ first.outer = second.outer ∧ first.inner = second.inner := by
  cases first; cases second; simp

/-- The partial order compares both components. -/
instance [PartialOrder A] [PartialOrder B] : PartialOrder (Product A B) where
  le first second := first.outer ≤ second.outer ∧ first.inner ≤ second.inner
  le_refl _ := ⟨le_refl _, le_refl _⟩
  le_trans _ _ _ low high := ⟨low.1.trans high.1, low.2.trans high.2⟩
  le_antisymm _ _ low high :=
    ext_iff'.mpr ⟨le_antisymm low.1 high.1, le_antisymm low.2 high.2⟩

theorem le_def [PartialOrder A] [PartialOrder B] :
    first ≤ second ↔ first.outer ≤ second.outer ∧ first.inner ≤ second.inner := Iff.rfl

instance [PartialOrder A] [PartialOrder B] [DecidableLE A] [DecidableLE B] :
    DecidableLE (Product A B) := fun _ _ => inferInstanceAs (Decidable (_ ∧ _))

/-- The components of a product, as the tuple that `Ord` compares. -/
def toTuple (pair : Product A B) : A × B := (pair.outer, pair.inner)

theorem toTuple_injective : Function.Injective (toTuple : Product A B → A × B) := by
  intro first second same
  exact ext_iff'.mpr ⟨congrArg Prod.fst same, congrArg Prod.snd same⟩

instance [Finite A] [Finite B] : Finite (Product A B) := Finite.of_injective toTuple toTuple_injective

instance [TotalOrd A] [TotalOrd B] : TotalOrd (Product A B) :=
  TotalOrd.ofKey toTuple toTuple_injective

/-- The lexicographic order extends the component-wise order. -/
instance [TimeOrder A] [TimeOrder B] : TimeOrder (Product A B) where
  toPartialOrder := inferInstance
  toTotalOrd := inferInstance
  decLe := inferInstance
  extension _ _ below := ⟨ordLe_of_le below.1, fun _ => ordLe_of_le below.2⟩

/-- A strict step moves one component strictly and keeps the other one below. -/
instance [PartialOrder A] [PartialOrder B] [WellFoundedLT A] [WellFoundedLT B] :
    WellFoundedLT (Product A B) := by
  refine ⟨Subrelation.wf ?_ (InvImage.wf toTuple (wellFounded_lt : WellFounded (α := A × B) (· < ·)))⟩
  intro first second below
  have apart : first.toTuple ≤ second.toTuple := below.le
  exact lt_of_le_of_ne apart (fun same => below.ne (toTuple_injective same))

/-- Every sequence of products has an element below a later one, because every sequence of tuples has. -/
instance [PartialOrder A] [PartialOrder B] [WellQuasiOrderedLE A] [WellQuasiOrderedLE B] :
    WellQuasiOrderedLE (Product A B) := by
  refine ⟨fun sequence => ?_⟩
  obtain ⟨early, late, before, below⟩ := wellQuasiOrdered_le fun index => (sequence index).toTuple
  exact ⟨early, late, before, below⟩

end Product

end Instancy
