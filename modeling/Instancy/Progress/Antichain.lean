import Instancy.Order
import Instancy.Library.Frontier

namespace Instancy

open Library

/-- No two elements of an antichain are comparable. -/
structure Antichain (T : Type) [PartialOrder T] where
  elements : List T
  incomparable : elements.Pairwise Incomparable

namespace Antichain

variable {T : Type} [PartialOrder T]

def new : Antichain T := ⟨[], List.Pairwise.nil⟩

def fromElem (element : T) : Antichain T := ⟨[element], List.pairwise_singleton _ element⟩

def isEmpty (antichain : Antichain T) : Bool := antichain.elements.isEmpty

variable [DecidableLE T]

def lessEqual (antichain : Antichain T) (time : T) : Bool :=
  antichain.elements.any fun element => element ≤ time

variable (antichain : Antichain T)

theorem lessEqual_iff (time : T) :
    antichain.lessEqual time = true ↔ ∃ element ∈ antichain.elements, element ≤ time := by
  unfold lessEqual
  simp only [List.any_eq_true, decide_eq_true_eq]

theorem lessEqual_mono {antichain : Antichain T} {earlier later : T} (covers : antichain.lessEqual earlier = true)
    (below : earlier ≤ later) : antichain.lessEqual later = true := by
  obtain ⟨element, member, under⟩ := (antichain.lessEqual_iff earlier).mp covers
  exact (antichain.lessEqual_iff later).mpr ⟨element, member, le_trans under below⟩

/-- The element joins the ones it does not evict. -/
theorem insert_incomparable {antichain : Antichain T} {element : T}
    (fresh : ¬ antichain.lessEqual element = true) :
    (antichain.elements.filter (fun other => ¬ element ≤ other) ++ [element]).Pairwise Incomparable := by
  rw [List.pairwise_append]
  refine ⟨antichain.incomparable.filter _, List.pairwise_singleton _ element, ?_⟩
  intro other kept last isLast
  rw [List.mem_singleton.mp isLast]
  obtain ⟨member, above⟩ := List.mem_filter.mp kept
  exact ⟨fun under => fresh ((antichain.lessEqual_iff element).mpr ⟨other, member, under⟩),
    of_decide_eq_true above⟩

/-- A covered element is refused; otherwise it evicts the elements above it. -/
def insert (antichain : Antichain T) (element : T) : Bool × Antichain T :=
  if fresh : antichain.lessEqual element = true then (false, antichain)
  else (true, ⟨antichain.elements.filter (fun other => ¬ element ≤ other) ++ [element], insert_incomparable fresh⟩)

def extend (antichain : Antichain T) (items : List T) : Antichain T :=
  items.foldl (fun current element => (current.insert element).2) antichain

def fromElemIter (items : List T) : Antichain T := new.extend items

/-- This is `==`: the order of the elements does not count. -/
def sameElements [DecidableEq T] (antichain other : Antichain T) : Bool :=
  antichain.elements.length == other.elements.length &&
    (antichain.elements == other.elements || antichain.elements.all fun element => other.elements.contains element)

@[simp] theorem new_lessEqual (time : T) : (new : Antichain T).lessEqual time = false := rfl

@[simp] theorem fromElem_lessEqual (element time : T) :
    (fromElem element).lessEqual time = true ↔ element ≤ time := by
  simp [lessEqual_iff, fromElem]

/-- Insertion adds exactly the times above the element. -/
theorem insert_lessEqual (element time : T) :
    (antichain.insert element).2.lessEqual time = true ↔ antichain.lessEqual time = true ∨ element ≤ time := by
  unfold insert
  split
  · rename_i covered
    constructor
    · exact Or.inl
    · intro either
      rcases either with held | above
      · exact held
      · obtain ⟨below, member, under⟩ := (antichain.lessEqual_iff element).mp covered
        exact (antichain.lessEqual_iff time).mpr ⟨below, member, under.trans above⟩
  · rw [lessEqual_iff, lessEqual_iff]
    simp only [List.mem_append, List.mem_filter, List.mem_singleton, decide_eq_true_eq]
    constructor
    · intro found
      obtain ⟨other, kept | same, under⟩ := found
      · exact Or.inl ⟨other, kept.1, under⟩
      · exact Or.inr (same ▸ under)
    · intro either
      rcases either with found | above
      · obtain ⟨other, member, under⟩ := found
        by_cases evicted : element ≤ other
        · exact ⟨element, Or.inr rfl, evicted.trans under⟩
        · exact ⟨other, Or.inl ⟨member, evicted⟩, under⟩
      · exact ⟨element, Or.inr rfl, above⟩

theorem extend_lessEqual (items : List T) (time : T) :
    (antichain.extend items).lessEqual time = true ↔
      antichain.lessEqual time = true ∨ ∃ element ∈ items, element ≤ time := by
  unfold extend
  induction items generalizing antichain with
  | nil => simp
  | cons element rest ih =>
    rw [List.foldl_cons, ih, insert_lessEqual]
    simp only [List.mem_cons, exists_eq_or_imp, or_assoc]

theorem fromElemIter_lessEqual (items : List T) (time : T) :
    (fromElemIter items).lessEqual time = true ↔ ∃ element ∈ items, element ≤ time := by
  rw [fromElemIter, extend_lessEqual]
  simp

end Antichain

end Instancy
