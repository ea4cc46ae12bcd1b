import Mathlib.Data.List.Basic
import Mathlib.Tactic.Ring

namespace Instancy.Library

/-- The little-endian bytes of a value, cut to the width. -/
def leBytes : Nat → Nat → List UInt8
  | 0, _ => []
  | width + 1, value => UInt8.ofNat value :: leBytes width (value / 256)

/-- The value of little-endian bytes. -/
def leValue : List UInt8 → Nat
  | [] => 0
  | byte :: rest => byte.toNat + 256 * leValue rest

@[simp] theorem leBytes_length (width value : Nat) : (leBytes width value).length = width := by
  induction width generalizing value with
  | zero => rfl
  | succ width ih => rw [leBytes, List.length_cons, ih]

theorem leValue_leBytes (width value : Nat) : leValue (leBytes width value) = value % 256 ^ width := by
  induction width generalizing value with
  | zero => rw [leBytes, leValue, Nat.pow_zero, Nat.mod_one]
  | succ width ih =>
    have low : (UInt8.ofNat value).toNat = value % 256 := UInt8.toNat_ofNat'
    rw [leBytes, leValue, ih, low, Nat.pow_succ, Nat.mul_comm (256 ^ width) 256, Nat.mod_mul]

theorem leValue_leBytes_of_lt {width value : Nat} (fits : value < 256 ^ width) :
    leValue (leBytes width value) = value := by
  rw [leValue_leBytes, Nat.mod_eq_of_lt fits]

theorem leBytes_injective {width first second : Nat} (left : first < 256 ^ width) (right : second < 256 ^ width)
    (same : leBytes width first = leBytes width second) : first = second := by
  have values := congrArg leValue same
  rwa [leValue_leBytes_of_lt left, leValue_leBytes_of_lt right] at values

/-- The bytes at an offset of a longer list. -/
theorem drop_take_append {first middle last : List UInt8} {offset width : Nat} (start : first.length = offset)
    (size : middle.length = width) : ((first ++ middle ++ last).drop offset).take width = middle := by
  rw [List.append_assoc, ← start, List.drop_left, ← size, List.take_left]

/-- One list is the start of another one and is not all of it. -/
def ProperPrefix (front bytes : List UInt8) : Prop := front <+: bytes ∧ front ≠ bytes

theorem ProperPrefix.length_lt {front bytes : List UInt8} (proper : ProperPrefix front bytes) :
    front.length < bytes.length := by
  obtain ⟨⟨rest, rfl⟩, shorter⟩ := proper
  have more : rest ≠ [] := fun empty => shorter (by rw [empty, List.append_nil])
  have size := List.length_pos_of_ne_nil more
  rw [List.length_append]
  omega

/-- A proper prefix ends inside the first part or inside the second one. -/
theorem ProperPrefix.append_cases {front first second : List UInt8} (proper : ProperPrefix front (first ++ second)) :
    ProperPrefix front first ∨ ∃ more, front = first ++ more ∧ ProperPrefix more second := by
  obtain ⟨⟨rest, whole⟩, shorter⟩ := proper
  rcases List.append_eq_append_iff.mp whole with ⟨gap, inside, _⟩ | ⟨more, outside, tail⟩
  · by_cases empty : gap = []
    · refine Or.inr ⟨[], ?_, ⟨List.nil_prefix, ?_⟩⟩
      · rw [inside, empty, List.append_nil, List.append_nil]
      · intro none
        exact shorter (by rw [inside, empty, ← none, List.append_nil, List.append_nil])
    · refine Or.inl ⟨⟨gap, inside.symm⟩, fun same => empty ?_⟩
      rwa [same, List.self_eq_append_right] at inside
  · refine Or.inr ⟨more, outside, ⟨rest, tail.symm⟩, fun same => shorter ?_⟩
    rw [outside, same]

theorem ProperPrefix.not_nil {front : List UInt8} (proper : ProperPrefix front []) : False :=
  absurd proper.length_lt (Nat.not_lt_zero _)

section Chunks

variable {A : Type}

/-- The list in pieces of a given size; the fuel bounds the number of pieces. -/
def chunksOf (size : Nat) : Nat → List A → List (List A)
  | 0, _ => []
  | fuel + 1, items => if items.isEmpty then [] else items.take size :: chunksOf size fuel (items.drop size)

theorem chunksOf_flatten {size : Nat} (positive : 1 ≤ size) (fuel : Nat) (items : List A)
    (enough : items.length ≤ fuel) : (chunksOf size fuel items).flatten = items := by
  induction fuel generalizing items with
  | zero => rw [chunksOf, List.eq_nil_of_length_eq_zero (Nat.le_zero.mp enough), List.flatten_nil]
  | succ fuel ih =>
    unfold chunksOf
    cases items with
    | nil => rfl
    | cons head rest =>
      rw [List.isEmpty_cons, if_neg Bool.false_ne_true, List.flatten_cons, ih, List.take_append_drop]
      rw [List.length_cons] at enough
      rw [List.length_drop, List.length_cons]
      omega

theorem chunksOf_length {size : Nat} (fuel : Nat) (items : List A) :
    ∀ chunk ∈ chunksOf size fuel items, chunk.length ≤ size := by
  induction fuel generalizing items with
  | zero => exact nofun
  | succ fuel ih =>
    unfold chunksOf
    split
    · exact nofun
    · intro chunk member
      rcases List.mem_cons.mp member with same | later
      · rw [same, List.length_take]
        exact Nat.min_le_left _ _
      · exact ih _ chunk later

theorem map_chunksOf {B : Type} (f : A → B) (size fuel : Nat) (items : List A) :
    chunksOf size fuel (items.map f) = (chunksOf size fuel items).map (List.map f) := by
  induction fuel generalizing items with
  | zero => rfl
  | succ fuel ih =>
    unfold chunksOf
    rw [List.isEmpty_map]
    split
    · rfl
    · rw [List.map_cons, List.map_take, ← List.map_drop, ih]

end Chunks

end Instancy.Library
