import Mathlib.Data.BitVec

namespace Instancy.Library

variable {later : Nat}

section WrappingIndex

variable {width : Nat}

/-- The index that is the given number of steps after the start. -/
def wrappingIndex (start : BitVec width) (steps : Nat) : BitVec width := start + BitVec.ofNat width steps

variable (start : BitVec width)

@[simp] theorem wrappingIndex_zero : wrappingIndex start 0 = start := by
  simp [wrappingIndex]

theorem wrappingIndex_add (steps more : Nat) :
    wrappingIndex start steps + BitVec.ofNat width more = wrappingIndex start (steps + more) := by
  simp [wrappingIndex, BitVec.ofNat_add, BitVec.add_assoc]

theorem wrappingIndex_succ (steps : Nat) :
    wrappingIndex start steps + 1 = wrappingIndex start (steps + 1) :=
  wrappingIndex_add start steps 1

theorem wrappingIndex_toNat (steps : Nat) :
    (wrappingIndex start steps).toNat = (start.toNat + steps) % 2 ^ width := by
  simp [wrappingIndex]

variable {earlier bits : Nat}

/-- The distance of two indices is the number of steps between them. -/
theorem wrappingIndex_sub (order : earlier ≤ later) :
    wrappingIndex start later - wrappingIndex start earlier = BitVec.ofNat width (later - earlier) := by
  obtain ⟨steps, same⟩ := Nat.exists_eq_add_of_le order
  subst same
  rw [← wrappingIndex_add, BitVec.add_comm, BitVec.add_sub_cancel, Nat.add_sub_cancel_left]

theorem wrappingIndex_distance (order : earlier ≤ later) (near : later - earlier < 2 ^ width) :
    (wrappingIndex start later - wrappingIndex start earlier).toNat = later - earlier := by
  rw [wrappingIndex_sub start order, BitVec.toNat_ofNat, Nat.mod_eq_of_lt near]

theorem wrappingIndex_inj (order : earlier ≤ later)
    (near : later - earlier < 2 ^ width) : wrappingIndex start earlier = wrappingIndex start later ↔ earlier = later := by
  constructor
  · intro same
    have distance := wrappingIndex_distance start order near
    rw [same, BitVec.sub_self] at distance
    simp only [BitVec.toNat_zero] at distance
    omega
  · intro same
    rw [same]

/-- The mask of a ring of a power of two. -/
def ringMask (width bits : Nat) : BitVec width := BitVec.ofNat width (2 ^ bits - 1)

theorem and_ringMask_toNat (index : BitVec width) (fits : bits ≤ width) :
    (index &&& ringMask width bits).toNat = index.toNat % 2 ^ bits := by
  have small : 2 ^ bits - 1 < 2 ^ width := by
    have positive := Nat.two_pow_pos bits
    have bound := Nat.pow_le_pow_right (show 0 < 2 by decide) fits
    omega
  rw [BitVec.toNat_and, ringMask, BitVec.toNat_ofNat, Nat.mod_eq_of_lt small, Nat.and_two_pow_sub_one_eq_mod]

theorem wrappingIndex_slot (steps : Nat) (fits : bits ≤ width) :
    (wrappingIndex start steps &&& ringMask width bits).toNat = (start.toNat + steps) % 2 ^ bits := by
  rw [and_ringMask_toNat _ fits, wrappingIndex_toNat, Nat.mod_mod_of_dvd _ (Nat.pow_dvd_pow 2 fits)]

/-- Fewer steps than the ring has slots lead to another slot, across the wrap of the index. -/
theorem wrappingIndex_slot_ne (fits : bits ≤ width) (order : earlier < later) (near : later - earlier < 2 ^ bits) :
    wrappingIndex start earlier &&& ringMask width bits ≠ wrappingIndex start later &&& ringMask width bits := by
  intro same
  have slots := congrArg BitVec.toNat same
  rw [wrappingIndex_slot start earlier fits, wrappingIndex_slot start later fits] at slots
  have divides : 2 ^ bits ∣ (start.toNat + later) - (start.toNat + earlier) :=
    (Nat.modEq_iff_dvd' (by omega)).mp slots
  have small := Nat.le_of_dvd (by omega) divides
  omega

end WrappingIndex

end Instancy.Library
