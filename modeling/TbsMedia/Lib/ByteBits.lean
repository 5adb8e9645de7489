import Mathlib

/-!
# Bits of little-endian bytes

A list of bytes is a sequence of bits, the lowest bit of each byte first.

* `bitAt`: the bit at a position.
* `field`: the number that the bits from a position on have; `field_add` splits it.
-/

namespace TbsMedia
namespace Lib
namespace ByteBits

/-- A bit of little-endian data. -/
def bitAt (data : List UInt8) (j : ℕ) : Bool := (data.getD (j / 8) 0).toBitVec.getLsbD (j % 8)

theorem bitAt_cons_of_lt {d : UInt8} {data : List UInt8} {j : ℕ} (h : j < 8) :
    bitAt (d :: data) j = d.toBitVec.getLsbD j := by
  unfold bitAt
  rw [Nat.div_eq_of_lt h, Nat.mod_eq_of_lt h]
  rfl

theorem bitAt_cons_add (d : UInt8) (data : List UInt8) (j : ℕ) : bitAt (d :: data) (j + 8) = bitAt data j := by
  unfold bitAt
  rw [Nat.add_div_right _ (by decide), Nat.add_mod_right]
  rfl

theorem bitAt_drop (data : List UInt8) (n j : ℕ) : bitAt (data.drop n) j = bitAt data (8 * n + j) := by
  unfold bitAt
  rw [List.getD_eq_getElem?_getD, List.getElem?_drop, ← List.getD_eq_getElem?_getD, Nat.mul_add_div (by decide),
    Nat.mul_add_mod]

/-- The bits of a byte of the list. -/
theorem testBit_byte {data : List UInt8} {n : ℕ} {d : UInt8} (h : data[n]? = some d) {j : ℕ} (hj : j < 8) :
    d.toNat.testBit j = bitAt data (8 * n + j) := by
  unfold bitAt
  rw [Nat.mul_add_div (by decide), Nat.div_eq_of_lt hj, Nat.mul_add_mod, Nat.mod_eq_of_lt hj,
    List.getD_eq_getElem?_getD, Nat.add_zero, h]
  rfl

/-- The number in `n` bits from the position `p` on. -/
def field (data : List UInt8) (p n : ℕ) : ℕ := Nat.ofBits fun k : Fin n => bitAt data (p + k)

theorem testBit_field (data : List UInt8) (p n k : ℕ) :
    (field data p n).testBit k = (decide (k < n) && bitAt data (p + k)) := by
  unfold field
  rw [Nat.testBit_ofBits]
  split
  · rw [decide_eq_true ‹_›, Bool.true_and]
  · rw [decide_eq_false ‹_›, Bool.false_and]

theorem field_lt (data : List UInt8) (p n : ℕ) : field data p n < 2 ^ n := Nat.ofBits_lt_two_pow _

/-- A number is the one in its lower bits and the one in the bits above them. -/
theorem field_add (data : List UInt8) (p m n : ℕ) :
    field data p (m + n) = field data p m ||| field data (p + m) n <<< m := by
  refine Nat.eq_of_testBit_eq fun k => ?_
  rw [Nat.testBit_or, Nat.testBit_shiftLeft, testBit_field, testBit_field, testBit_field]
  by_cases hk : k < m
  · have hle : ¬ m ≤ k := by omega
    have hlt : k < m + n := by omega
    simp [hk, hle, hlt]
  · obtain ⟨j, rfl⟩ := Nat.exists_eq_add_of_le (not_lt.mp hk)
    simp [Nat.add_assoc]

end ByteBits
end Lib
end TbsMedia
