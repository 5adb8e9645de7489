import Mathlib.Data.Nat.Bitwise

/-!
# Fields of a word

A field is cut out of a word with a mask and a shift, and put into it with a shift and an `or`.

* `land_shiftRight`, `land_eq_zero_iff`: a field is a quotient and a remainder.
* `shiftLeft_lor`: words are put together as sums.
* `land_mod`: the bits that a mask looks at.
-/

namespace TbsMedia
namespace Lib

/-- A field of `k` bits from bit `s` on. -/
theorem land_shiftRight {mask s k : ℕ} (h : mask >>> s = 2 ^ k - 1) (x : ℕ) :
    (x &&& mask) >>> s = x / 2 ^ s % 2 ^ k := by
  rw [Nat.shiftRight_and_distrib, h, Nat.and_two_pow_sub_one_eq_mod, Nat.shiftRight_eq_div_pow]

/-- A field where it stands. -/
theorem land_eq_shiftLeft {mask s k : ℕ} (h : mask = (2 ^ k - 1) <<< s) (x : ℕ) :
    x &&& mask = (x / 2 ^ s % 2 ^ k) <<< s := by
  rw [h, ← Nat.and_two_pow_sub_one_eq_mod, ← Nat.shiftRight_eq_div_pow]
  refine Nat.eq_of_testBit_eq fun i => ?_
  rw [Nat.testBit_and, Nat.testBit_shiftLeft, Nat.testBit_shiftLeft, Nat.testBit_and,
    Nat.testBit_shiftRight]
  by_cases hi : s ≤ i
  · rw [decide_eq_true hi, Nat.add_sub_cancel' hi, Bool.true_and, Bool.true_and]
  · rw [decide_eq_false hi, Bool.false_and, Bool.false_and, Bool.and_false]

/-- A single bit. -/
theorem land_eq_zero_iff {mask s : ℕ} (h : mask = 2 ^ s) (x : ℕ) :
    x &&& mask = 0 ↔ x / 2 ^ s % 2 = 0 := by
  rw [h, Nat.and_two_pow, Nat.mul_eq_zero, Nat.toNat_testBit]
  exact or_iff_left (Nat.two_pow_pos s).ne'

/-- A field in front of `s` lower bits. -/
theorem shiftLeft_lor {b s : ℕ} (h : b < 2 ^ s) (a : ℕ) : a <<< s ||| b = a * 2 ^ s + b := by
  rw [← Nat.shiftLeft_add_eq_or_of_lt h, Nat.shiftLeft_eq]

/-- A mask of low bits looks at a remainder. -/
theorem land_mod {mask k : ℕ} (h : (2 ^ k - 1) &&& mask = mask) (x : ℕ) :
    x % 2 ^ k &&& mask = x &&& mask := by
  rw [← Nat.and_two_pow_sub_one_eq_mod, Nat.land_assoc, h]

/-- A word that has only the bits of `mask` is looked at with any mask that agrees on these. -/
theorem land_land_of_subset {x mask m m' : ℕ} (hx : x &&& mask = x) (h : mask &&& m = mask &&& m') :
    x &&& m = x &&& m' := by
  rw [← hx, Nat.land_assoc, h, ← Nat.land_assoc]

/-- Two fields side by side are as wide as both of them. -/
theorem mul_add_lt_two_pow {k j b c : ℕ} (hb : b < 2 ^ k) (hc : c < 2 ^ j) : b * 2 ^ j + c < 2 ^ (k + j) := by
  calc b * 2 ^ j + c < b * 2 ^ j + 2 ^ j := Nat.add_lt_add_left hc _
    _ = (b + 1) * 2 ^ j := (Nat.succ_mul _ _).symm
    _ ≤ 2 ^ k * 2 ^ j := Nat.mul_le_mul_right _ hb
    _ = 2 ^ (k + j) := (Nat.pow_add 2 k j).symm

/-- The upper of two fields side by side. -/
theorem mul_add_div_two_pow {j c : ℕ} (hc : c < 2 ^ j) (b : ℕ) : (b * 2 ^ j + c) / 2 ^ j = b := by
  rw [Nat.add_comm, Nat.add_mul_div_right _ _ (Nat.two_pow_pos j), Nat.div_eq_of_lt hc, Nat.zero_add]

/-- The lower of two fields side by side. -/
theorem mul_add_mod_two_pow {j c : ℕ} (hc : c < 2 ^ j) (b : ℕ) : (b * 2 ^ j + c) % 2 ^ j = c := by
  rw [Nat.mul_add_mod_self_right, Nat.mod_eq_of_lt hc]

end Lib
end TbsMedia
