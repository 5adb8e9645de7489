import Mathlib.Tactic.Common

/-!
# Divisions by words

A division of a double word by a word goes wrong where the word is zero, and a product of words that is
not zero can be zero as a word.
-/

namespace TbsMedia
namespace Lib

/-- `div_u64`, which is `none` where it divides by zero. -/
def divU64 (dividend : UInt64) (divisor : UInt32) : Option UInt64 :=
  if divisor = 0 then none else some (dividend / divisor.toUInt64)

theorem divU64_isSome (dividend : UInt64) (divisor : UInt32) :
    (divU64 dividend divisor).isSome ↔ divisor ≠ 0 := by
  unfold divU64
  split_ifs with h
  · exact ⟨fun h' => (nomatch h'), fun h' => absurd h h'⟩
  · exact ⟨fun _ => h, fun _ => rfl⟩

theorem eq_zero_iff_toNat {w : UInt32} : w = 0 ↔ w.toNat = 0 := UInt32.toNat_inj.symm

/-- A product with `2 ^ 20` is zero exactly if the lower twelve bits are. -/
theorem mul_mega_eq_zero (w : UInt32) : w * 1024 * 1024 = 0 ↔ w.toNat % 4096 = 0 := by
  rw [eq_zero_iff_toNat, UInt32.toNat_mul, UInt32.toNat_mul]
  change w.toNat * 1024 % 4294967296 * 1024 % 4294967296 = 0 ↔ _
  omega

/-- The same with three times that. -/
theorem mul_mega_three_eq_zero (w : UInt32) : w * 1024 * 1024 * 3 = 0 ↔ w.toNat % 4096 = 0 := by
  rw [eq_zero_iff_toNat, UInt32.toNat_mul, UInt32.toNat_mul, UInt32.toNat_mul]
  change w.toNat * 1024 % 4294967296 * 1024 % 4294967296 * 3 % 4294967296 = 0 ↔ _
  omega

end Lib
end TbsMedia
