import Mathlib.Data.Nat.Basic
import Mathlib.Order.Monotone.Basic
import Mathlib.Tactic.LinearCombination
import Mathlib.Tactic.Ring

/-!
# Linear interpolation in whole numbers

A table has values at equidistant points, `c * m` apart.  Between two of them the value is interpolated,
`m` times finer than the table and rounded down.

* `interpolate_knot`: at the points of the table it is the table.
* `interpolate_mono`: it is monotone if the table is.

* `numerator_of_collinear`: between two points the value on their line comes out without a remainder.
-/

namespace TbsMedia
namespace Lib

variable {T : ℕ → ℕ} {c m s s' : ℕ}

/-- The table `T`, `m` times finer. -/
def interpolate (T : ℕ → ℕ) (c m s : ℕ) : ℕ :=
  T (s / (c * m)) * m + s % (c * m) * (T (s / (c * m) + 1) - T (s / (c * m))) / c

/-- **At the points of the table** there is nothing to interpolate. -/
theorem interpolate_knot (T : ℕ → ℕ) (hpos : 0 < c * m) (e : ℕ) :
    interpolate T c m (c * m * e) = T e * m := by
  unfold interpolate
  rw [Nat.mul_div_cancel_left _ hpos, Nat.mul_mod_right, Nat.zero_mul, Nat.zero_div, Nat.add_zero]

/-- What is interpolated does not go beyond the next point. -/
theorem interpolate_le (hT : Monotone T) (hpos : 0 < c * m) (s : ℕ) :
    interpolate T c m s ≤ T (s / (c * m) + 1) * m := by
  have hc : 0 < c := Nat.pos_of_mul_pos_right hpos
  have hle : T (s / (c * m)) ≤ T (s / (c * m) + 1) := hT (Nat.le_succ _)
  have hrest : s % (c * m) * (T (s / (c * m) + 1) - T (s / (c * m))) / c ≤
      m * (T (s / (c * m) + 1) - T (s / (c * m))) := by
    refine Nat.div_le_of_le_mul ?_
    rw [← Nat.mul_assoc]
    exact Nat.mul_le_mul_right _ (Nat.mod_lt s hpos).le
  calc interpolate T c m s
      ≤ T (s / (c * m)) * m + m * (T (s / (c * m) + 1) - T (s / (c * m))) := Nat.add_le_add_left hrest _
    _ = T (s / (c * m) + 1) * m := by
        rw [Nat.mul_comm _ m, ← Nat.mul_add, Nat.add_sub_cancel' hle, Nat.mul_comm]

/-- Nor does it reach it, where the table goes up. -/
theorem interpolate_lt (hpos : 0 < c * m) (hT : T (s / (c * m)) < T (s / (c * m) + 1)) :
    interpolate T c m s < T (s / (c * m) + 1) * m := by
  have hc : 0 < c := Nat.pos_of_mul_pos_right hpos
  have hrest : s % (c * m) * (T (s / (c * m) + 1) - T (s / (c * m))) / c <
      m * (T (s / (c * m) + 1) - T (s / (c * m))) := by
    refine Nat.div_lt_of_lt_mul ?_
    rw [← Nat.mul_assoc]
    exact (Nat.mul_lt_mul_right (by omega)).mpr (Nat.mod_lt s hpos)
  calc interpolate T c m s
      < T (s / (c * m)) * m + m * (T (s / (c * m) + 1) - T (s / (c * m))) := Nat.add_lt_add_left hrest _
    _ = T (s / (c * m) + 1) * m := by
        rw [Nat.mul_comm _ m, ← Nat.mul_add, Nat.add_sub_cancel' hT.le, Nat.mul_comm]

theorem le_interpolate (T : ℕ → ℕ) (c m s : ℕ) : T (s / (c * m)) * m ≤ interpolate T c m s :=
  Nat.le_add_right _ _

/-- **Interpolation is monotone.** -/
theorem interpolate_mono (hT : Monotone T) (hpos : 0 < c * m) (hs : s ≤ s') :
    interpolate T c m s ≤ interpolate T c m s' := by
  rcases (Nat.div_le_div_right hs : s / (c * m) ≤ s' / (c * m)).eq_or_lt with heq | hlt
  · have hmod : s % (c * m) ≤ s' % (c * m) := by
      have hs1 := Nat.div_add_mod s (c * m)
      have hs2 := Nat.div_add_mod s' (c * m)
      rw [heq] at hs1
      omega
    unfold interpolate
    rw [heq]
    exact Nat.add_le_add_left (Nat.div_le_div_right (Nat.mul_le_mul_right _ hmod)) _
  · calc interpolate T c m s ≤ T (s / (c * m) + 1) * m := interpolate_le hT hpos s
      _ ≤ T (s' / (c * m)) * m := Nat.mul_le_mul_right _ (hT hlt)
      _ ≤ interpolate T c m s' := le_interpolate T c m s'

/-! ## The line through two points -/

/-- The value at `x` on the line through two points, times the distance of their places. -/
def numerator (x₁ y₁ x₂ y₂ x : ℤ) : ℤ := (y₂ - y₁) * x + y₁ * x₂ - y₂ * x₁

/-- **A point on the line**: the division leaves no remainder. -/
theorem numerator_of_collinear {x₁ y₁ x₂ y₂ x y : ℤ} (h : (y₂ - y₁) * (x - x₁) = (y - y₁) * (x₂ - x₁)) :
    numerator x₁ y₁ x₂ y₂ x = y * (x₂ - x₁) := by
  unfold numerator
  linear_combination h

end Lib
end TbsMedia
