import Mathlib

/-!
# Rounding to a grid

The values `lo + k * step` up to `hi`, and the one of them that is closest to a number.

* `rounded`: half a step up, back into the range, and down to the grid.
* `rounded_nearest`: no value of the grid is closer.
* `rounded_mono`, `rounded_of_legal`: the order is kept, and the grid itself is left alone.
* `closest_of_two_mul_le`: on a grid without an end, a value half a step away is a closest one.
-/

namespace TbsMedia
namespace Lib
namespace Grid

variable {lo hi step x y z : ℤ}

/-- The values of the grid. -/
def Legal (lo hi step y : ℤ) : Prop := ∃ k : ℕ, y = lo + k * step ∧ y ≤ hi

/-- No value of the grid is closer to `x`. -/
def Nearest (lo hi step x y : ℤ) : Prop := ∀ z, Legal lo hi step z → |y - x| ≤ |z - x|

/-- Down to the grid. -/
def floorTo (lo step y : ℤ) : ℤ := lo + (y - lo) / step * step

def rounded (lo hi step x : ℤ) : ℤ := floorTo lo step (max lo (min hi (x + step / 2)))

theorem floorTo_le (lo y : ℤ) (hstep : 0 < step) : floorTo lo step y ≤ y := by
  have := Int.ediv_mul_le (y - lo) hstep.ne'
  unfold floorTo
  omega

theorem lt_floorTo_add (lo y : ℤ) (hstep : 0 < step) : y < floorTo lo step y + step := by
  have h := Int.lt_ediv_add_one_mul_self (y - lo) hstep
  rw [add_mul, one_mul] at h
  unfold floorTo
  omega

theorem floorTo_mono (hstep : 0 < step) (h : y ≤ z) : floorTo lo step y ≤ floorTo lo step z := by
  have hq : (y - lo) / step ≤ (z - lo) / step := Int.ediv_le_ediv hstep (by omega)
  have := Int.mul_le_mul_of_nonneg_right hq hstep.le
  unfold floorTo
  omega

theorem legal_floorTo (hstep : 0 < step) (hlo : lo ≤ y) (hhi : y ≤ hi) : Legal lo hi step (floorTo lo step y) := by
  refine ⟨((y - lo) / step).toNat, ?_, (floorTo_le lo y hstep).trans hhi⟩
  have hq : 0 ≤ (y - lo) / step := Int.ediv_nonneg (by omega) hstep.le
  rw [Int.toNat_of_nonneg hq]
  rfl

/-- Two values of the grid are the same, or at least a step apart. -/
theorem Legal.apart (hstep : 0 < step) (hy : Legal lo hi step y) (hz : Legal lo hi step z) :
    z = y ∨ z + step ≤ y ∨ y + step ≤ z := by
  obtain ⟨j, rfl, -⟩ := hy
  obtain ⟨k, rfl, -⟩ := hz
  have hsucc {m n : ℕ} (h : m < n) : (m : ℤ) * step + step ≤ n * step := by
    have hle : ((m : ℤ) + 1) * step ≤ n * step := Int.mul_le_mul_of_nonneg_right (by omega) hstep.le
    rwa [add_mul, one_mul] at hle
  rcases Nat.lt_trichotomy k j with h | rfl | h
  · have := hsucc h
    omega
  · exact .inl rfl
  · have := hsucc h
    omega

/-- The values of the grid lie in the range. -/
theorem Legal.ge (hstep : 0 < step) (hy : Legal lo hi step y) : lo ≤ y := by
  obtain ⟨k, rfl, -⟩ := hy
  have : 0 ≤ (k : ℤ) * step := Int.mul_nonneg (by omega) hstep.le
  omega

theorem rounded_legal (hstep : 0 < step) (hle : lo ≤ hi) (x : ℤ) : Legal lo hi step (rounded lo hi step x) :=
  legal_floorTo hstep (by omega) (by omega)

/-- **No value of the grid is closer** than the rounded one. -/
theorem rounded_nearest (hstep : 0 < step) (hle : lo ≤ hi) (x : ℤ) :
    Nearest lo hi step x (rounded lo hi step x) := by
  intro z hz
  have hlegal := rounded_legal hstep hle x
  have hapart := hlegal.apart hstep hz
  have hlo := hz.ge hstep
  have hhi : z ≤ hi := by
    obtain ⟨_, -, h⟩ := hz
    exact h
  have hfloor := floorTo_le lo (max lo (min hi (x + step / 2))) hstep
  have hnext := lt_floorTo_add lo (max lo (min hi (x + step / 2))) hstep
  unfold rounded at hapart ⊢
  generalize floorTo lo step (max lo (min hi (x + step / 2))) = f at hapart hfloor hnext
  rcases abs_cases (f - x) with ⟨hf, hsign⟩ | ⟨hf, hsign⟩
  · rcases abs_cases (z - x) with ⟨hzx, hsign'⟩ | ⟨hzx, hsign'⟩
    · omega
    · omega
  · rcases abs_cases (z - x) with ⟨hzx, hsign'⟩ | ⟨hzx, hsign'⟩
    · omega
    · omega

theorem rounded_mono (hstep : 0 < step) (h : x ≤ y) : rounded lo hi step x ≤ rounded lo hi step y :=
  floorTo_mono hstep (by omega)

/-- A value of the grid is rounded to itself. -/
theorem rounded_of_legal (hstep : 0 < step) (hy : Legal lo hi step y) : rounded lo hi step y = y := by
  have hlo := hy.ge hstep
  have hhi : y ≤ hi := by
    obtain ⟨_, -, h⟩ := hy
    exact h
  have hlegal := rounded_legal hstep (hlo.trans hhi) y
  have hfloor := floorTo_le lo (max lo (min hi (y + step / 2))) hstep
  have hnext := lt_floorTo_add lo (max lo (min hi (y + step / 2))) hstep
  have hapart := hy.apart hstep hlegal
  unfold rounded at hapart ⊢
  omega

/-! ## A grid without an end -/

/-- The value `y` of the grid `lo, lo + step, …` is one that is closest to `x`. -/
def Closest (lo step x y : ℤ) : Prop := (∃ k : ℕ, y = lo + k * step) ∧ ∀ k : ℕ, |y - x| ≤ |lo + k * step - x|

/-- **Half a step away** is close enough. -/
theorem closest_of_two_mul_le (hstep : 0 < step) (k : ℕ) (hclose : 2 * |lo + k * step - x| ≤ step) :
    Closest lo step x (lo + k * step) := by
  refine ⟨⟨k, rfl⟩, fun j => ?_⟩
  have hj : Legal lo (max (lo + k * step) (lo + j * step)) step (lo + j * step) := ⟨j, rfl, le_max_right _ _⟩
  have hk : Legal lo (max (lo + k * step) (lo + j * step)) step (lo + k * step) := ⟨k, rfl, le_max_left _ _⟩
  have hapart := hk.apart hstep hj
  generalize lo + (j : ℤ) * step = z at hapart
  generalize lo + (k : ℤ) * step = y at hapart hclose
  rcases abs_cases (y - x) with ⟨hy, hsign⟩ | ⟨hy, hsign⟩
  · rcases abs_cases (z - x) with ⟨hz, hsign'⟩ | ⟨hz, hsign'⟩
    · omega
    · omega
  · rcases abs_cases (z - x) with ⟨hz, hsign'⟩ | ⟨hz, hsign'⟩
    · omega
    · omega

/-- Half a step up and down to the grid ends half a step away. -/
theorem two_mul_abs_floorTo_le (lo x : ℤ) (hstep : 0 < step) : 2 * |floorTo lo step (x + step / 2) - x| ≤ step := by
  have hfloor := floorTo_le lo (x + step / 2) hstep
  have hnext := lt_floorTo_add lo (x + step / 2) hstep
  rcases abs_cases (floorTo lo step (x + step / 2) - x) with ⟨h, -⟩ | ⟨h, -⟩
  · omega
  · omega

end Grid
end Lib
end TbsMedia
