import Mathlib

/-!
# The continued fraction of a quotient

The steps of the Euclidean algorithm give the terms of a continued fraction, and folding terms back from the last one
gives a fraction again.

* `Steps`: the first quotients of the algorithm, and where it is behind them.
* `unfold_coprime`, `Steps.unfold_le`: the fraction is in lowest terms and not larger than the numbers it came from.
* `Steps.unfold_eq_convergent`: it is a convergent.
* `Steps.unfold_exact`: it is the quotient when the algorithm has ended.
-/

namespace TbsMedia
namespace Lib
namespace ContinuedFraction

/-- Numerator and denominator of the fraction with the given terms. -/
def unfold : List ℤ → ℤ × ℤ
  | [] => (1, 0)
  | a :: terms => (a * (unfold terms).1 + (unfold terms).2, (unfold terms).1)

/-- From `x` and `y` the algorithm gives the quotients `terms`, and then is at `x'` and `y'`. -/
inductive Steps : ℤ → ℤ → List ℤ → ℤ → ℤ → Prop
  | nil (x y : ℤ) : Steps x y [] x y
  | cons {x y : ℤ} {terms : List ℤ} {x' y' : ℤ} (hy : 0 < y) (h : Steps y (x % y) terms x' y') :
      Steps x y (x / y :: terms) x' y'

variable {x y x' y' : ℤ} {terms : List ℤ}

/-- **The fraction is in lowest terms.** -/
theorem unfold_coprime (terms : List ℤ) : IsCoprime (unfold terms).1 (unfold terms).2 := by
  induction terms with
  | nil => exact isCoprime_one_left
  | cons a terms ih =>
    have h : IsCoprime ((unfold terms).2 + (unfold terms).1 * a) (unfold terms).1 := ih.symm.add_mul_left_left a
    rw [add_comm, mul_comm] at h
    exact h

/-- Behind the first step the numbers are ordered, and so are the bounds of the fraction. -/
theorem Steps.unfold_le_of_le (h : Steps x y terms x' y') (hx : 0 < x) (hy : 0 ≤ y) (hyx : y ≤ x) :
    1 ≤ (unfold terms).1 ∧ (unfold terms).1 ≤ x ∧ 0 ≤ (unfold terms).2 ∧ (unfold terms).2 ≤ y := by
  induction h with
  | nil x y => exact ⟨le_rfl, hx, le_rfl, hy⟩
  | @cons x y terms x' y' hpos h ih =>
    have hmod := Int.emod_nonneg x hpos.ne'
    have hlt := Int.emod_lt_of_pos x hpos
    obtain ⟨hone, hnum, hzero, hden⟩ := ih hpos hmod hlt.le
    have hquot : 1 ≤ x / y := (Int.le_ediv_iff_mul_le hpos).mpr (by omega)
    have hsplit := Int.ediv_mul_add_emod x y
    have hlow : (unfold terms).1 ≤ x / y * (unfold terms).1 := le_mul_of_one_le_left (by omega) hquot
    have hhigh : x / y * (unfold terms).1 ≤ x / y * y := mul_le_mul_of_nonneg_left hnum (by omega)
    exact ⟨show 1 ≤ x / y * (unfold terms).1 + (unfold terms).2 by omega,
      show x / y * (unfold terms).1 + (unfold terms).2 ≤ x by omega, show 0 ≤ (unfold terms).1 by omega, hnum⟩

/-- **The fraction is not larger**: neither its numerator nor its denominator, which is not zero. -/
theorem Steps.unfold_le (h : Steps x y terms x' y') (hx : 0 ≤ x) (hy : 0 < y) (hne : terms ≠ []) :
    0 ≤ (unfold terms).1 ∧ (unfold terms).1 ≤ x ∧ 0 < (unfold terms).2 ∧ (unfold terms).2 ≤ y := by
  cases h with
  | nil => exact absurd rfl hne
  | @cons _ _ terms _ _ hpos h =>
    have hmod := Int.emod_nonneg x hpos.ne'
    have hlt := Int.emod_lt_of_pos x hpos
    obtain ⟨hone, hnum, hzero, hden⟩ := h.unfold_le_of_le hpos hmod hlt.le
    have hquot : 0 ≤ x / y := Int.ediv_nonneg hx hy.le
    have hsplit := Int.ediv_mul_add_emod x y
    have hlow : 0 ≤ x / y * (unfold terms).1 := Int.mul_nonneg hquot (by omega)
    have hhigh : x / y * (unfold terms).1 ≤ x / y * y := mul_le_mul_of_nonneg_left hnum hquot
    exact ⟨show 0 ≤ x / y * (unfold terms).1 + (unfold terms).2 by omega,
      show x / y * (unfold terms).1 + (unfold terms).2 ≤ x by omega, show 0 < (unfold terms).1 by omega, hnum⟩

/-- **The whole algorithm** gives the quotient back. -/
theorem Steps.unfold_exact (h : Steps x y terms x' 0) : x * (unfold terms).2 = y * (unfold terms).1 := by
  generalize hend : (0 : ℤ) = e at h
  induction h with
  | nil x y =>
    subst hend
    rw [zero_mul]
    exact mul_zero x
  | @cons x y terms x' y' hpos h ih =>
    have hrest := ih hend
    have hsplit := Int.ediv_mul_add_emod x y
    change x * (unfold terms).1 = y * (x / y * (unfold terms).1 + (unfold terms).2)
    calc x * (unfold terms).1 = (x / y * y + x % y) * (unfold terms).1 := by rw [hsplit]
      _ = y * (x / y * (unfold terms).1) + x % y * (unfold terms).1 := by ring
      _ = y * (x / y * (unfold terms).1) + y * (unfold terms).2 := by rw [hrest]
      _ = y * (x / y * (unfold terms).1 + (unfold terms).2) := by ring

theorem floor_div (x : ℤ) (hy : 0 < y) : ⌊(x : ℝ) / y⌋ = x / y := by
  have hy' : (0 : ℝ) < y := Int.cast_pos.mpr hy
  rw [Int.floor_eq_iff]
  have hsplit := Int.ediv_mul_add_emod x y
  have hmod := Int.emod_nonneg x hy.ne'
  have hlt := Int.emod_lt_of_pos x hy
  constructor
  · rw [le_div_iff₀ hy']
    exact_mod_cast (by omega : x / y * y ≤ x)
  · rw [div_lt_iff₀ hy', add_mul, one_mul]
    exact_mod_cast (by omega : x < x / y * y + y)

theorem inv_fract_div (x : ℤ) (hy : 0 < y) : (Int.fract ((x : ℝ) / y))⁻¹ = (y : ℝ) / (x % y : ℤ) := by
  have hy' : (y : ℝ) ≠ 0 := Int.cast_ne_zero.mpr hy.ne'
  have hsplit : ((x / y : ℤ) : ℝ) * y + ((x % y : ℤ) : ℝ) = x := by
    exact_mod_cast Int.ediv_mul_add_emod x y
  have hfract : Int.fract ((x : ℝ) / y) = (x % y : ℤ) / (y : ℝ) := by
    rw [Int.fract, floor_div x hy, sub_eq_iff_eq_add, div_add' _ _ _ hy', ← hsplit, add_comm]
  rw [hfract, inv_div]

/-- **The fraction is a convergent.** -/
theorem Steps.unfold_eq_convergent {a : ℤ} (h : Steps x y (a :: terms) x' y') (hx : 0 ≤ x) :
    ((unfold (a :: terms)).1 : ℚ) / (unfold (a :: terms)).2 = Real.convergent ((x : ℝ) / y) terms.length := by
  induction terms generalizing x y a with
  | nil =>
    cases h with
    | cons hy h =>
      rw [List.length_nil, Real.convergent_zero, floor_div x hy]
      change ((x / y * 1 + 0 : ℤ) : ℚ) / ((1 : ℤ) : ℚ) = _
      rw [mul_one, add_zero, Int.cast_one, div_one]
  | cons b terms ih =>
    cases h with
    | cons hy h =>
      have hmod := Int.emod_nonneg x hy.ne'
      have hlt := Int.emod_lt_of_pos x hy
      have hpos := (h.unfold_le_of_le hy hmod hlt.le).1
      have hrest := ih h hy.le
      rw [List.length_cons, Real.convergent_succ, floor_div x hy, inv_fract_div x hy, ← hrest, inv_div]
      change ((x / y * (unfold (b :: terms)).1 + (unfold (b :: terms)).2 : ℤ) : ℚ) / ((unfold (b :: terms)).1 : ℚ) = _
      have hne : ((unfold (b :: terms)).1 : ℚ) ≠ 0 := Int.cast_ne_zero.mpr (by omega)
      push_cast
      rw [add_div, mul_div_cancel_right₀ _ hne]

end ContinuedFraction
end Lib
end TbsMedia
