import Mathlib
import TbsMedia.Lib.ContinuedFraction
import TbsMedia.Lib.Wrapping

/-!
# Simplifying a fraction

`uvc_simplify_fraction` takes the terms of a continued fraction up to the first large one, and folds them back.

* `termsLoop`, `expand`, `uvcSimplifyFraction`: the two loops and the function, over the registers they compute in.
* `simplifyFraction_simplifies`: where there is memory for the terms the result is a convergent in lowest terms, nothing
  wraps, and a fraction with few and small terms keeps its value.  Without memory the fraction stays.
-/

namespace TbsMedia
namespace Uvc

open Lib.Wrapping Lib.ContinuedFraction

/-! ## The code -/

/-- The first loop: the terms from the `n`-th on, when there is room for `left` of them.  The large term stays in the
first two positions only. -/
def termsLoop (A : Arith) (threshold : ℤ) : ℕ → ℕ → ℤ → ℤ → List ℤ
  | 0, _, _, _ => []
  | left + 1, n, x, y =>
    if y = 0 then []
    else
      let an := x / y
      if an ≥ threshold then if n < 2 then [an] else []
      else an :: termsLoop A threshold left (n + 1) y (A.u (x - A.u (an * y)))

/-- The second loop, from the last term to the first: `y` and `x`. -/
def expand (A : Arith) : List ℤ → ℤ × ℤ
  | [] => (1, 0)
  | an :: terms => (A.u (A.u (an * (expand A terms).1) + (expand A terms).2), (expand A terms).1)

/-- `uvc_simplify_fraction`; without memory for the terms the fraction stays. -/
def uvcSimplifyFraction (A : Arith) (memory : Bool) (numerator denominator : ℤ) (nTerms : ℕ) (threshold : ℤ) : ℤ × ℤ :=
  if memory then expand A (termsLoop A threshold nTerms 0 numerator denominator) else (numerator, denominator)

/-! ## The terms -/

variable {threshold x y x' y' : ℤ} {left n : ℕ} {terms : List ℤ}

/-- Without a wrap the second loop folds the terms. -/
theorem expand_exact (terms : List ℤ) : expand exact terms = unfold terms := by
  induction terms with
  | nil => rfl
  | cons a terms ih =>
    unfold expand
    rw [ih]
    rfl

/-- The remainder does not wrap. -/
theorem remainder_eq {A : Arith} (hA : Agrees A 32) (hx : 0 ≤ x) (hx' : x < 2 ^ 32) (hy : 0 < y) :
    A.u (x - A.u (x / y * y)) = x % y := by
  have hsplit := Int.ediv_mul_add_emod x y
  have hmod := Int.emod_nonneg x hy.ne'
  have hquot : 0 ≤ x / y * y := Int.mul_nonneg (Int.ediv_nonneg hx hy.le) hy.le
  rw [hA.u_eq hquot (by omega), hA.u_eq (by omega) (by omega)]
  omega

theorem termsLoop_succ {A : Arith} (hA : Agrees A 32) (left n : ℕ) (hx : 0 ≤ x) (hx' : x < 2 ^ 32) (hy : 0 < y) :
    termsLoop A threshold (left + 1) n x y =
      if x / y ≥ threshold then if n < 2 then [x / y] else []
      else x / y :: termsLoop A threshold left (n + 1) y (x % y) := by
  rw [← remainder_eq hA hx hx' hy]
  exact if_neg hy.ne'

/-- **The terms do not depend on the registers.** -/
theorem termsLoop_eq {A : Arith} (hA : Agrees A 32) (threshold : ℤ) (left n : ℕ) {x y : ℤ} (hx : 0 ≤ x)
    (hx' : x < 2 ^ 32) (hy : 0 ≤ y) (hy' : y < 2 ^ 32) :
    termsLoop A threshold left n x y = termsLoop exact threshold left n x y := by
  induction left generalizing n x y with
  | zero => rfl
  | succ left ih =>
    by_cases hzero : y = 0
    · subst hzero
      rfl
    · have hpos : 0 < y := by omega
      have hmod := Int.emod_nonneg x hzero
      have hlt := Int.emod_lt_of_pos x hpos
      rw [termsLoop_succ hA left n hx hx' hpos, termsLoop_succ (exact_agrees 32) left n hx hx' hpos,
        ih (n + 1) hy hy' hmod (by omega)]

/-- **The terms are those of the algorithm.** -/
theorem termsLoop_steps (threshold : ℤ) (left n : ℕ) {x y : ℤ} (hx : 0 ≤ x) (hx' : x < 2 ^ 32) (hy : 0 ≤ y)
    (hy' : y < 2 ^ 32) : ∃ x' y', Steps x y (termsLoop exact threshold left n x y) x' y' := by
  induction left generalizing n x y with
  | zero => exact ⟨x, y, .nil x y⟩
  | succ left ih =>
    by_cases hzero : y = 0
    · subst hzero
      exact ⟨x, 0, .nil x 0⟩
    · have hpos : 0 < y := by omega
      have hmod := Int.emod_nonneg x hzero
      have hlt := Int.emod_lt_of_pos x hpos
      rw [termsLoop_succ (exact_agrees 32) left n hx hx' hpos]
      split
      · split
        · exact ⟨y, x % y, .cons hpos (.nil y (x % y))⟩
        · exact ⟨x, y, .nil x y⟩
      · obtain ⟨x', y', h⟩ := ih (n + 1) hy hy' hmod (by omega)
        exact ⟨x', y', .cons hpos h⟩

/-- There is a first term. -/
theorem termsLoop_ne_nil (threshold : ℤ) (left : ℕ) (hx : 0 ≤ x) (hx' : x < 2 ^ 32) (hy : 0 < y) :
    termsLoop exact threshold (left + 1) 0 x y ≠ [] := by
  rw [termsLoop_succ (exact_agrees 32) left 0 hx hx' hy]
  split
  · exact List.cons_ne_nil _ _
  · exact List.cons_ne_nil _ _

/-- Few and small terms are all taken. -/
theorem termsLoop_all (threshold : ℤ) (left : ℕ) (h : Steps x y terms x' 0) (hlength : terms.length ≤ left)
    (hsmall : ∀ a ∈ terms, a < threshold) (n : ℕ) (hx : 0 ≤ x) (hx' : x < 2 ^ 32) (hy : 0 ≤ y) (hy' : y < 2 ^ 32) :
    termsLoop exact threshold left n x y = terms := by
  generalize hend : (0 : ℤ) = e at h
  induction h generalizing left n with
  | nil x y =>
    subst hend
    cases left <;> rfl
  | @cons x y terms x' y' hpos h ih =>
    obtain _ | left := left
    · exact absurd hlength (Nat.not_succ_le_zero _)
    · have hmod := Int.emod_nonneg x hpos.ne'
      have hlt := Int.emod_lt_of_pos x hpos
      have hfirst : x / y < threshold := hsmall _ List.mem_cons_self
      rw [termsLoop_succ (exact_agrees 32) left n hx hx' hpos, if_neg (not_le.mpr hfirst),
        ih _ (Nat.le_of_succ_le_succ hlength) (fun a ha => hsmall a (List.mem_cons_of_mem _ ha)) (n + 1) hy hy' hmod
          (by omega) hend]

/-! ## The fraction -/

/-- Folding the terms of numbers that are ordered does not wrap. -/
theorem expand_eq_of_le (h : Steps x y terms x' y') (hx : 0 < x) (hx' : x < 2 ^ 32) (hy : 0 ≤ y) (hyx : y ≤ x) :
    expand (machine 32) terms = unfold terms := by
  induction h with
  | nil => rfl
  | @cons x y terms x' y' hpos h ih =>
    have hmod := Int.emod_nonneg x hpos.ne'
    have hlt := Int.emod_lt_of_pos x hpos
    obtain ⟨hone, hnum, hzero, hden⟩ := h.unfold_le_of_le hpos hmod hlt.le
    have hquot : 0 ≤ x / y := Int.ediv_nonneg hx.le hy
    have hsplit := Int.ediv_mul_add_emod x y
    have hlow : 0 ≤ x / y * (unfold terms).1 := Int.mul_nonneg hquot (by omega)
    have hhigh : x / y * (unfold terms).1 ≤ x / y * y := mul_le_mul_of_nonneg_left hnum hquot
    unfold expand
    rw [ih hpos (by omega) hmod hlt.le, (machine_agrees 32).u_eq hlow (by omega),
      (machine_agrees 32).u_eq (by omega) (by omega)]
    rfl

theorem expand_suffix_of_le (h : Steps x y terms x' y') (hx : 0 < x) (hx' : x < 2 ^ 32) (hy : 0 ≤ y) (hyx : y ≤ x)
    {t : List ℤ} (ht : t <:+ terms) : expand (machine 32) t = unfold t := by
  induction h with
  | nil =>
    obtain rfl := List.suffix_nil.mp ht
    rfl
  | @cons x y terms x' y' hpos h ih =>
    rcases List.suffix_cons_iff.mp ht with rfl | ht
    · exact expand_eq_of_le (.cons hpos h) hx hx' hy hyx
    · exact ih hpos (by omega) (Int.emod_nonneg x hpos.ne') (Int.emod_lt_of_pos x hpos).le ht

/-- **Nothing wraps** when the terms are folded, from any one of them on. -/
theorem expand_suffix (h : Steps x y terms x' y') (hx : 0 ≤ x) (hx' : x < 2 ^ 32) (hy : 0 < y) (hy' : y < 2 ^ 32)
    {t : List ℤ} (ht : t <:+ terms) : expand (machine 32) t = unfold t := by
  cases h with
  | nil =>
    obtain rfl := List.suffix_nil.mp ht
    rfl
  | @cons _ _ terms _ _ hpos h =>
    have hmod := Int.emod_nonneg x hpos.ne'
    have hlt := Int.emod_lt_of_pos x hpos
    rcases List.suffix_cons_iff.mp ht with rfl | ht
    · obtain ⟨hone, hnum, hzero, hden⟩ := h.unfold_le_of_le hpos hmod hlt.le
      have hquot : 0 ≤ x / y := Int.ediv_nonneg hx hy.le
      have hsplit := Int.ediv_mul_add_emod x y
      have hlow : 0 ≤ x / y * (unfold terms).1 := Int.mul_nonneg hquot (by omega)
      have hhigh : x / y * (unfold terms).1 ≤ x / y * y := mul_le_mul_of_nonneg_left hnum hquot
      unfold expand
      rw [expand_eq_of_le h hpos hy' hmod hlt.le, (machine_agrees 32).u_eq hlow (by omega),
        (machine_agrees 32).u_eq (by omega) (by omega)]
      rfl
    · exact expand_suffix_of_le h hpos hy' hmod hlt.le ht

/-- `r` is a convergent of the fraction in lowest terms and no larger than it, and the same number if the fraction has few
and small terms. -/
structure Simplifies (numerator denominator : ℤ) (nTerms : ℕ) (threshold : ℤ) (r : ℤ × ℤ) : Prop where
  convergent : ∃ k, (r.1 : ℚ) / r.2 = Real.convergent ((numerator : ℝ) / denominator) k
  lowest : Int.gcd r.1 r.2 = 1
  den_pos : 0 < r.2
  le : 0 ≤ r.1 ∧ r.1 ≤ numerator ∧ r.2 ≤ denominator
  same : ∀ terms g, Steps numerator denominator terms g 0 → terms.length ≤ nTerms → (∀ a ∈ terms, a < threshold) →
    numerator * r.2 = denominator * r.1

/-- The registers have the values of exact integers in both loops. -/
structure NoOverflow (numerator denominator : ℤ) (nTerms : ℕ) (threshold : ℤ) : Prop where
  terms : termsLoop (machine 32) threshold nTerms 0 numerator denominator =
    termsLoop exact threshold nTerms 0 numerator denominator
  expand : ∀ t, t <:+ termsLoop (machine 32) threshold nTerms 0 numerator denominator →
    Uvc.expand (machine 32) t = Uvc.expand exact t

/-- **A fraction is simplified**, without a wrap, where the terms can be allocated, and stays as it is where not. -/
theorem simplifyFraction_simplifies (numerator denominator : ℤ) (nTerms : ℕ) (threshold : ℤ) (hnum : 0 ≤ numerator)
    (hnum' : numerator < 2 ^ 32) (hden : 1 ≤ denominator) (hden' : denominator < 2 ^ 32) (hterms : 1 ≤ nTerms) :
    (Simplifies numerator denominator nTerms threshold
        (uvcSimplifyFraction (machine 32) true numerator denominator nTerms threshold) ∧
      NoOverflow numerator denominator nTerms threshold) ∧
    uvcSimplifyFraction (machine 32) false numerator denominator nTerms threshold = (numerator, denominator) := by
  have hpos : 0 < denominator := hden
  obtain ⟨left, rfl⟩ : ∃ left, nTerms = left + 1 := ⟨nTerms - 1, by omega⟩
  have hloop := termsLoop_eq (machine_agrees 32) threshold (left + 1) 0 hnum hnum' hpos.le hden'
  have hne := termsLoop_ne_nil threshold left hnum hnum' hpos
  obtain ⟨x', y', hsteps⟩ := termsLoop_steps threshold (left + 1) 0 hnum hnum' hpos.le hden'
  have hall := fun terms g (h : Steps numerator denominator terms g 0) hlength hsmall =>
    termsLoop_all threshold (left + 1) h hlength hsmall 0 hnum hnum' hpos.le hden'
  have hresult : uvcSimplifyFraction (machine 32) true numerator denominator (left + 1) threshold =
      unfold (termsLoop exact threshold (left + 1) 0 numerator denominator) := by
    rw [← expand_suffix hsteps hnum hnum' hpos hden' (List.suffix_refl _), ← hloop]
    rfl
  refine ⟨⟨?_, hloop, fun t ht => ?_⟩, rfl⟩
  · rw [hresult]
    obtain ⟨hzero, hle, hdenPos, hdenLe⟩ := hsteps.unfold_le hnum hpos hne
    refine ⟨?_, Int.isCoprime_iff_gcd_eq_one.mp (unfold_coprime _), hdenPos, ⟨hzero, hle, hdenLe⟩, ?_⟩
    · generalize termsLoop exact threshold (left + 1) 0 numerator denominator = terms at hsteps hne
      obtain _ | ⟨a, terms⟩ := terms
      · exact absurd rfl hne
      · exact ⟨terms.length, hsteps.unfold_eq_convergent hnum⟩
    · intro terms g h hlength hsmall
      rw [hall terms g h hlength hsmall]
      exact h.unfold_exact
  · rw [hloop] at ht
    rw [expand_exact]
    exact expand_suffix hsteps hnum hnum' hpos hden' ht

/-- 333333/10000000 is simplified to 1/30. -/
theorem simplifyFraction_thirtieth :
    (Simplifies 333333 10000000 8 333 (uvcSimplifyFraction (machine 32) true 333333 10000000 8 333) ∧
      NoOverflow 333333 10000000 8 333) ∧
    uvcSimplifyFraction (machine 32) false 333333 10000000 8 333 = (333333, 10000000) :=
  simplifyFraction_simplifies 333333 10000000 8 333 (by decide) (by decide) (by decide) (by decide) (by decide)

/-- Without memory 2/4 stays, which is not in lowest terms. -/
theorem not_simplifies_half : ¬ Simplifies 2 4 8 333 (uvcSimplifyFraction (machine 32) false 2 4 8 333) :=
  fun h => absurd h.lowest (by decide)

end Uvc
end TbsMedia
