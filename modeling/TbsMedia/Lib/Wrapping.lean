import Mathlib

/-!
# Integer registers, and exact integers

A computation on unsigned and signed registers of `w` bits, written over the way its results are brought back into
range.

* `machine w`: unsigned results are taken modulo `2 ^ w`, signed ones to the balanced residue.
* `exact`: every result is kept.
* `Agrees`: what the two have in common.  A computation that stays in range is the same in both, and so is one that
  goes below zero in an unsigned register and is read back as a signed one.
-/

namespace TbsMedia
namespace Lib
namespace Wrapping

/-- How an unsigned and a signed register take a result. -/
structure Arith where
  u : ℤ → ℤ
  s : ℤ → ℤ

def machine (w : ℕ) : Arith where
  u x := x % 2 ^ w
  s x := x.bmod (2 ^ w)

def exact : Arith where
  u x := x
  s x := x

/-- The registers keep what is in range, and reading an unsigned register as a signed one is taking the result as a
signed one. -/
structure Agrees (A : Arith) (w : ℕ) : Prop where
  u_eq : ∀ {x : ℤ}, 0 ≤ x → x < 2 ^ w → A.u x = x
  s_eq : ∀ {x : ℤ}, -2 ^ w ≤ x * 2 → x * 2 < 2 ^ w → A.s x = x
  s_u_sub : ∀ x c : ℤ, A.s (A.u x - c) = A.s (x - c)
  u_emod : ∀ x d : ℤ, d ∣ 2 ^ w → A.u x % d = x % d

theorem exact_agrees (w : ℕ) : Agrees exact w :=
  ⟨fun _ _ => rfl, fun _ _ => rfl, fun _ _ => rfl, fun _ _ _ => rfl⟩

theorem machine_agrees (w : ℕ) : Agrees (machine w) w where
  u_eq h0 hw := Int.emod_eq_of_lt h0 hw
  s_eq hle hlt := Int.bmod_eq_of_le_mul_two (by push_cast; exact hle) (by push_cast; exact hlt)
  s_u_sub x c := by
    have h := Int.emod_sub_bmod (y := c) x (2 ^ w)
    rw [Nat.cast_pow, Nat.cast_ofNat] at h
    exact h
  u_emod x _ hd := Int.emod_emod_of_dvd x hd

namespace Agrees

variable {A : Arith} {w : ℕ}

/-- Rounding down in the unsigned register is rounding down the number it stands for. -/
theorem s_u_round (h : Agrees A w) {d : ℤ} (hd : d ∣ 2 ^ w) (x : ℤ) : A.s (A.u x - A.u x % d) = A.s (x - x % d) := by
  rw [h.u_emod x d hd, h.s_u_sub]

end Agrees

end Wrapping
end Lib
end TbsMedia
