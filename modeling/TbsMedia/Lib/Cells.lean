import Mathlib

/-!
# Cells in a row

Cells of given lengths are put one behind the other, at addresses that are counted modulo `M`.

* `startOf`: where a cell starts, counted without the modulus.
* `cell`: the addresses of a cell.
* `Fits`: the row ends before the addresses come around.
* `apart_iff_fits`: then, and only then, are the cells apart and do they start at addresses of their own.
-/

namespace TbsMedia
namespace Lib

variable {M : ℕ} {lens : List ℕ}

/-- The lengths of the cells before cell `k`. -/
def startOf (lens : List ℕ) (k : ℕ) : ℕ :=
  (lens.take k).sum

/-- The addresses of a cell that starts at `s`. -/
def cell (M s len : ℕ) : Set ℕ :=
  {x | ∃ d < len, x = (s + d) % M}

/-- Two cells have no address in common, and start at different ones. -/
def Apart (M : ℕ) (c d : ℕ × ℕ) : Prop :=
  Disjoint (cell M c.1 c.2) (cell M d.1 d.2) ∧ c.1 % M ≠ d.1 % M

/-- Every cell starts and ends before the addresses come around, and only the last one may be empty. -/
def Fits (M : ℕ) (lens : List ℕ) : Prop :=
  ∀ k, (hk : k < lens.length) → startOf lens k < M ∧ startOf lens k + lens.get ⟨k, hk⟩ ≤ M ∧
    (k + 1 < lens.length → 0 < lens.get ⟨k, hk⟩)

theorem startOf_succ {k : ℕ} (hk : k < lens.length) :
    startOf lens (k + 1) = startOf lens k + lens.get ⟨k, hk⟩ := by
  rw [startOf, startOf, List.take_add_one, List.getElem?_eq_getElem hk, Option.toList_some, List.sum_append,
    List.sum_singleton]
  rfl

theorem startOf_mono {j k : ℕ} (h : j ≤ k) : startOf lens j ≤ startOf lens k := by
  rw [startOf, startOf, ← Nat.sub_add_cancel h, Nat.add_comm (k - j), List.take_add, List.sum_append]
  exact Nat.le_add_right _ _

/-- A cell that starts modulo `M` is the same. -/
theorem cell_mod (M s len : ℕ) : cell M (s % M) len = cell M s len := by
  refine Set.ext fun x => ?_
  constructor <;> rintro ⟨d, hd, rfl⟩ <;> exact ⟨d, hd, by rw [Nat.mod_add_mod]⟩

theorem apart_mod {c d : ℕ × ℕ} : Apart M (c.1 % M, c.2) (d.1 % M, d.2) ↔ Apart M c d := by
  rw [Apart, Apart, cell_mod, cell_mod, Nat.mod_mod, Nat.mod_mod]

theorem Apart.symm {c d : ℕ × ℕ} (h : Apart M c d) : Apart M d c :=
  ⟨h.1.symm, h.2.symm⟩

/-- Cells that end before the addresses come around are apart. -/
theorem apart_of_le {c d : ℕ × ℕ} (hpos : 0 < c.2) (hle : c.1 + c.2 ≤ d.1) (hd : d.1 < M) (hend : d.1 + d.2 ≤ M) :
    Apart M c d := by
  constructor
  · rw [Set.disjoint_left]
    rintro x ⟨i, hi, rfl⟩ ⟨j, hj, hij⟩
    rw [Nat.mod_eq_of_lt (by omega), Nat.mod_eq_of_lt (by omega)] at hij
    omega
  · rw [Nat.mod_eq_of_lt (by omega), Nat.mod_eq_of_lt hd]
    omega

/-- **Cells in a row are apart exactly if the row fits.** -/
theorem apart_iff_fits (hM : 0 < M) (hlens : ∀ l ∈ lens, l ≤ M) :
    (∀ j k, j < k → (hj : j < lens.length) → (hk : k < lens.length) →
      Apart M (startOf lens j, lens.get ⟨j, hj⟩) (startOf lens k, lens.get ⟨k, hk⟩)) ↔ Fits M lens := by
  constructor
  · intro hapart
    have hpos : ∀ k, (hk : k + 1 < lens.length) → 0 < lens.get ⟨k, by omega⟩ := by
      intro k hk
      by_contra hzero
      refine (hapart k (k + 1) (Nat.lt_succ_self k) (by omega) hk).2 ?_
      show startOf lens k % M = startOf lens (k + 1) % M
      rw [startOf_succ (by omega), Nat.eq_zero_of_not_pos hzero, Nat.add_zero]
    have hfirst : startOf lens 0 = 0 := rfl
    intro k
    induction k with
    | zero =>
      intro hk
      rw [hfirst, Nat.zero_add]
      exact ⟨hM, hlens _ (List.get_mem _ _), fun h => hpos 0 h⟩
    | succ k ih =>
      intro hk
      have hstart : startOf lens (k + 1) ≤ M := by
        rw [startOf_succ (by omega)]
        exact (ih (by omega)).2.1
      have hne := hapart 0 (k + 1) (Nat.succ_pos k) (by omega) hk
      have hlt : startOf lens (k + 1) < M := by
        refine Nat.lt_of_le_of_ne hstart fun heq => hne.2 ?_
        show startOf lens 0 % M = startOf lens (k + 1) % M
        rw [heq, Nat.mod_self, hfirst, Nat.zero_mod]
      refine ⟨hlt, ?_, fun h => hpos (k + 1) h⟩
      -- a cell that came around would begin with the first cell again
      by_contra hover
      have hzero : 0 ∈ cell M (startOf lens 0) (lens.get ⟨0, by omega⟩) :=
        ⟨0, hpos 0 (by omega), by rw [hfirst, Nat.add_zero, Nat.zero_mod]⟩
      exact Set.disjoint_left.mp hne.1 hzero
        ⟨M - startOf lens (k + 1), by omega, by rw [Nat.add_sub_cancel' hstart, Nat.mod_self]⟩
  · intro hfits j k hjk hj hk
    obtain ⟨hstart, hend, _⟩ := hfits k hk
    refine apart_of_le ((hfits j hj).2.2 (by omega)) ?_ hstart hend
    show startOf lens j + lens.get ⟨j, hj⟩ ≤ startOf lens k
    rw [← startOf_succ hj]
    exact startOf_mono hjk

end Lib
end TbsMedia
