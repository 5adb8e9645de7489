import Mathlib
import TbsMedia.Vicodec.RunLength

/-!
# The transforms and their inverse

The butterflies of `fwht`, `fwht16` and `ifwht` multiply by the Walsh matrix in sequency order, first the
rows of a block and then its columns.  The matrix is symmetric and its square is eight, so that doing it
twice multiplies a block by 64.

* `stages_eq_walsh`: the butterflies are the matrix.
* `Block.RowsFit`, `Block.ColumnsFit`: the loops of a transform store nothing that has to be truncated.
* `transforms_fit`: they never do, and what is coded has twelve bits.
* `ifwht_inverts`: `ifwht` undoes both transforms.
-/

namespace TbsMedia
namespace Vicodec

open Lib

/-! ## The matrix -/

/-- The Walsh matrix, with its rows in the order of their changes of sign. -/
def walsh : Matrix (Fin 8) (Fin 8) ℤ :=
  .of ![![1,  1,  1,  1,  1,  1,  1,  1],
        ![1,  1,  1,  1, -1, -1, -1, -1],
        ![1,  1, -1, -1, -1, -1,  1,  1],
        ![1,  1, -1, -1,  1,  1, -1, -1],
        ![1, -1, -1,  1,  1, -1, -1,  1],
        ![1, -1, -1,  1, -1,  1,  1, -1],
        ![1, -1,  1, -1, -1,  1, -1,  1],
        ![1, -1,  1, -1,  1, -1,  1, -1]]

theorem walsh_symm (k j : Fin 8) : walsh j k = walsh k j := by
  fin_cases k <;> fin_cases j <;> rfl

theorem walsh_mul_walsh : walsh * walsh = (8 : ℤ) • (1 : Matrix (Fin 8) (Fin 8) ℤ) := by
  have hsum : ∀ k j : Fin 8, ∑ i, walsh k i * walsh i j = if k = j then 8 else 0 := by decide
  ext k j
  rw [Matrix.mul_apply, hsum, Matrix.smul_apply, Matrix.one_apply]
  split_ifs <;> rfl

/-- **The butterflies are the matrix.** -/
theorem stages_eq_walsh (tmp : Fin 8 → ℤ) : stages 0 tmp = walsh.mulVec tmp := by
  ext k
  fin_cases k <;> simp [stages, walsh, Matrix.mulVec, dotProduct, Fin.sum_univ_eight] <;> ring

/-- What is subtracted in the first stage is an offset of the samples. -/
theorem stages_offset (c : ℤ) (tmp : Fin 8 → ℤ) : stages (2 * c) tmp = stages 0 fun k => tmp k - c := by
  ext k
  fin_cases k <;> simp [stages] <;> ring

/-! ## Blocks as matrices -/

/-- A block as a matrix. -/
def Block.toMatrix (b : Block) : Matrix (Fin 8) (Fin 8) ℤ := .of b.at

/-- The first loop of a transform stores nothing that has to be truncated. -/
def Block.RowsFit (add : ℤ) (tmp : Block) : Prop := ∀ y x, s16 (stages add (tmp.at y) x) = stages add (tmp.at y) x

/-- The second loop of a transform stores nothing that has to be truncated. -/
def Block.ColumnsFit (out : Block) : Prop :=
  ∀ y x, s16 (stages 0 (fun k => out.at k x) y) = stages 0 (fun k => out.at k x) y

/-- The butterflies on a row are a product from the right. -/
theorem stages_row (b : Block) (y x : Fin 8) : stages 0 (b.at y) x = (b.toMatrix * walsh) y x := by
  rw [stages_eq_walsh, Matrix.mulVec, dotProduct, Matrix.mul_apply]
  refine Finset.sum_congr rfl fun k _ => ?_
  rw [walsh_symm k x, mul_comm]
  rfl

/-- The butterflies on a column are a product from the left. -/
theorem stages_column (b : Block) (y x : Fin 8) :
    stages 0 (fun k => b.at k x) y = (walsh * b.toMatrix) y x := by
  rw [stages_eq_walsh]
  rfl

/-- The block without an offset of its samples. -/
def Block.less (b : Block) (c : ℤ) : Block := .ofFn fun y x => b.at y x - c

@[simp] theorem Block.less_at (b : Block) (c : ℤ) (y x : Fin 8) : (b.less c).at y x = b.at y x - c :=
  Block.at_ofFn _ y x

theorem Block.RowsFit.toMatrix {c : ℤ} {tmp : Block} (h : tmp.RowsFit (2 * c)) :
    (rowPass (2 * c) tmp).toMatrix = (tmp.less c).toMatrix * walsh := by
  ext y x
  have hrow : (fun k => tmp.at y k - c) = (tmp.less c).at y := funext fun k => (tmp.less_at c y k).symm
  rw [← stages_row, ← hrow, ← stages_offset, ← h y x]
  exact Block.at_ofFn _ y x

theorem Block.ColumnsFit.toMatrix {out : Block} (h : out.ColumnsFit) :
    (columnPass out).toMatrix = walsh * out.toMatrix := by
  ext y x
  rw [← stages_column, ← h y x]
  exact Block.at_ofFn _ y x

/-! ## Nothing is truncated -/

/-- Rows of small values fit. -/
theorem rowsFit_of_bounds {c a b : ℤ} {tmp : Block} (hba : b ≤ a) (ha : a ≤ 4096) (hb : b + 7 * a ≤ 32767)
    (h : ∀ y x, -a ≤ tmp.at y x - c ∧ tmp.at y x - c ≤ b) : tmp.RowsFit (2 * c) := by
  intro y x
  have hs := stages_bounds (2 * c) c a b rfl hba (h y) x
  exact s16_eq (by omega) (by omega)

/-- Columns of small values fit. -/
theorem columnsFit_of_bounds {a b : ℤ} {out : Block} (hba : b ≤ a) (ha : a ≤ 4096) (hb : b + 7 * a ≤ 32767)
    (h : ∀ y x, -a ≤ out.at y x ∧ out.at y x ≤ b) : out.ColumnsFit := by
  intro y x
  have hs := stages_bounds 0 0 a b rfl hba (fun k => by simpa using h k x) y
  exact s16_eq (by omega) (by omega)

/-- The samples that a block is read from. -/
def samples (m : Mem UInt8) (block stride inputStep : ℕ) : Block := .ofFn fun y x =>
  ((m (block + y * stride + x * tapStep inputStep)).toNat : ℤ)

/-- What `fwht` subtracts from each sample. -/
def offset (intra : Bool) : ℤ := if intra then 128 else 0

theorem fwht_eq (m : Mem UInt8) (block stride inputStep : ℕ) (intra : Bool) :
    fwht m block stride inputStep intra =
      columnPass (rowPass (2 * offset intra) (samples m block stride inputStep)) := by
  cases intra with
  | true => rfl
  | false => rfl

theorem samples_bounds (m : Mem UInt8) (block stride inputStep : ℕ) (y x : Fin 8) :
    0 ≤ (samples m block stride inputStep).at y x ∧ (samples m block stride inputStep).at y x ≤ 255 := by
  have hlt := (m (block + y * stride + x * tapStep inputStep)).toNat_lt
  unfold samples
  rw [Block.at_ofFn]
  omega

/-- Both loops of a transform fit for values that are at most `a` away from the offset. -/
theorem fits_of_bounds {c a : ℤ} {tmp : Block} (ha : a ≤ 255) (h : ∀ y x, -a ≤ tmp.at y x - c ∧ tmp.at y x - c ≤ a) :
    tmp.RowsFit (2 * c) ∧ (rowPass (2 * c) tmp).ColumnsFit := by
  have hrow := rowPass_bounds (2 * c) c a a rfl le_rfl (by omega) (by omega) h
  exact ⟨rowsFit_of_bounds le_rfl (by omega) (by omega) h,
    @columnsFit_of_bounds (8 * a) (a + 7 * a) _ (by omega) (by omega) (by omega) hrow⟩

theorem samples_near (m : Mem UInt8) (block stride inputStep : ℕ) (intra : Bool) (y x : Fin 8) :
    -255 ≤ (samples m block stride inputStep).at y x - offset intra ∧
      (samples m block stride inputStep).at y x - offset intra ≤ 255 := by
  have hb := samples_bounds m block stride inputStep y x
  unfold offset
  split_ifs <;> omega

/-- **The arithmetic of the transforms fits its types.**  Nothing that `fwht` and `fwht16` store is
truncated, and the coefficients that are coded of their blocks have twelve bits. -/
theorem transforms_fit (m : Mem UInt8) (block stride inputStep qp : ℕ) {d : Block}
    (hd : ∀ y x, -255 ≤ d.at y x ∧ d.at y x ≤ 255) :
    (∀ intra, (samples m block stride inputStep).RowsFit (2 * offset intra) ∧
      (rowPass (2 * offset intra) (samples m block stride inputStep)).ColumnsFit) ∧
    (∀ y x, InRange ((quantizeIntra qp (fwht m block stride inputStep true)).1.at y x)) ∧
    d.RowsFit 0 ∧ (rowPass 0 d).ColumnsFit ∧
    ∀ y x, InRange ((quantizeInter qp (fwht16 d)).1.at y x) := by
  have hdeltas := @fits_of_bounds 0 255 d le_rfl fun y x => by simpa using hd y x
  exact ⟨fun intra => fits_of_bounds le_rfl (samples_near m block stride inputStep intra),
    codedIntra_inRange m block stride inputStep qp, hdeltas.1, hdeltas.2, codedInter_inRange hd qp⟩

/-- A block of one value. -/
def flatBlock (v : ℤ) : Block := .ofFn fun _ _ => v

theorem transforms_fit_flat : (rowPass 0 (flatBlock (-255))).ColumnsFit ∧
    (∀ y x, InRange ((quantizeIntra 3 (fwht (fun _ => 255) 0 8 1 true)).1.at y x)) ∧
    ∀ y x, InRange ((quantizeInter 3 (fwht16 (flatBlock (-255)))).1.at y x) := by
  obtain ⟨-, hintra, -, hcolumns, hinter⟩ :=
    transforms_fit (fun _ => 255) 0 8 1 3 (d := flatBlock (-255)) (by decide)
  exact ⟨hcolumns, hintra, hinter⟩

/-! ## The inverse -/

/-- **The inverse of a transform** fits too, and is 64 times the block without its offset. -/
theorem inverse_transform {c a : ℤ} {tmp : Block} (ha : a ≤ 255)
    (h : ∀ y x, -a ≤ tmp.at y x - c ∧ tmp.at y x - c ≤ a) (y x : Fin 8) :
    (columnPass (rowPass 0 (columnPass (rowPass (2 * c) tmp)))).at y x = 64 * (tmp.at y x - c) := by
  obtain ⟨hrows, hcolumns⟩ := fits_of_bounds ha h
  have hforward : (columnPass (rowPass (2 * c) tmp)).toMatrix = walsh * ((tmp.less c).toMatrix * walsh) := by
    rw [hcolumns.toMatrix, hrows.toMatrix]
  -- the row pass of the inverse comes back to the columns of the block alone
  have hback : (columnPass (rowPass (2 * c) tmp)).toMatrix * walsh =
      (8 : ℤ) • (walsh * (tmp.less c).toMatrix) := by
    rw [hforward, Matrix.mul_assoc, Matrix.mul_assoc, walsh_mul_walsh, Matrix.mul_smul, Matrix.mul_smul,
      Matrix.mul_one]
  have hrowsBack : (columnPass (rowPass (2 * c) tmp)).RowsFit (2 * 0) := by
    intro y x
    have hb := @stages_bounds 0 0 a a (fun k => (tmp.less c).at k x) rfl le_rfl
      (fun k => by simpa using h k x) y
    have hrow : stages (2 * 0) ((columnPass (rowPass (2 * c) tmp)).at y) x =
        8 * (walsh * (tmp.less c).toMatrix) y x := by
      rw [mul_zero, stages_row, hback, Matrix.smul_apply, smul_eq_mul]
    rw [stages_column] at hb
    rw [hrow]
    exact s16_eq (by omega) (by omega)
  have hless : (columnPass (rowPass (2 * c) tmp)).less 0 = columnPass (rowPass (2 * c) tmp) :=
    Block.ext fun y x => by rw [Block.less_at, sub_zero]
  have hmiddle : (rowPass 0 (columnPass (rowPass (2 * c) tmp))).toMatrix =
      (8 : ℤ) • (walsh * (tmp.less c).toMatrix) := by
    have hrow := hrowsBack.toMatrix
    rw [hless, hback] at hrow
    exact hrow
  have hend : walsh * (rowPass 0 (columnPass (rowPass (2 * c) tmp))).toMatrix =
      (64 : ℤ) • (tmp.less c).toMatrix := by
    rw [hmiddle, Matrix.mul_smul, ← Matrix.mul_assoc, walsh_mul_walsh, Matrix.smul_mul, Matrix.one_mul, smul_smul]
    rfl
  have hvalue : ∀ y x, stages 0 (fun k => (rowPass 0 (columnPass (rowPass (2 * c) tmp))).at k x) y =
      64 * (tmp.at y x - c) := by
    intro y x
    rw [stages_column, hend, Matrix.smul_apply, smul_eq_mul, ← Block.less_at]
    rfl
  have hb := h y x
  have hstored := Block.at_ofFn
    (fun y x => s16 (stages 0 (fun k => (rowPass 0 (columnPass (rowPass (2 * c) tmp))).at k x) y)) y x
  refine Eq.trans hstored ?_
  rw [hvalue]
  exact s16_eq (by omega) (by omega)

/-- **The inverse transform inverts**: a block of samples comes back from `fwht`, and a block of differences
from `fwht16`. -/
theorem ifwht_inverts (m : Mem UInt8) (block stride inputStep : ℕ) (intra : Bool) {d : Block}
    (hd : ∀ y x, -255 ≤ d.at y x ∧ d.at y x ≤ 255) :
    ifwht (fwht m block stride inputStep intra) intra = samples m block stride inputStep ∧
      ifwht (fwht16 d) false = d := by
  constructor
  · refine Block.ext fun y x => ?_
    have hb := samples_bounds m block stride inputStep y x
    have hinv := inverse_transform le_rfl (samples_near m block stride inputStep intra) y x
    unfold ifwht
    dsimp only
    rw [Block.at_ofFn, fwht_eq, hinv]
    cases intra with
    | true =>
      rw [if_pos rfl, show offset true = 128 from rfl]
      refine (s16_eq ?_ ?_).trans ?_ <;> omega
    | false =>
      rw [if_neg Bool.false_ne_true, show offset false = 0 from rfl]
      omega
  · refine Block.ext fun y x => ?_
    have hinv := @inverse_transform 0 255 d le_rfl (fun y x => by simpa using hd y x) y x
    unfold ifwht
    dsimp only
    rw [Block.at_ofFn, if_neg Bool.false_ne_true]
    refine (congrArg (· / 2 ^ 6) hinv).trans ?_
    omega

theorem ifwht_inverts_flat : ifwht (fwht (fun a => if a < 8 then 255 else 0) 0 8 1 true) true =
      samples (fun a => if a < 8 then 255 else 0) 0 8 1 ∧
    ifwht (fwht16 (flatBlock (-255))) false = flatBlock (-255) :=
  ifwht_inverts _ 0 8 1 true (d := flatBlock (-255)) (by decide)

end Vicodec
end TbsMedia
