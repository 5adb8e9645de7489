import Mathlib.Data.List.ProdSigma
import Mathlib.Tactic.Ring
import TbsMedia.Vicodec.Decode

/-!
# Where the samples of a plane lie

The samples of a plane are `step` apart in a row and `stride` apart in a column.  A plane fits its buffer
if a row is no longer than the stride and the whole plane lies in less than 4 GiB.

* `Plane.Fits`: what the callers provide for.
* `Plane.addr_inj`: different samples have different addresses.
* `Plane.Laid.found`: the 32-bit arithmetic of the loops finds the samples of a block.
* `nodup_blockStores`, `mem_blockStores`: a plane that is stored block by block is stored once.
-/

namespace TbsMedia
namespace Vicodec

open Lib

/-- The address of the sample in row `r` and column `c`. -/
def Plane.addr (P : Plane) (r c : ℕ) : ℕ := P.base + r * P.stride + c * P.step

/-- A plane of `height` rows of `width` samples lies in a buffer of less than 4 GiB. -/
structure Plane.Fits (P : Plane) (height width : ℕ) : Prop where
  step_pos : 0 < P.step
  row : width * P.step ≤ P.stride
  plane : height * P.stride < 2 ^ 32

/-- A plane that fits its buffer has less than `2 ^ 32` samples. -/
theorem Plane.Fits.samples_lt {P : Plane} {height width : ℕ} (hfit : P.Fits height width) :
    width * height < 2 ^ 32 := by
  have hle : width ≤ P.stride := (Nat.le_mul_of_pos_right _ hfit.step_pos).trans hfit.row
  calc width * height = height * width := Nat.mul_comm _ _
    _ ≤ height * P.stride := Nat.mul_le_mul_left _ hle
    _ < 2 ^ 32 := hfit.plane

/-- Different samples have different addresses. -/
theorem Plane.addr_inj {P : Plane} {width r r' c c' : ℕ} (hstep : 0 < P.step)
    (hrow : width * P.step ≤ P.stride) (hc : c < width) (hc' : c' < width)
    (h : P.addr r c = P.addr r' c') : r = r' ∧ c = c' := by
  unfold Plane.addr at h
  have hlt : ∀ {d : ℕ}, d < width → d * P.step < P.stride := fun hd =>
    ((Nat.mul_lt_mul_right hstep).2 hd).trans_le hrow
  have hle : ∀ {a b : ℕ}, a < b → a * P.stride + P.stride ≤ b * P.stride := fun hab =>
    (Nat.succ_mul _ _).symm.le.trans (Nat.mul_le_mul_right _ hab)
  have hreq : r = r' := by
    rcases Nat.lt_trichotomy r r' with hlt' | heq | hgt
    · have := hlt hc
      have := hle hlt'
      omega
    · exact heq
    · have := hlt hc'
      have := hle hgt
      omega
  subst hreq
  exact ⟨rfl, Nat.eq_of_mul_eq_mul_right hstep (by omega)⟩

/-! ## Blocks -/

/-- The row of a plane that a row of block number `k` is in. -/
def blockRow (columns k : ℕ) (y : Fin 8) : ℕ := 8 * (k / columns) + y

/-- The column of a plane that a column of block number `k` is in. -/
def blockColumn (columns k : ℕ) (x : Fin 8) : ℕ := 8 * (k % columns) + x

theorem blockRow_lt {height columns k : ℕ} (hk : k < height / 8 * columns) (y : Fin 8) :
    blockRow columns k y < height := by
  have hdiv : k / columns < height / 8 := Nat.div_lt_of_lt_mul (by rwa [Nat.mul_comm])
  unfold blockRow
  omega

theorem blockColumn_lt {n width k : ℕ} (hk : k < n * (width / 8)) (x : Fin 8) :
    blockColumn (width / 8) k x < width := by
  have hpos : 0 < width / 8 := Nat.pos_of_ne_zero fun h => by simp [h] at hk
  have hmod := Nat.mod_lt k hpos
  unfold blockColumn
  omega

/-- Row and column of a sample say which block it is in, and where. -/
theorem block_eq {columns k k' : ℕ} {y y' x x' : Fin 8} (hr : blockRow columns k y = blockRow columns k' y')
    (hc : blockColumn columns k x = blockColumn columns k' x') : k = k' ∧ y = y' ∧ x = x' := by
  unfold blockRow at hr
  unfold blockColumn at hc
  have hdiv : k / columns = k' / columns := by omega
  have hmod : k % columns = k' % columns := by omega
  refine ⟨?_, Fin.ext (by omega), Fin.ext (by omega)⟩
  rw [← Nat.div_add_mod k columns, ← Nat.div_add_mod k' columns, hdiv, hmod]

/-- Every sample is in a block. -/
theorem exists_block {height width r c : ℕ} (hh : 8 ∣ height) (hw : 8 ∣ width) (hr : r < height)
    (hc : c < width) : ∃ k < height / 8 * (width / 8), ∃ y x : Fin 8,
      blockRow (width / 8) k y = r ∧ blockColumn (width / 8) k x = c := by
  obtain ⟨n, rfl⟩ := hh
  obtain ⟨m, rfl⟩ := hw
  rw [Nat.mul_div_cancel_left _ (by omega), Nat.mul_div_cancel_left _ (by omega)]
  have hcol : c / 8 < m := by omega
  have hrow : r / 8 < n := by omega
  refine ⟨m * (r / 8) + c / 8, ?_, ⟨r % 8, by omega⟩, ⟨c % 8, by omega⟩, ?_, ?_⟩
  · calc m * (r / 8) + c / 8 < m * (r / 8) + m := by omega
      _ = m * (r / 8 + 1) := (Nat.mul_succ _ _).symm
      _ ≤ m * n := Nat.mul_le_mul_left _ hrow
      _ = n * m := Nat.mul_comm _ _
  · unfold blockRow
    rw [Nat.mul_add_div (by omega), Nat.div_eq_of_lt hcol]
    dsimp only
    omega
  · unfold blockColumn
    rw [Nat.mul_add_mod, Nat.mod_eq_of_lt hcol]
    dsimp only
    omega

/-- The rows of a plane follow one another: none is longer than the stride, which is a `u32`. -/
structure Plane.Laid (P : Plane) (width : ℕ) : Prop where
  step_pos : 0 < P.step
  row : width * P.step ≤ P.stride
  stride : P.stride < 2 ^ 32

theorem Plane.Fits.laid {P : Plane} {height width : ℕ} (hfit : P.Fits height width) (hh : 0 < height) :
    P.Laid width :=
  ⟨hfit.step_pos, hfit.row, (Nat.le_mul_of_pos_left _ hh).trans_lt hfit.plane⟩

/-- Where the loops find a sample of a block.  Only the offset of the row of blocks can wrap. -/
theorem Plane.Laid.sampleAddr_blockAddr {P : Plane} {n width k : ℕ} (hlaid : P.Laid width)
    (hk : k < n * (width / 8)) (y x : Fin 8) :
    sampleAddr (blockAddr P.base P.stride P.step (width / 8) k) P.stride P.step y x =
      P.base + u32 (k / (width / 8) * 8 * P.stride) + y * P.stride +
        blockColumn (width / 8) k x * P.step := by
  have hcol := blockColumn_lt hk x
  have hw8 : 8 ≤ width := by
    have hpos : 0 < width / 8 := Nat.pos_of_ne_zero fun h => by simp [h] at hk
    omega
  have hstep : 8 * P.step ≤ P.stride := (Nat.mul_le_mul_right _ hw8).trans hlaid.row
  have hi : k % (width / 8) * 8 * P.step < 2 ^ 32 := by
    have hle : k % (width / 8) * 8 ≤ width := by
      unfold blockColumn at hcol
      omega
    exact ((Nat.mul_le_mul_right _ hle).trans hlaid.row).trans_lt hlaid.stride
  unfold sampleAddr blockAddr blockColumn
  rw [u32Sub_eq hlaid.stride hstep, u32, u32, Nat.mod_eq_of_lt hi, Nat.add_sub_cancel' hstep]
  ring

/-- The loops find the samples of every block. -/
def Plane.Found (P : Plane) (height width : ℕ) : Prop :=
  ∀ k < height / 8 * (width / 8), ∀ y x : Fin 8,
    sampleAddr (blockAddr P.base P.stride P.step (width / 8) k) P.stride P.step y x =
      P.addr (blockRow (width / 8) k y) (blockColumn (width / 8) k x)

/-- **The 32-bit arithmetic of the loops finds the samples of a block** if the last row of blocks has an
offset of 32 bits. -/
theorem Plane.Laid.found {P : Plane} {height width : ℕ} (hlaid : P.Laid width)
    (hoff : (height - 8) * P.stride < 2 ^ 32) : P.Found height width := by
  intro k hk y x
  have hj : k / (width / 8) * 8 * P.stride < 2 ^ 32 := by
    have hdiv : k / (width / 8) < height / 8 := Nat.div_lt_of_lt_mul (by rwa [Nat.mul_comm])
    exact (Nat.mul_le_mul_right _ (by omega)).trans_lt hoff
  rw [hlaid.sampleAddr_blockAddr hk, u32, Nat.mod_eq_of_lt hj]
  unfold Plane.addr blockRow
  ring

theorem Plane.Fits.found {P : Plane} {height width : ℕ} (hfit : P.Fits height width) :
    P.Found height width := by
  intro k hk
  have hpos : 0 < height := Nat.pos_of_ne_zero fun h => by simp [h] at hk
  exact (hfit.laid hpos).found
    ((Nat.mul_le_mul_right _ (Nat.sub_le _ _)).trans_lt hfit.plane) k hk

/-- The stores of a plane block by block. -/
def Plane.blockStores (P : Plane) (columns : ℕ) (ks : List ℕ) (content : ℕ → Block) : List (ℕ × UInt8) :=
  ks.flatMap fun k =>
    fillDecoderBlock (blockAddr P.base P.stride P.step columns k) (content k) P.stride P.step

theorem blockStores_eq (P : Plane) (columns : ℕ) (ks : List ℕ) (content : ℕ → Block) :
    P.blockStores columns ks content =
      (ks ×ˢ (List.finRange 8 ×ˢ List.finRange 8)).map fun q =>
        (sampleAddr (blockAddr P.base P.stride P.step columns q.1) P.stride P.step q.2.1 q.2.2,
          clampSample ((content q.1).at q.2.1 q.2.2)) := by
  unfold Plane.blockStores fillDecoderBlock
  simp only [SProd.sprod, List.product, List.map_flatMap, List.map_map]
  rfl

/-- What is stored of a plane, and where. -/
theorem mem_blockStores {P : Plane} {height width : ℕ} (hfound : P.Found height width)
    {content : ℕ → Block} {a : ℕ} {v : UInt8} :
    (a, v) ∈ P.blockStores (width / 8) (List.range (height / 8 * (width / 8))) content ↔
      ∃ k < height / 8 * (width / 8), ∃ y x : Fin 8,
        P.addr (blockRow (width / 8) k y) (blockColumn (width / 8) k x) = a ∧
          clampSample ((content k).at y x) = v := by
  rw [blockStores_eq, List.mem_map]
  constructor
  · rintro ⟨⟨k, y, x⟩, hq, heq⟩
    have hk : k < height / 8 * (width / 8) := List.mem_range.1 (List.pair_mem_product.1 hq).1
    rw [Prod.mk.injEq] at heq
    exact ⟨k, hk, y, x, (hfound k hk y x).symm.trans heq.1, heq.2⟩
  · rintro ⟨k, hk, y, x, ha, hv⟩
    refine ⟨(k, y, x), ?_, ?_⟩
    · exact List.pair_mem_product.2 ⟨List.mem_range.2 hk,
        List.pair_mem_product.2 ⟨List.mem_finRange _, List.mem_finRange _⟩⟩
    · rw [← ha, ← hv, hfound k hk y x]

/-- **No sample of a plane is stored twice.** -/
theorem nodup_blockStores {P : Plane} {height width : ℕ} (hfound : P.Found height width)
    (hstep : 0 < P.step) (hrow : width * P.step ≤ P.stride) (content : ℕ → Block) :
    ((P.blockStores (width / 8) (List.range (height / 8 * (width / 8))) content).map Prod.fst).Nodup := by
  rw [blockStores_eq, List.map_map]
  refine List.Nodup.map_on ?_
    (List.nodup_range.product ((List.nodup_finRange 8).product (List.nodup_finRange 8)))
  rintro ⟨k, y, x⟩ hq ⟨k', y', x'⟩ hq' heq
  have hk : k < height / 8 * (width / 8) := List.mem_range.1 (List.pair_mem_product.1 hq).1
  have hk' : k' < height / 8 * (width / 8) := List.mem_range.1 (List.pair_mem_product.1 hq').1
  have haddr : P.addr (blockRow (width / 8) k y) (blockColumn (width / 8) k x) =
      P.addr (blockRow (width / 8) k' y') (blockColumn (width / 8) k' x') :=
    (hfound k hk y x).symm.trans (Eq.trans heq (hfound k' hk' y' x'))
  obtain ⟨hr, hc⟩ := Plane.addr_inj hstep hrow (blockColumn_lt hk x) (blockColumn_lt hk' x') haddr
  obtain ⟨rfl, rfl, rfl⟩ := block_eq hr hc
  rfl

end Vicodec
end TbsMedia
