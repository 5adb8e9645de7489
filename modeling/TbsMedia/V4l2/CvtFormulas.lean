import TbsMedia.V4l2.DetectCvt

/-!
# The CVT formulas, and when the detection computes them

The formulas of the standard in natural numbers, and what the detection computes in registers of 32 bits.

* `lineLength`, `activeLines` and the others: the formulas.
* `cvtVars_iff`: where the duty cycle of the normal blanking does not go below zero, the variables are those of the
  formulas, but for the pixel clock, which is the product in its register.
* `selfConsistent_iff`: the timings fit together and nothing wraps exactly when also that product fits.
-/

namespace TbsMedia
namespace V4l2

open Lib.Wrapping

/-! ## The formulas -/

namespace CvtInput

def reduced (i : CvtInput) : Bool := i.polarities == V4L2_DV_HSYNC_POS_POL

def rbV2 (i : CvtInput) : Bool := i.reduced && i.vsync == 8

/-- The inputs the detection is asked about. -/
structure InDomain (i : CvtInput) : Prop where
  frameHeight_le : i.frameHeight ≤ 16384
  hfreq_pos : 1 ≤ i.hfreq
  hfreq_le : i.hfreq ≤ 1000000
  activeWidth_le : i.activeWidth ≤ 16384

def frontPorch (i : CvtInput) : ℕ :=
  if i.rbV2 then max 1 (460 * i.hfreq / 1000000 + 1 - (i.vsync + 6)) else 3

def backPorch (i : CvtInput) : ℕ :=
  if i.rbV2 then 6
  else if i.reduced then max 7 (460 * i.hfreq / 1000000 + 1 - (i.vsync + 3))
  else max 7 (550 * i.hfreq / 1000000 + 1 - i.vsync)

def fieldBlanking (i : CvtInput) : ℕ := i.frontPorch + i.vsync + i.backPorch

def activeLines (i : CvtInput) : ℕ :=
  if i.interlaced then (i.frameHeight - 2 * i.fieldBlanking) / 2 * 2
  else (i.frameHeight + 1 - i.fieldBlanking) / 2 * 2

def activePixels (i : CvtInput) : ℕ :=
  match i.vsync with
  | 4 => i.activeLines * 4 / 3 / 8 * 8
  | 5 => i.activeLines * 16 / 9 / 8 * 8
  | 6 => i.activeLines * 16 / 10 / 8 * 8
  | 7 => 1280
  | _ => i.activeWidth

def dutyCycle (i : CvtInput) : ℕ := max 2000 (3000 - 30000000 / i.hfreq)

def blankPixels (i : CvtInput) : ℕ :=
  if i.rbV2 then 80
  else if i.reduced then 160
  else i.activePixels * i.dutyCycle / (10000 - i.dutyCycle) / 16 * 16

def lineLength (i : CvtInput) : ℕ := i.activePixels + i.blankPixels

def syncPixels (i : CvtInput) : ℕ := if i.reduced then 32 else i.lineLength * 8 / 100 / 8 * 8

def granularity (i : CvtInput) : ℤ := if i.rbV2 then CVT_PXL_CLK_GRAN_RB_V2 else CVT_PXL_CLK_GRAN

/-- What has to hold of the input for there to be CVT timings at all. -/
structure Detects (i : CvtInput) : Prop where
  vsync_ge : 4 ≤ i.vsync
  vsync_le : i.vsync ≤ 8
  known : i.polarities = V4L2_DV_VSYNC_POS_POL ∨ i.polarities = V4L2_DV_HSYNC_POS_POL
  width : i.rbV2 → i.activeWidth ≠ 0
  vsync8 : i.vsync = 8 → i.reduced
  lines : if i.interlaced then 2 * i.fieldBlanking ≤ i.frameHeight else i.fieldBlanking ≤ i.frameHeight + 1
  vsync7 : i.vsync = 7 → i.activeLines = 1024 ∨ i.activeLines = 768

/-- The duty cycle of the normal blanking is not below zero. -/
def DutyFits (i : CvtInput) : Prop := i.reduced ∨ 9997 ≤ i.hfreq

end CvtInput

open CvtInput

variable {A : Arith} {i : CvtInput}

theorem frontPorch_le (hi : i.InDomain) : i.frontPorch ≤ 461 := by
  have := hi.hfreq_le
  unfold frontPorch
  split <;> omega

theorem backPorch_le (hi : i.InDomain) : i.backPorch ≤ 551 := by
  have := hi.hfreq_le
  unfold backPorch
  split
  · omega
  · split <;> omega

theorem backPorch_ge : 6 ≤ i.backPorch := by
  unfold backPorch
  split
  · omega
  · split <;> omega

theorem activeLines_le (hi : i.InDomain) : i.activeLines ≤ 16384 := by
  have := hi.frameHeight_le
  have := backPorch_ge (i := i)
  unfold activeLines fieldBlanking
  split <;> omega

theorem activePixels_le (hi : i.InDomain) : i.activePixels ≤ 29127 := by
  have := activeLines_le hi
  have := hi.activeWidth_le
  unfold activePixels
  split <;> omega

/-! ## The stages -/

/-- The time of the blanking in lines is far from the ends of the registers. -/
theorem blankLines_eq (hA : Agrees A 32) (hi : i.InDomain) {t : ℕ} (ht : t ≤ 550) :
    A.u ((t : ℤ) * i.hfreq) / 1000000 = ((t * i.hfreq / 1000000 : ℕ) : ℤ) := by
  have hle : t * i.hfreq ≤ 550 * 1000000 := Nat.mul_le_mul ht hi.hfreq_le
  have hz : ((t * i.hfreq : ℕ) : ℤ) = t * i.hfreq := by push_cast; rfl
  rw [← hz, hA.u_eq (by omega) (by omega)]
  omega

theorem blankLines_le (hi : i.InDomain) {t : ℕ} (ht : t ≤ 550) : t * i.hfreq / 1000000 ≤ 550 :=
  Nat.div_le_of_le_mul ((Nat.mul_le_mul ht hi.hfreq_le).trans (by omega))

/-- The lines of the reduced blanking that are left beside `c` lines and the vertical sync. -/
theorem reducedLines_eq (hA : Agrees A 32) (hi : i.InDomain) (hv : i.vsync ≤ 8) {c : ℤ} (hc : 0 ≤ c) (hc' : c ≤ 6) :
    A.s (A.s (A.u (460 * i.hfreq) / 1000000 + 1) - (i.vsync + c)) =
      ((460 * i.hfreq / 1000000 : ℕ) : ℤ) + 1 - (i.vsync + c) := by
  have h := blankLines_eq hA hi (t := 460) (by omega)
  have hle := blankLines_le hi (t := 460) (by omega)
  rw [Nat.cast_ofNat] at h
  rw [h]
  generalize 460 * i.hfreq / 1000000 = lines at hle
  have hs : A.s ((lines : ℤ) + 1) = lines + 1 := hA.s_eq (by omega) (by omega)
  rw [hs]
  exact hA.s_eq (by omega) (by omega)

theorem normalLines_eq (hA : Agrees A 32) (hi : i.InDomain) (hv : i.vsync ≤ 8) :
    A.s (A.u (550 * i.hfreq) / 1000000 + 1 - i.vsync) = ((550 * i.hfreq / 1000000 : ℕ) : ℤ) + 1 - i.vsync := by
  have h := blankLines_eq hA hi (t := 550) (by omega)
  have hle := blankLines_le hi (t := 550) (by omega)
  rw [Nat.cast_ofNat] at h
  rw [h]
  exact hA.s_eq (by omega) (by omega)

/-- The lower bound of a porch, in integers and in natural numbers. -/
theorem atLeast_eq (lo lines c : ℕ) :
    (if (lines : ℤ) + 1 - c < lo then (lo : ℤ) else (lines : ℤ) + 1 - c) = ((max lo (lines + 1 - c) : ℕ) : ℤ) := by
  split <;> omega

theorem vPorches_eq (hA : Agrees A 32) (hi : i.InDomain) (hv : i.vsync ≤ 8) :
    vPorches A i i.reduced i.rbV2 = (↑i.frontPorch, ↑i.backPorch) := by
  unfold vPorches frontPorch backPorch
  cases hr : i.reduced with
  | false =>
    have hv2 : i.rbV2 = false := by rw [rbV2, hr, Bool.false_and]
    rw [hv2]
    simp only [Bool.false_eq_true, if_false]
    rw [normalLines_eq hA hi hv]
    exact Prod.ext rfl (atLeast_eq 7 _ i.vsync)
  | true =>
    simp only [if_true]
    cases hv2 : i.rbV2 with
    | false =>
      simp only [Bool.false_eq_true, if_false]
      rw [reducedLines_eq hA hi hv (by omega) (by omega)]
      exact Prod.ext rfl (atLeast_eq 7 _ (i.vsync + 3))
    | true =>
      simp only [if_true]
      rw [reducedLines_eq hA hi hv (by omega) (by omega)]
      exact Prod.ext (atLeast_eq 1 _ (i.vsync + 6)) rfl

/-- The lines that are left of the frame; there may be too few of them. -/
def linesLeft (i : CvtInput) : ℤ :=
  if i.interlaced then i.frameHeight - 2 * i.fieldBlanking else i.frameHeight - i.fieldBlanking + 1

theorem imageHeight_eq (hA : Agrees A 32) (hi : i.InDomain) (hv : i.vsync ≤ 8) :
    imageHeight A i i.frontPorch i.backPorch = linesLeft i - linesLeft i % 2 := by
  have := hi.frameHeight_le
  have hf := frontPorch_le hi
  have hb := backPorch_le hi
  have h2 : (2 : ℤ) ∣ 2 ^ 32 := by decide
  unfold imageHeight linesLeft fieldBlanking
  split
  · dsimp only
    rw [hA.s_u_round h2, hA.s_eq (by omega) (by omega)]
    push_cast
    ring_nf
  · dsimp only
    rw [hA.s_u_round h2, hA.s_eq (by omega) (by omega)]
    push_cast
    ring_nf

/-- There is a height exactly where there are enough lines. -/
theorem imageHeight_nonneg_iff (hA : Agrees A 32) (hi : i.InDomain) (hv : i.vsync ≤ 8) :
    0 ≤ imageHeight A i i.frontPorch i.backPorch ↔
      if i.interlaced then 2 * i.fieldBlanking ≤ i.frameHeight else i.fieldBlanking ≤ i.frameHeight + 1 := by
  rw [imageHeight_eq hA hi hv]
  unfold linesLeft
  split <;> omega

theorem imageHeight_eq_activeLines (hA : Agrees A 32) (hi : i.InDomain) (hv : i.vsync ≤ 8)
    (h0 : 0 ≤ imageHeight A i i.frontPorch i.backPorch) :
    imageHeight A i i.frontPorch i.backPorch = i.activeLines := by
  rw [imageHeight_eq hA hi hv] at h0 ⊢
  unfold linesLeft activeLines at *
  split at h0 <;> simp only [*, if_true, if_false, Bool.false_eq_true] <;> omega

theorem rbV2_iff : i.rbV2 = true ↔ i.reduced = true ∧ i.vsync = 8 := by
  rw [rbV2, Bool.and_eq_true, beq_iff_eq]

/-- The width of the lines at the ratio `m : d`, down to a multiple of eight. -/
theorem ratio_eq (hA : Agrees A 32) {lines : ℕ} (m d : ℕ) (hl : lines ≤ 16384) (hm : m ≤ 16) :
    (A.s ((lines : ℤ) * m)).tdiv d - (A.s ((lines : ℤ) * m)).tdiv d % 8 = ((lines * m / d / 8 * 8 : ℕ) : ℤ) := by
  have hle : lines * m ≤ 16384 * 16 := Nat.mul_le_mul hl hm
  have hz : (lines : ℤ) * m = ((lines * m : ℕ) : ℤ) := by push_cast; rfl
  have htdiv : (A.s ((lines : ℤ) * m)).tdiv d = ((lines * m / d : ℕ) : ℤ) := by
    rw [hz, hA.s_eq (by omega) (by omega), Int.tdiv_eq_ediv_of_nonneg (by omega)]
    exact (Int.natCast_ediv _ _).symm
  rw [htdiv]
  omega

/-- Only the special case of the vertical sync may have no width. -/
theorem imageWidth_cases (hA : Agrees A 32) (hi : i.InDomain) (hge : 4 ≤ i.vsync) (hle : i.vsync ≤ 8)
    (h8 : i.vsync = 8 → i.reduced = true) :
    (imageWidth A i.vsync i.activeWidth i.activeLines = none ∧
        i.vsync = 7 ∧ ¬ (i.activeLines = 1024 ∨ i.activeLines = 768)) ∨
      ∃ w, imageWidth A i.vsync i.activeWidth i.activeLines = some w ∧
        (i.vsync = 7 → i.activeLines = 1024 ∨ i.activeLines = 768) ∧
        (if i.rbV2 then w else w - w % 8) = i.activePixels := by
  have hl := activeLines_le hi
  have haw := hi.activeWidth_le
  have hnot : i.vsync ≠ 8 → i.rbV2 = false := fun h => by
    rw [Bool.eq_false_iff, Ne, rbV2_iff]
    exact fun hb => h hb.2
  obtain h | h | h | h | h : i.vsync = 4 ∨ i.vsync = 5 ∨ i.vsync = 6 ∨ i.vsync = 7 ∨ i.vsync = 8 := by omega
  · refine .inr ⟨(A.s ((i.activeLines : ℤ) * 4)).tdiv 3, by rw [h]; rfl, by omega, ?_⟩
    have hpix : i.activePixels = i.activeLines * 4 / 3 / 8 * 8 := by simp only [activePixels, h]
    rw [hnot (by omega), hpix, if_neg Bool.false_ne_true]
    exact ratio_eq hA 4 3 hl (by omega)
  · refine .inr ⟨(A.s ((i.activeLines : ℤ) * 16)).tdiv 9, by rw [h]; rfl, by omega, ?_⟩
    have hpix : i.activePixels = i.activeLines * 16 / 9 / 8 * 8 := by simp only [activePixels, h]
    rw [hnot (by omega), hpix, if_neg Bool.false_ne_true]
    exact ratio_eq hA 16 9 hl (by omega)
  · refine .inr ⟨(A.s ((i.activeLines : ℤ) * 16)).tdiv 10, by rw [h]; rfl, by omega, ?_⟩
    have hpix : i.activePixels = i.activeLines * 16 / 10 / 8 * 8 := by simp only [activePixels, h]
    rw [hnot (by omega), hpix, if_neg Bool.false_ne_true]
    exact ratio_eq hA 16 10 hl (by omega)
  · have hpix : i.activePixels = 1280 := by simp only [activePixels, h]
    rw [hnot (by omega), hpix, h]
    simp only [imageWidth, Bool.false_eq_true, if_false]
    by_cases h1024 : i.activeLines = 1024
    · refine .inr ⟨1280, ?_, fun _ => .inl h1024, by decide⟩
      rw [if_pos (by omega), h1024, hA.s_eq (by omega) (by omega)]
      rfl
    · by_cases h768 : i.activeLines = 768
      · refine .inr ⟨1280, ?_, fun _ => .inr h768, by decide⟩
        rw [if_neg (by omega), if_pos (by omega), h768, hA.s_eq (by omega) (by omega)]
        rfl
      · refine .inl ⟨?_, trivial, fun hor => hor.elim h1024 h768⟩
        rw [if_neg (by omega), if_neg (by omega)]
  · have hb : i.rbV2 = true := rbV2_iff.2 ⟨h8 h, h⟩
    have hpix : i.activePixels = i.activeWidth := by simp only [activePixels, h]
    refine .inr ⟨i.activeWidth, ?_, by omega, ?_⟩
    · rw [h]
      exact congrArg some (hA.s_eq (by omega) (by omega))
    · rw [hb, if_pos rfl, hpix]

/-! ## The horizontal part -/

/-- The variables of the horizontal part, with the product of line length and frequency in its register. -/
def formulaH (i : CvtInput) (product : ℤ) : HTiming where
  duty := if i.reduced then 0 else i.dutyCycle
  hBlank := i.blankPixels
  pixClk := product / i.granularity * i.granularity
  hBp := (i.blankPixels / 2 : ℕ)
  frameWidth := i.lineLength
  hsync := i.syncPixels
  hFp := (i.blankPixels : ℤ) - i.syncPixels - (i.blankPixels / 2 : ℕ)

theorem dutyCycle_bounds : 2000 ≤ i.dutyCycle ∧ i.dutyCycle ≤ 3000 := by
  unfold dutyCycle
  generalize 30000000 / i.hfreq = q
  omega

/-- The blanking is no longer than the picture: half of the line at the most. -/
theorem blank_le : i.activePixels * i.dutyCycle / (10000 - i.dutyCycle) ≤ i.activePixels := by
  obtain ⟨_, h3000⟩ := dutyCycle_bounds (i := i)
  refine Nat.div_le_of_le_mul ?_
  rw [Nat.mul_comm]
  exact Nat.mul_le_mul_right _ (by omega)

/-- The blanking is at least a quarter of the picture: a fifth of the line. -/
theorem blank_ge : i.activePixels / 4 ≤ i.activePixels * i.dutyCycle / (10000 - i.dutyCycle) := by
  obtain ⟨h2000, h3000⟩ := dutyCycle_bounds (i := i)
  refine (Nat.le_div_iff_mul_le (by omega)).2 ?_
  calc i.activePixels / 4 * (10000 - i.dutyCycle) ≤ i.activePixels / 4 * (4 * i.dutyCycle) :=
        Nat.mul_le_mul_left _ (by omega)
    _ = i.activePixels / 4 * 4 * i.dutyCycle := (Nat.mul_assoc _ _ _).symm
    _ ≤ i.activePixels * i.dutyCycle := Nat.mul_le_mul_right _ (Nat.div_mul_le_self _ _)

theorem blankPixels_le : i.blankPixels ≤ max 160 i.activePixels := by
  have := blank_le (i := i)
  unfold blankPixels
  split
  · omega
  · split <;> omega

theorem reducedHorizontal_eq (hA : Agrees A 32) (hi : i.InDomain) (hr : i.reduced = true) :
    reducedHorizontal A i.rbV2 i.activePixels i.hfreq = formulaH i (A.u (i.lineLength * i.hfreq)) := by
  have hpix := activePixels_le hi
  have hsync : i.syncPixels = 32 := by rw [syncPixels, hr, if_pos rfl]
  cases hv2 : i.rbV2 with
  | true =>
    have hblank : i.blankPixels = 80 := by rw [blankPixels, hv2, if_pos rfl]
    have hline : A.s ((i.activePixels : ℤ) + 80) = i.lineLength := by
      rw [lineLength, hblank, hA.s_eq (by omega) (by omega)]
      rfl
    have hfp : A.s ((80 : ℤ) - 40 - 32) = 8 := hA.s_eq (by omega) (by omega)
    unfold reducedHorizontal formulaH granularity
    rw [hr, hv2, hsync, hblank]
    simp only [if_true]
    rw [hline]
    exact congrArg (fun x => (⟨0, 80, _, 40, _, 32, x⟩ : HTiming)) hfp
  | false =>
    have hblank : i.blankPixels = 160 := by rw [blankPixels, hv2, hr]; rfl
    have hline : A.s ((i.activePixels : ℤ) + 160) = i.lineLength := by
      rw [lineLength, hblank, hA.s_eq (by omega) (by omega)]
      rfl
    have hfp : A.s ((160 : ℤ) - 80 - 32) = 48 := hA.s_eq (by omega) (by omega)
    unfold reducedHorizontal formulaH granularity
    rw [hr, hv2, hsync, hblank]
    simp only [Bool.false_eq_true, if_true, if_false]
    rw [hline]
    exact congrArg (fun x => (⟨0, 160, _, 80, _, 32, x⟩ : HTiming)) hfp

theorem idealDutyCycle_eq (hA : Agrees A 32) (hfreq : 9997 ≤ i.hfreq) : idealDutyCycle A i.hfreq = i.dutyCycle := by
  have hq : 30000000 / i.hfreq ≤ 3000 := by
    refine Nat.lt_succ_iff.1 ((Nat.div_lt_iff_lt_mul (by omega)).2 ?_)
    omega
  have hz : (30000000 : ℤ) / i.hfreq = ((30000000 / i.hfreq : ℕ) : ℤ) := (Int.natCast_ediv _ _).symm
  unfold idealDutyCycle dutyCycle
  rw [hz]
  generalize 30000000 / i.hfreq = q at hq
  rw [hA.u_eq (by omega) (by omega)]
  dsimp only
  split <;> omega

theorem normalHorizontal_eq (hA : Agrees A 32) (hi : i.InDomain) (hr : i.reduced = false) (hfreq : 9997 ≤ i.hfreq) :
    normalHorizontal A i.activePixels i.hfreq = formulaH i (A.u (i.lineLength * i.hfreq)) := by
  have hpix := activePixels_le hi
  obtain ⟨h2000, h3000⟩ := dutyCycle_bounds (i := i)
  have hv2 : i.rbV2 = false := by rw [rbV2, hr, Bool.false_and]
  have hle := blank_le (i := i)
  have hblankDef : i.blankPixels = i.activePixels * i.dutyCycle / (10000 - i.dutyCycle) / 16 * 16 := by
    rw [blankPixels, hv2, hr]
    rfl
  have hprod : i.activePixels * i.dutyCycle ≤ 29127 * 3000 := Nat.mul_le_mul hpix h3000
  have hquot : A.s (A.u ((i.activePixels : ℤ) * i.dutyCycle) / A.u (10000 - i.dutyCycle)) =
      ((i.activePixels * i.dutyCycle / (10000 - i.dutyCycle) : ℕ) : ℤ) := by
    have hz : (i.activePixels : ℤ) * i.dutyCycle = ((i.activePixels * i.dutyCycle : ℕ) : ℤ) := by push_cast; rfl
    have hsub : (10000 : ℤ) - i.dutyCycle = ((10000 - i.dutyCycle : ℕ) : ℤ) := by omega
    rw [hz, hsub, hA.u_eq (by omega) (by omega), hA.u_eq (by omega) (by omega), ← Int.natCast_ediv]
    exact hA.s_eq (by omega) (by omega)
  have hblank : ((i.activePixels * i.dutyCycle / (10000 - i.dutyCycle) : ℕ) : ℤ).tdiv 16 * 2 * 8 = i.blankPixels := by
    rw [Int.tdiv_eq_ediv_of_nonneg (by omega)]
    omega
  have hline : A.s ((i.activePixels : ℤ) + i.blankPixels) = i.lineLength := by
    rw [hA.s_eq (by omega) (by omega)]
    exact (Nat.cast_add _ _).symm
  have hlineLe : i.lineLength ≤ 29127 + 29127 := by
    unfold lineLength
    omega
  have hsync : ((A.s ((i.lineLength : ℤ) * 8)).tdiv 100).tdiv 8 * 8 = i.syncPixels := by
    have h100 : ((i.lineLength : ℤ) * 8).tdiv 100 = (i.lineLength : ℤ) * 8 / 100 :=
      Int.tdiv_eq_ediv_of_nonneg (by omega)
    rw [hA.s_eq (by omega) (by omega), h100, Int.tdiv_eq_ediv_of_nonneg (by omega), syncPixels, hr]
    simp only [Bool.false_eq_true, if_false]
    omega
  have hsyncLe : i.syncPixels ≤ i.lineLength := by
    rw [syncPixels, hr]
    simp only [Bool.false_eq_true, if_false]
    omega
  have hbp : (i.blankPixels : ℤ).tdiv 2 = (i.blankPixels / 2 : ℕ) := by
    rw [Int.tdiv_eq_ediv_of_nonneg (by omega)]
    omega
  unfold normalHorizontal formulaH granularity
  rw [idealDutyCycle_eq hA hfreq, hr, hv2]
  simp only [Bool.false_eq_true, if_false]
  rw [hquot, hblank, hline, hsync, hbp, hA.s_eq (by omega) (by omega)]

/-! ## The variables -/

/-- The local variables, with the product of line length and frequency in its register. -/
def formulaVars (i : CvtInput) (product : ℤ) : CvtVars where
  vFp := i.frontPorch
  vBp := i.backPorch
  imageHeight := i.activeLines
  imageWidth := i.activePixels
  h := formulaH i product

theorem reducedBlanking_eq (hpol : i.polarities = V4L2_DV_VSYNC_POS_POL ∨ i.polarities = V4L2_DV_HSYNC_POS_POL) :
    reducedBlanking i.polarities = some i.reduced := by
  unfold reducedBlanking CvtInput.reduced
  rcases hpol with h | h <;> rw [h] <;> rfl

theorem reducedBlanking_known {r : Bool} (h : reducedBlanking i.polarities = some r) :
    i.polarities = V4L2_DV_VSYNC_POS_POL ∨ i.polarities = V4L2_DV_HSYNC_POS_POL := by
  unfold reducedBlanking at h
  split at h
  · exact .inl ‹_›
  · split at h
    · exact .inr ‹_›
    · exact absurd h (Option.some_ne_none r).symm

/-- What the body has passed when there is a result, and what it is then. -/
theorem cvtVars_cases {v : CvtVars} (h : cvtVars A i = some v) :
    4 ≤ i.vsync ∧ i.vsync ≤ 8 ∧
      (i.polarities = V4L2_DV_VSYNC_POS_POL ∨ i.polarities = V4L2_DV_HSYNC_POS_POL) ∧
      (i.rbV2 = true → i.activeWidth ≠ 0) ∧ (i.vsync = 8 → i.reduced = true) ∧
      ∃ p, p = vPorches A i i.reduced i.rbV2 ∧ 0 ≤ imageHeight A i p.1 p.2 ∧
        ∃ w, imageWidth A i.vsync i.activeWidth (imageHeight A i p.1 p.2) = some w ∧
          v.h = if i.reduced then reducedHorizontal A i.rbV2 (if i.rbV2 then w else w - w % 8) i.hfreq
            else normalHorizontal A (if i.rbV2 then w else w - w % 8) i.hfreq := by
  unfold cvtVars at h
  split at h
  · cases h
  rename_i hv
  split at h
  · cases h
  rename_i r hr
  have hknown := reducedBlanking_known hr
  obtain rfl : i.reduced = r := Option.some.inj ((reducedBlanking_eq hknown).symm.trans hr)
  rw [← CvtInput.rbV2] at h
  dsimp only at h
  split at h
  · cases h
  rename_i hwidth
  split at h
  · cases h
  rename_i h7
  split at h
  · cases h
  split at h
  · cases h
  rename_i hheight
  split at h
  · cases h
  rename_i w hw
  cases h
  refine ⟨by omega, by omega, hknown, fun hb h0 => hwidth ⟨hb, h0⟩, fun h8 => ?_, _, rfl, by omega, w, hw, rfl⟩
  by_contra hred
  exact h7 ⟨fun hb => hred (rbV2_iff.1 hb).1, by omega⟩

/-- A result is there only for an input that has CVT timings. -/
theorem detects_of_cvtVars (hA : Agrees A 32) (hi : i.InDomain) {v : CvtVars} (h : cvtVars A i = some v) :
    i.Detects := by
  obtain ⟨hge, hle, hknown, hwidth, h8, p, hp, h0, w, hw, -⟩ := cvtVars_cases h
  rw [vPorches_eq hA hi hle] at hp
  subst hp
  dsimp only at h0 hw
  rw [imageHeight_eq_activeLines hA hi hle h0] at hw
  refine ⟨hge, hle, hknown, hwidth, h8, (imageHeight_nonneg_iff hA hi hle).1 h0, ?_⟩
  rcases imageWidth_cases hA hi hge hle h8 with ⟨hnone, -⟩ | ⟨_, -, h7, -⟩
  · exact absurd (hw.symm.trans hnone) (Option.some_ne_none w)
  · exact h7

/-- For such an input the variables are those of the formulas. -/
theorem cvtVars_of_detects (hA : Agrees A 32) (hi : i.InDomain) (hfits : i.DutyFits) (hd : i.Detects) :
    cvtVars A i = some (formulaVars i (A.u (i.lineLength * i.hfreq))) := by
  have hle := hd.vsync_le
  have hge := hd.vsync_ge
  have h0 := (imageHeight_nonneg_iff hA hi hle).2 hd.lines
  have hlines := imageHeight_eq_activeLines hA hi hle h0
  unfold cvtVars
  rw [if_neg (by omega), reducedBlanking_eq hd.known]
  dsimp only
  rw [← CvtInput.rbV2, if_neg (fun hb => hd.width hb.1 hb.2),
    if_neg (fun hb => hb.1 (rbV2_iff.2 ⟨hd.vsync8 (by omega), by omega⟩)),
    if_neg (Nat.one_le_iff_ne_zero.1 hi.hfreq_pos), vPorches_eq hA hi hle]
  dsimp only
  rw [if_neg (not_lt.2 h0), hlines]
  rcases imageWidth_cases hA hi hge hle hd.vsync8 with ⟨-, h7, hnot⟩ | ⟨w, hw, -, hpix⟩
  · exact absurd (hd.vsync7 h7) hnot
  rw [hw]
  dsimp only
  rw [hpix]
  unfold formulaVars
  cases hr : i.reduced with
  | true => rw [if_pos rfl, reducedHorizontal_eq hA hi hr]
  | false =>
    have hfreq : 9997 ≤ i.hfreq := hfits.resolve_left (by rw [hr]; exact Bool.false_ne_true)
    rw [if_neg Bool.false_ne_true, normalHorizontal_eq hA hi hr hfreq]

/-- **What the detection computes**, as long as the duty cycle of the normal blanking does not go below zero. -/
theorem cvtVars_iff (hA : Agrees A 32) (hi : i.InDomain) (hfits : i.DutyFits) {v : CvtVars} :
    cvtVars A i = some v ↔ i.Detects ∧ v = formulaVars i (A.u (i.lineLength * i.hfreq)) := by
  refine ⟨fun h => ?_, fun ⟨hd, hv⟩ => hv ▸ cvtVars_of_detects hA hi hfits hd⟩
  have hd := detects_of_cvtVars hA hi h
  exact ⟨hd, Option.some.inj (h.symm.trans (cvtVars_of_detects hA hi hfits hd))⟩

/-! ## The timings -/

/-- The front porch, the sync and the back porch share the blanking. -/
theorem syncPixels_le : i.syncPixels ≤ i.blankPixels - i.blankPixels / 2 := by
  have hge := blank_ge (i := i)
  unfold syncPixels lineLength blankPixels
  cases hr : i.reduced with
  | true => cases i.rbV2 <;> simp
  | false =>
    have hv2 : i.rbV2 = false := by rw [rbV2, hr, Bool.false_and]
    rw [hv2]
    simp only [Bool.false_eq_true, if_false]
    omega

/-- The lines of the picture leave room for the blanking of the frame. -/
theorem activeLines_add_le (hd : i.Detects) :
    if i.interlaced then i.activeLines + 2 * i.fieldBlanking ≤ i.frameHeight
    else i.activeLines + i.fieldBlanking ≤ i.frameHeight + 1 := by
  have hlines := hd.lines
  unfold activeLines
  split at hlines <;> simp only [*, if_true, if_false, Bool.false_eq_true] <;> omega

theorem storeVertical_eq (hA : Agrees A 32) (hi : i.InDomain) (hd : i.Detects) (product : ℤ) (fmt : DvTimings) :
    storeVertical A i (formulaVars i product) fmt = storeVertical exact i (formulaVars i product) fmt := by
  have hroom := activeLines_add_le hd
  have hbp := backPorch_ge (i := i)
  have hfp := frontPorch_le hi
  have hfh := hi.frameHeight_le
  unfold fieldBlanking at hroom
  have hvFp : A.u (i.frontPorch : ℤ) = i.frontPorch := hA.u_eq (by omega) (by omega)
  unfold storeVertical formulaVars exact
  cases hint : i.interlaced with
  | false =>
    simp only [hint, Bool.false_eq_true, if_false, Bool.not_false, if_true] at hroom ⊢
    rw [hA.u_eq (by omega) (by omega)]
  | true =>
    simp only [hint, if_true, Bool.not_true, Bool.false_eq_true, if_false] at hroom ⊢
    have hrest : A.u ((i.frameHeight : ℤ) - i.activeLines - 2 * i.frontPorch - 2 * i.vsync) =
        i.frameHeight - i.activeLines - 2 * i.frontPorch - 2 * i.vsync := hA.u_eq (by omega) (by omega)
    rw [hrest, hvFp, hA.u_eq (by omega) (by omega)]

theorem storeTimings_eq (hA : Agrees A 32) (hi : i.InDomain) (hd : i.Detects) (product : ℤ) (fmt : DvTimings) :
    storeTimings A i (formulaVars i product) fmt = storeTimings exact i (formulaVars i product) fmt := by
  have hpix := activePixels_le hi
  have hblank := blankPixels_le (i := i)
  have hsync := syncPixels_le (i := i)
  have hlines := activeLines_le hi
  have hfp := frontPorch_le hi
  have hw : A.u (i.activePixels : ℤ) = i.activePixels := hA.u_eq (by omega) (by omega)
  have hh : A.u (i.activeLines : ℤ) = i.activeLines := hA.u_eq (by omega) (by omega)
  have hvFp : A.u (i.frontPorch : ℤ) = i.frontPorch := hA.u_eq (by omega) (by omega)
  have hs : A.u (i.syncPixels : ℤ) = i.syncPixels := hA.u_eq (by omega) (by omega)
  have hhFp : A.u ((i.blankPixels : ℤ) - i.syncPixels - (i.blankPixels / 2 : ℕ)) =
      i.blankPixels - i.syncPixels - (i.blankPixels / 2 : ℕ) := hA.u_eq (by omega) (by omega)
  have hback : (i.lineLength : ℤ) - i.activePixels - (i.blankPixels - i.syncPixels - (i.blankPixels / 2 : ℕ)) -
      i.syncPixels = (i.blankPixels / 2 : ℕ) := by
    unfold lineLength
    push_cast
    ring
  have hbackS : A.s ((i.blankPixels / 2 : ℕ) : ℤ) = (i.blankPixels / 2 : ℕ) := hA.s_eq (by omega) (by omega)
  have hbackU : A.u ((i.blankPixels / 2 : ℕ) : ℤ) = (i.blankPixels / 2 : ℕ) := hA.u_eq (by omega) (by omega)
  unfold storeTimings
  rw [storeVertical_eq hA hi hd]
  unfold formulaVars formulaH
  dsimp only
  rw [hw, hh, hvFp, hs, hhFp, hback, hbackS, hbackU]
  rfl

/-- The porches that the timings have; those of the second field count only with two of them. -/
def porches (i : CvtInput) (t : DvTimings) : List ℤ :=
  [t.hfrontporch, t.hbackporch, t.vfrontporch, t.vbackporch] ++
    if i.interlaced then [t.ilVfrontporch, t.ilVbackporch] else []

/-- The width of the frame with its blanking. -/
def frameWidth (t : DvTimings) : ℤ := t.width + t.hfrontporch + t.hsync + t.hbackporch

/-- The height of the frame with its blanking, of both fields together when it is interlaced. -/
def frameHeight (i : CvtInput) (t : DvTimings) : ℤ :=
  t.height + t.vfrontporch + t.vsync + t.vbackporch +
    if i.interlaced then t.ilVfrontporch + t.ilVsync + t.ilVbackporch else 0

/-- The timings fit together. -/
structure SelfConsistent (i : CvtInput) (t : DvTimings) : Prop where
  height : frameHeight i t = i.frameHeight
  porches : ∀ p ∈ porches i t, 0 ≤ p ∧ p < 2 ^ 31
  blanking : t.hfrontporch + t.hsync + t.hbackporch < frameWidth t
  pixelclock : t.pixelclock = frameWidth t * i.hfreq / i.granularity * i.granularity

/-- Every variable and every member of the result has the value it has in exact integers.  A difference that is
below zero is one: it is taken for a signed number before it is used. -/
def NoWrap (i : CvtInput) (fmt : DvTimings) : Prop :=
  cvtVars (machine 32) i = cvtVars exact i ∧ v4l2DetectCvt (machine 32) i fmt = v4l2DetectCvt exact i fmt

/-- The condition: the duty cycle is not below zero and the pixel clock fits into its register. -/
def CvtInput.Fits (i : CvtInput) : Prop := i.DutyFits ∧ i.lineLength * i.hfreq < 2 ^ 32

section Formulas

variable {product : ℤ} {fmt t : DvTimings}

theorem storeTimings_horizontal (ht : t = storeTimings exact i (formulaVars i product) fmt) :
    t.width = i.activePixels ∧ t.hfrontporch = i.blankPixels - i.syncPixels - (i.blankPixels / 2 : ℕ) ∧
      t.hsync = i.syncPixels ∧ t.hbackporch = (i.blankPixels / 2 : ℕ) ∧
      t.pixelclock = product / i.granularity * i.granularity := by
  have hback : (i.lineLength : ℤ) - i.activePixels - (i.blankPixels - i.syncPixels - (i.blankPixels / 2 : ℕ)) -
      i.syncPixels = (i.blankPixels / 2 : ℕ) := by
    unfold lineLength
    push_cast
    ring
  subst ht
  unfold storeTimings storeVertical
  cases i.interlaced <;> exact ⟨rfl, rfl, rfl, hback, rfl⟩

theorem storeTimings_vertical (ht : t = storeTimings exact i (formulaVars i product) fmt) :
    t.height = i.activeLines ∧ t.vfrontporch = i.frontPorch ∧ t.vsync = i.vsync := by
  subst ht
  unfold storeTimings storeVertical
  cases i.interlaced <;> exact ⟨rfl, rfl, rfl⟩

theorem storeTimings_progressive (hint : i.interlaced = false)
    (ht : t = storeTimings exact i (formulaVars i product) fmt) :
    t.vbackporch = i.frameHeight - i.activeLines - i.frontPorch - i.vsync := by
  subst ht
  unfold storeTimings storeVertical
  rw [hint]
  rfl

theorem storeTimings_interlaced (hint : i.interlaced = true)
    (ht : t = storeTimings exact i (formulaVars i product) fmt) :
    t.vbackporch = (i.frameHeight - i.activeLines - 2 * i.frontPorch - 2 * i.vsync : ℤ) / 2 ∧
      t.ilVbackporch = i.frameHeight - i.activeLines - 2 * i.frontPorch - 2 * i.vsync - t.vbackporch ∧
      t.ilVfrontporch = i.frontPorch ∧ t.ilVsync = i.vsync := by
  subst ht
  unfold storeTimings storeVertical
  rw [hint]
  exact ⟨rfl, rfl, rfl, rfl⟩

theorem frameWidth_eq (ht : t = storeTimings exact i (formulaVars i product) fmt) :
    frameWidth t = i.lineLength := by
  obtain ⟨hw, hfp, hs, hbp, -⟩ := storeTimings_horizontal ht
  unfold frameWidth lineLength
  rw [hw, hfp, hs, hbp]
  push_cast
  ring

theorem frameHeight_eq (ht : t = storeTimings exact i (formulaVars i product) fmt) :
    frameHeight i t = i.frameHeight := by
  obtain ⟨hh, hfp, hs⟩ := storeTimings_vertical ht
  unfold frameHeight
  cases hint : i.interlaced with
  | false =>
    rw [if_neg Bool.false_ne_true, hh, hfp, hs, storeTimings_progressive hint ht]
    ring
  | true =>
    obtain ⟨-, hil, hilFp, hilS⟩ := storeTimings_interlaced hint ht
    rw [if_pos rfl, hh, hfp, hs, hil, hilFp, hilS]
    ring

theorem porches_nonneg (hi : i.InDomain) (hd : i.Detects)
    (ht : t = storeTimings exact i (formulaVars i product) fmt) : ∀ p ∈ porches i t, 0 ≤ p ∧ p < 2 ^ 31 := by
  obtain ⟨-, hfp, -, hbp, -⟩ := storeTimings_horizontal ht
  obtain ⟨-, hvfp, -⟩ := storeTimings_vertical ht
  have hroom := activeLines_add_le hd
  have hpix := activePixels_le hi
  have hblank := blankPixels_le (i := i)
  have hsync := syncPixels_le (i := i)
  have hvFp := frontPorch_le hi
  have hvBp := backPorch_ge (i := i)
  have hfh := hi.frameHeight_le
  unfold fieldBlanking at hroom
  unfold porches
  rw [hfp, hbp, hvfp]
  cases hint : i.interlaced with
  | false =>
    have hvbp := storeTimings_progressive hint ht
    simp only [hint, Bool.false_eq_true, if_false] at hroom
    rw [if_neg Bool.false_ne_true, hvbp]
    simp only [List.cons_append, List.nil_append, List.forall_mem_cons, List.not_mem_nil, false_imp_iff,
      implies_true, and_true]
    omega
  | true =>
    obtain ⟨hvbp, hil, hilFp, -⟩ := storeTimings_interlaced hint ht
    simp only [hint, if_true] at hroom
    rw [if_pos rfl, hil, hilFp, hvbp]
    simp only [List.cons_append, List.nil_append, List.forall_mem_cons, List.not_mem_nil, false_imp_iff,
      implies_true, and_true]
    omega

end Formulas

/-- A number that is not in the register is rounded down to another one than its residue. -/
theorem round_residue {x g : ℤ} (hx : 2 ^ 32 ≤ x) (hg : 0 < g) (hg' : g ≤ 2 ^ 31) :
    x % 2 ^ 32 / g * g ≠ x / g * g := by
  have h1 : x % 2 ^ 32 / g * g ≤ x % 2 ^ 32 := Int.ediv_mul_le _ hg.ne'
  have h2 : x < x / g * g + g := by
    have := Int.lt_ediv_add_one_mul_self x hg
    rwa [add_mul, one_mul] at this
  omega

theorem granularity_bounds : 0 < i.granularity ∧ i.granularity ≤ 2 ^ 31 := by
  unfold granularity
  split <;> decide

/-- Where the duty cycle would be below zero, the unsigned one is not. -/
theorem idealDutyCycle_wraps (hpos : 1 ≤ i.hfreq) (hfreq : ¬ 9997 ≤ i.hfreq) :
    idealDutyCycle (machine 32) i.hfreq ≠ idealDutyCycle exact i.hfreq := by
  have hq : 3001 ≤ 30000000 / i.hfreq := (Nat.le_div_iff_mul_le (by omega)).2 (by omega)
  have hq' : 30000000 / i.hfreq ≤ 30000000 := Nat.div_le_self _ _
  have hz : (30000000 : ℤ) / i.hfreq = ((30000000 / i.hfreq : ℕ) : ℤ) := (Int.natCast_ediv _ _).symm
  unfold idealDutyCycle machine exact
  rw [hz]
  generalize 30000000 / i.hfreq = q at hq hq'
  dsimp only
  split <;> split <;> omega

/-- The duty cycle is one of the variables. -/
theorem duty_eq {v : CvtVars} (h : cvtVars A i = some v) (hr : i.reduced = false) :
    v.h.duty = idealDutyCycle A i.hfreq := by
  obtain ⟨-, -, -, -, -, p, -, -, w, -, hv⟩ := cvtVars_cases h
  rw [hv, hr, if_neg Bool.false_ne_true]
  rfl

/-- Without a wrap the duty cycle is not below zero. -/
theorem dutyFits_of_noWrap (hi : i.InDomain) {v : CvtVars} (h : cvtVars (machine 32) i = some v)
    (hno : cvtVars (machine 32) i = cvtVars exact i) : i.DutyFits := by
  by_contra hnot
  unfold DutyFits at hnot
  rw [not_or, Bool.not_eq_true] at hnot
  have hm := duty_eq h hnot.1
  have he := duty_eq (hno ▸ h) hnot.1
  exact idealDutyCycle_wraps hi.hfreq_pos hnot.2 (hm.symm.trans he)

/-- **The timings fit together and nothing wraps** exactly when the duty cycle of the normal blanking is not below
zero and the pixel clock fits into its register. -/
theorem selfConsistent_iff (hi : i.InDomain) (fmt : DvTimings) {t : DvTimings}
    (h : v4l2DetectCvt (machine 32) i fmt = some t) (hw : t.width ≠ 0) :
    SelfConsistent i t ∧ NoWrap i fmt ↔ i.Fits := by
  obtain ⟨v, hv, htv⟩ := Option.map_eq_some_iff.1 h
  have hA := machine_agrees 32
  have hE := exact_agrees 32
  constructor
  · rintro ⟨hself, hno, -⟩
    have hduty := dutyFits_of_noWrap hi hv hno
    obtain ⟨hd, rfl⟩ := (cvtVars_iff hA hi hduty).1 hv
    rw [storeTimings_eq hA hi hd] at htv
    refine ⟨hduty, ?_⟩
    by_contra hnot
    have hclock := hself.pixelclock
    rw [(storeTimings_horizontal htv.symm).2.2.2.2, frameWidth_eq htv.symm] at hclock
    obtain ⟨hg, hg'⟩ := granularity_bounds (i := i)
    refine round_residue (x := (i.lineLength : ℤ) * i.hfreq) ?_ hg hg' hclock
    exact_mod_cast not_lt.1 hnot
  · rintro ⟨hduty, hfit⟩
    obtain ⟨hd, rfl⟩ := (cvtVars_iff hA hi hduty).1 hv
    have hprod : (machine 32).u ((i.lineLength : ℤ) * i.hfreq) = i.lineLength * i.hfreq :=
      hA.u_eq (by positivity) (by exact_mod_cast hfit)
    rw [hprod] at hv htv
    have he : cvtVars exact i = some (formulaVars i (i.lineLength * i.hfreq)) := (cvtVars_iff hE hi hduty).2 ⟨hd, rfl⟩
    have hstore := storeTimings_eq hA hi hd (i.lineLength * i.hfreq) fmt
    have ht := htv.symm.trans hstore
    refine ⟨⟨frameHeight_eq ht, porches_nonneg hi hd ht, ?_, ?_⟩, hv.trans he.symm, ?_⟩
    · have hpos : 0 < t.width := by
        have := (storeTimings_horizontal ht).1
        omega
      unfold frameWidth
      omega
    · rw [(storeTimings_horizontal ht).2.2.2.2, frameWidth_eq ht]
    · unfold v4l2DetectCvt
      rw [hv, he]
      exact congrArg some hstore

/-- The frame of 1080 lines at 60 Hz with the normal blanking. -/
def fullHdFrame : CvtInput := ⟨1120, 67500, 5, 0, V4L2_DV_VSYNC_POS_POL, false⟩

def noTimings : DvTimings := ⟨0, 0, 0, 0, 0, 0, 0, 0, 0, 0, 0, 0, 0, 0, 0, 0, 0⟩

def fullHdTimings : DvTimings :=
  ⟨0, 1920, 1080, 0, 1, 173750000, 128, 200, 328, 3, 5, 32, 0, 0, 0, 4, 0⟩

theorem selfConsistent_iff_fullHdFrame :
    SelfConsistent fullHdFrame fullHdTimings ∧ NoWrap fullHdFrame noTimings ↔ fullHdFrame.Fits :=
  selfConsistent_iff ⟨by decide, by decide, by decide, by decide⟩ noTimings (by decide +kernel) (by decide)

/-- A frame of 8192 pixels a line with the second version of the reduced blanking: its pixel clock needs 33 bits. -/
def wideFrame : CvtInput := ⟨4400, 600000, 8, 8192, V4L2_DV_HSYNC_POS_POL, false⟩

def wideTimings : DvTimings :=
  ⟨0, 8192, 4124, 0, 2, 668232000, 8, 32, 40, 263, 8, 5, 0, 0, 0, 4, 1⟩

theorem not_selfConsistent :
    ¬ ∀ (i : CvtInput) (fmt t : DvTimings), i.InDomain → v4l2DetectCvt (machine 32) i fmt = some t → t.width ≠ 0 →
      SelfConsistent i t ∧ NoWrap i fmt := by
  intro hall
  have hdom : wideFrame.InDomain := ⟨by decide, by decide, by decide, by decide⟩
  have h := (hall wideFrame noTimings wideTimings hdom (by decide +kernel) (by decide)).1.pixelclock
  revert h
  decide +kernel

end V4l2
end TbsMedia
