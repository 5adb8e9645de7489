import TbsMedia.Lib.Wrapping

/-!
# Detection of the CVT timings

A receiver measures the lines of a frame, the lines per second and the length of the vertical sync, and gets the
timings of the CVT standard with these values.

* `vPorches`, `imageHeight`, `imageWidth`, `reducedHorizontal`, `normalHorizontal`: the parts of the computation.
* `v4l2DetectCvt`: `v4l2_detect_cvt`.  All of them are over the registers the results are put in: those of the machine
  are the code, and exact integers are there to compare with.
-/

namespace TbsMedia
namespace V4l2

open Lib.Wrapping

def V4L2_DV_VSYNC_POS_POL : UInt32 := 1
def V4L2_DV_HSYNC_POS_POL : UInt32 := 2
def V4L2_DV_PROGRESSIVE : ℤ := 0
def V4L2_DV_INTERLACED : ℤ := 1
def V4L2_DV_BT_STD_CVT : UInt32 := 4
def V4L2_DV_FL_REDUCED_BLANKING : UInt32 := 1
def V4L2_DV_FL_HALF_LINE : UInt32 := 8
def V4L2_DV_BT_656_1120 : UInt32 := 0

def CVT_PXL_CLK_GRAN : ℤ := 250000
def CVT_PXL_CLK_GRAN_RB_V2 : ℤ := 1000

/-- The arguments, but for the timings that are filled in. -/
structure CvtInput where
  frameHeight : ℕ
  hfreq : ℕ
  vsync : ℕ
  activeWidth : ℕ
  polarities : UInt32
  interlaced : Bool

/-- The members of `struct v4l2_dv_timings` that the detection writes. -/
structure DvTimings where
  type : UInt32
  width : ℤ
  height : ℤ
  interlaced : ℤ
  polarities : UInt32
  pixelclock : ℤ
  hfrontporch : ℤ
  hsync : ℤ
  hbackporch : ℤ
  vfrontporch : ℤ
  vsync : ℤ
  vbackporch : ℤ
  ilVfrontporch : ℤ
  ilVsync : ℤ
  ilVbackporch : ℤ
  standards : UInt32
  flags : UInt32
  deriving DecidableEq

/-- The local variables of the horizontal part. -/
structure HTiming where
  duty : ℤ
  hBlank : ℤ
  pixClk : ℤ
  hBp : ℤ
  frameWidth : ℤ
  hsync : ℤ
  hFp : ℤ
  deriving DecidableEq

/-- The local variables. -/
structure CvtVars where
  vFp : ℤ
  vBp : ℤ
  imageHeight : ℤ
  imageWidth : ℤ
  h : HTiming
  deriving DecidableEq

/-! ## The code -/

/-- The vertical front and back porch. -/
def vPorches (A : Arith) (i : CvtInput) (reducedBlanking rbV2 : Bool) : ℤ × ℤ :=
  if reducedBlanking then
    if rbV2 then
      let vFp := A.s (A.u (460 * i.hfreq) / 1000000 + 1)
      let vFp := A.s (vFp - (i.vsync + 6))
      (if vFp < 1 then 1 else vFp, 6)
    else
      let vBp := A.s (A.u (460 * i.hfreq) / 1000000 + 1)
      let vBp := A.s (vBp - (i.vsync + 3))
      (3, if vBp < 7 then 7 else vBp)
  else
    let vBp := A.s (A.u (550 * i.hfreq) / 1000000 + 1 - i.vsync)
    (3, if vBp < 7 then 7 else vBp)

/-- The lines that are left are rounded down to an even number in an unsigned register. -/
def imageHeight (A : Arith) (i : CvtInput) (vFp vBp : ℤ) : ℤ :=
  if i.interlaced then
    let lines := A.u (i.frameHeight - 2 * vFp - 2 * i.vsync - 2 * vBp)
    A.s (lines - lines % 2)
  else
    let lines := A.u (i.frameHeight - vFp - i.vsync - vBp + 1)
    A.s (lines - lines % 2)

/-- The aspect ratio goes by the vertical sync. -/
def imageWidth (A : Arith) (vsync activeWidth : ℕ) (imageHeight : ℤ) : Option ℤ :=
  match vsync with
  | 4 => some ((A.s (imageHeight * 4)).tdiv 3)
  | 5 => some ((A.s (imageHeight * 16)).tdiv 9)
  | 6 => some ((A.s (imageHeight * 16)).tdiv 10)
  | 7 =>
    if imageHeight = 1024 then some ((A.s (imageHeight * 5)).tdiv 4)
    else if imageHeight = 768 then some ((A.s (imageHeight * 15)).tdiv 9)
    else none
  | 8 => some (A.s activeWidth)
  | _ => none

def reducedHorizontal (A : Arith) (rbV2 : Bool) (imageWidth : ℤ) (hfreq : ℕ) : HTiming :=
  let hBlank : ℤ := if rbV2 then 80 else 160
  let clkGran := if rbV2 then CVT_PXL_CLK_GRAN_RB_V2 else CVT_PXL_CLK_GRAN
  let pixClk := A.u (A.s (imageWidth + hBlank) * hfreq)
  let hBp := hBlank.tdiv 2
  { duty := 0
    hBlank := hBlank
    pixClk := pixClk / clkGran * clkGran
    hBp := hBp
    frameWidth := A.s (imageWidth + hBlank)
    hsync := 32
    hFp := A.s (hBlank - hBp - 32) }

/-- `ideal_duty_cycle_per_myriad`, which is unsigned, with its lower bound. -/
def idealDutyCycle (A : Arith) (hfreq : ℕ) : ℤ :=
  let ideal := A.u (3000 - 30000000 / hfreq)
  if ideal < 2000 then 2000 else ideal

def normalHorizontal (A : Arith) (imageWidth : ℤ) (hfreq : ℕ) : HTiming :=
  let duty := idealDutyCycle A hfreq
  let hBlank := A.s (A.u (imageWidth * duty) / A.u (10000 - duty))
  let hBlank := hBlank.tdiv 16 * 2 * 8
  let pixClk := A.u (A.s (imageWidth + hBlank) * hfreq)
  let hBp := hBlank.tdiv 2
  let frameWidth := A.s (imageWidth + hBlank)
  let hsync := (A.s (frameWidth * 8)).tdiv 100
  let hsync := hsync.tdiv 8 * 8
  { duty := duty
    hBlank := hBlank
    pixClk := pixClk / CVT_PXL_CLK_GRAN * CVT_PXL_CLK_GRAN
    hBp := hBp
    frameWidth := frameWidth
    hsync := hsync
    hFp := A.s (hBlank - hsync - hBp) }

/-- The two polarities that are known tell the blanking. -/
def reducedBlanking (polarities : UInt32) : Option Bool :=
  if polarities = V4L2_DV_VSYNC_POS_POL then some false
  else if polarities = V4L2_DV_HSYNC_POS_POL then some true
  else none

/-- The body up to the assignments to the result; it returns false where there is none. -/
def cvtVars (A : Arith) (i : CvtInput) : Option CvtVars :=
  if i.vsync < 4 ∨ 8 < i.vsync then none
  else
    match reducedBlanking i.polarities with
    | none => none
    | some reduced =>
      let rbV2 := reduced && i.vsync == 8
      if rbV2 ∧ i.activeWidth = 0 then none
      else if ¬ rbV2 ∧ 7 < i.vsync then none
      else if i.hfreq = 0 then none
      else
        let porches := vPorches A i reduced rbV2
        let height := imageHeight A i porches.1 porches.2
        if height < 0 then none
        else
          match imageWidth A i.vsync i.activeWidth height with
          | none => none
          | some width =>
            let width := if rbV2 then width else width - width % 8
            let h := if reduced then reducedHorizontal A rbV2 width i.hfreq else normalHorizontal A width i.hfreq
            some ⟨porches.1, porches.2, height, width, h⟩

/-- The vertical back porches, and what else depends on the two fields. -/
def storeVertical (A : Arith) (i : CvtInput) (v : CvtVars) (fmt : DvTimings) : DvTimings :=
  if !i.interlaced then
    { fmt with
      vbackporch := A.u (i.frameHeight - v.imageHeight - v.vFp - i.vsync)
      interlaced := V4L2_DV_PROGRESSIVE }
  else
    let vbackporch := A.u (i.frameHeight - v.imageHeight - 2 * v.vFp - 2 * i.vsync) / 2
    { fmt with
      vbackporch := vbackporch
      ilVbackporch := A.u (i.frameHeight - v.imageHeight - 2 * v.vFp - 2 * i.vsync - vbackporch)
      ilVfrontporch := A.u v.vFp
      ilVsync := i.vsync
      flags := fmt.flags ||| V4L2_DV_FL_HALF_LINE
      interlaced := V4L2_DV_INTERLACED }

/-- The assignments to the result. -/
def storeTimings (A : Arith) (i : CvtInput) (v : CvtVars) (fmt : DvTimings) : DvTimings :=
  let fmt := storeVertical A i v
    { fmt with
      type := V4L2_DV_BT_656_1120
      polarities := i.polarities
      width := A.u v.imageWidth
      height := A.u v.imageHeight
      hfrontporch := A.u v.h.hFp
      vfrontporch := A.u v.vFp
      hsync := A.u v.h.hsync
      vsync := i.vsync
      hbackporch := A.u (A.s (v.h.frameWidth - v.imageWidth - v.h.hFp - v.h.hsync)) }
  { fmt with
    pixelclock := v.h.pixClk
    standards := V4L2_DV_BT_STD_CVT
    flags := if reducedBlanking i.polarities = some true then fmt.flags ||| V4L2_DV_FL_REDUCED_BLANKING
      else fmt.flags }

/-- `v4l2_detect_cvt`, over the registers it computes in. -/
def v4l2DetectCvt (A : Arith) (i : CvtInput) (fmt : DvTimings) : Option DvTimings :=
  (cvtVars A i).map fun v => storeTimings A i v fmt

end V4l2
end TbsMedia
