import Mathlib
import TbsMedia.Lib.ByteBits
import TbsMedia.Lib.Interpolation

/-!
# Hardware timestamps of UVC frames

The samples of the device clock are taken with the frame numbers of the bus and the time of the host.
`uvc_video_clock_update` takes the time stamp of a frame first to a frame number and then to the host time, on the
lines through the first and the last sample of a window.

* `uvcVideoClockDecode`, `uvcVideoClockUpdate`: how a sample is stored, and the conversion.
* `window_of_stream`: the window holds the last samples that were stored.
* `clockUpdate_exact`: from a full window of such samples the host time comes out exactly.
-/

namespace TbsMedia
namespace Uvc

open Lib Lib.ByteBits

/-! ## The code -/

def UVC_STREAM_PTS : UInt8 := 4
def UVC_STREAM_SCR : UInt8 := 8

/-- `struct uvc_clock_sample`. -/
structure UvcClockSample where
  devStc : BitVec 32
  devSof : BitVec 16
  hostSof : BitVec 16
  hostTime : BitVec 64

/-- `struct uvc_clock`. -/
structure UvcClock where
  samples : List UvcClockSample
  head : BitVec 32
  count : BitVec 32
  size : BitVec 32
  lastSof : BitVec 16
  sofOffset : BitVec 16

/-- `uvc_video_clock_reset`. -/
def uvcVideoClockReset (clock : UvcClock) : UvcClock :=
  { clock with head := 0, count := 0, lastSof := -1, sofOffset := -1 }

/-- `get_unaligned_le32` and `get_unaligned_le16`. -/
def le32 (data : List UInt8) (k : ℕ) : BitVec 32 := BitVec.ofNat 32 (field data (8 * k) 32)

def le16 (data : List UInt8) (k : ℕ) : BitVec 16 := BitVec.ofNat 16 (field data (8 * k) 16)

/-- The offset that is estimated when the first device SOF comes in. -/
def estimateOffset (sofOffset hostSof devSof : BitVec 16) : BitVec 16 :=
  if sofOffset = -1 then
    let deltaSof := (hostSof - devSof) &&& 255
    if deltaSof ≥ 10 then deltaSof else 0
  else sofOffset

/-- A sample is stored, and the window moves on. -/
def UvcClock.store (clock : UvcClock) (sample : UvcClockSample) : UvcClock :=
  { clock with
    samples := clock.samples.set clock.head.toNat sample
    head := (clock.head + 1) % clock.size
    count := if clock.count < clock.size then clock.count + 1 else clock.count }

/-- Whether a payload has a time stamp, and whether it has a clock reference. -/
def hasPts (data : List UInt8) : Bool := data.getD 1 0 &&& UVC_STREAM_PTS ≠ 0

def hasScr (data : List UInt8) : Bool := data.getD 1 0 &&& UVC_STREAM_SCR ≠ 0

def headerSize (data : List UInt8) : ℕ :=
  if hasPts data then if hasScr data then 12 else 6 else if hasScr data then 8 else 2

/-- `uvc_video_clock_decode`, with the time stamp of the buffer if there is one, the frame number that the host reads
and its time. -/
def uvcVideoClockDecode (clock : UvcClock) (pts : Option (BitVec 32)) (data : List UInt8) (hostSof : BitVec 16)
    (time : BitVec 64) : UvcClock × Option (BitVec 32) :=
  if data.length < headerSize data then (clock, pts)
  else
    let pts := if hasPts data then pts.map fun _ => le32 data 2 else pts
    if ¬ hasScr data then (clock, pts)
    else
      let devSof := le16 data (headerSize data - 2)
      if devSof = clock.lastSof then (clock, pts)
      else
        let sofOffset := estimateOffset clock.sofOffset hostSof devSof
        let clock := { clock with lastSof := devSof, sofOffset := sofOffset }
        (clock.store ⟨le32 data (headerSize data - 6), (devSof + sofOffset) &&& 2047, hostSof, time⟩, pts)

/-- `uvc_video_clock_host_sof`. -/
def uvcVideoClockHostSof (sample : UvcClockSample) : BitVec 16 :=
  let deltaSof : BitVec 8 := ((sample.hostSof - sample.devSof) &&& 255).setWidth 8
  ((sample.devSof.setWidth 32 + deltaSof.signExtend 32) &&& 2047).setWidth 16

/-- The variables of a conversion: the two points of the line, where it is taken, and the value there before and after
the division. -/
structure Conversion where
  x1 : BitVec 32
  x2 : BitVec 32
  y1 : BitVec 32
  y2 : BitVec 32
  place : BitVec 64
  y : BitVec 64
  quotient : BitVec 64

/-- `y = (y2 - y1) * place + y1 * x2 - y2 * x1`, and `div_u64(y, x2 - x1)`. -/
def convert (x1 x2 y1 y2 : BitVec 32) (place : BitVec 64) : Conversion :=
  let y := (y2 - y1).setWidth 64 * place + y1.setWidth 64 * x2.setWidth 64 - y2.setWidth 64 * x1.setWidth 64
  ⟨x1, x2, y1, y2, place, y, y / (x2 - x1).setWidth 64⟩

/-- `(sof + 2048) << 16`. -/
def sofPoint (sof : BitVec 16) : BitVec 32 := (sof.setWidth 32 + 2048) <<< 16

/-- The second one of two such values, behind the first one. -/
def sofAfter (x1 x2 : BitVec 32) : BitVec 32 := if x2 < x1 then x2 + (2048 : BitVec 32) <<< 16 else x2

/-- The first step, PTS to SOF. -/
def ptsToSof (first last : UvcClockSample) (pts : BitVec 32) : Option Conversion :=
  let deltaStc := pts - (1 : BitVec 32) <<< 31
  let x1 := first.devStc - deltaStc
  let x2 := last.devStc - deltaStc
  if x1 = x2 then none
  else
    let y1 := sofPoint first.devSof
    some (convert x1 x2 y1 (sofAfter y1 (sofPoint last.devSof)) ((1 : BitVec 64) <<< 31))

/-- A frame number is kept close to the mean of the samples. -/
def nearMean (x1 x2 sof : BitVec 32) : BitVec 32 :=
  let mean := (x1 + x2) / 2
  if mean - (1024 : BitVec 32) <<< 16 > sof then sof + (2048 : BitVec 32) <<< 16
  else if sof > mean + (1024 : BitVec 32) <<< 16 then sof - (2048 : BitVec 32) <<< 16
  else sof

def NSEC_PER_SEC : BitVec 32 := 1000000000

/-- The second step, SOF to host clock. -/
def sofToTime (first last : UvcClockSample) (sof : BitVec 32) : Option Conversion :=
  let x1 := sofPoint (uvcVideoClockHostSof first)
  let x2 := sofAfter x1 (sofPoint (uvcVideoClockHostSof last))
  if x1 = x2 then none
  else
    let y2 := (last.hostTime - first.hostTime).setWidth 32 + NSEC_PER_SEC
    some (convert x1 x2 NSEC_PER_SEC y2 ((nearMean x1 x2 sof).setWidth 64))

/-- What an update goes through: the two conversions and the time stamp it sets. -/
structure Update where
  toSof : Conversion
  toTime : Conversion
  timestamp : BitVec 64

/-- `uvc_video_clock_update`, with hardware timestamps switched on and the samples not released yet, which the
function asks first.  Without a result the buffer keeps its time. -/
def uvcVideoClockUpdate (clock : UvcClock) (pts : BitVec 32) : Option Update := do
  if clock.count < clock.size then none
  else
    let first ← clock.samples[clock.head.toNat]?
    let last ← clock.samples[((clock.head - 1) % clock.size).toNat]?
    let toSof ← ptsToSof first last pts
    let toTime ← sofToTime first last (toSof.quotient.setWidth 32)
    return ⟨toSof, toTime, first.hostTime + toTime.quotient - NSEC_PER_SEC.setWidth 64⟩

/-! ## The line -/

/-- A device clock and a host clock over the frame numbers. -/
structure ClockLine where
  stc : ℤ
  ticks : ℤ
  time : ℤ

/-- A sample that was taken at the frame number `S`. -/
structure OnLine (line : ClockLine) (S : ℤ) (sample : UvcClockSample) : Prop where
  devSof : (sample.devSof.toNat : ℤ) = S % 2048
  hostSof : (sample.hostSof.toNat : ℤ) % 256 = S % 256
  devStc : sample.devStc = BitVec.ofInt 32 (line.stc + line.ticks * S)
  hostTime : sample.hostTime = BitVec.ofInt 64 (line.time + 10 ^ 6 * S)

/-- A window that is full: from the head on its samples were taken at the frame numbers `S 0` to `S 31`. -/
structure FullWindow (line : ClockLine) (S : ℕ → ℤ) (clock : UvcClock) : Prop where
  size : clock.size = 32
  count : clock.count = clock.size
  head : clock.head.toNat < 32
  sample : ∀ i < 32, ∃ sample, clock.samples[(clock.head.toNat + i) % 32]? = some sample ∧ OnLine line (S i) sample

/-- The variables have the values of exact integers. -/
structure Conversion.Exact (c : Conversion) : Prop where
  x_lt : c.x1.toNat < c.x2.toNat
  y_lt : c.y1.toNat < c.y2.toNat
  y : (c.y.toNat : ℤ) = numerator c.x1.toNat c.y1.toNat c.x2.toNat c.y2.toNat c.place.toNat
  quotient : (c.quotient.toNat : ℤ) * (c.x2.toNat - c.x1.toNat) = c.y.toNat

/-- The timestamp is the host time of the frame, both conversions are exact, and the frame number between them is the
same. -/
structure Update.Exact (line : ClockLine) (s : ℤ) (u : Update) : Prop where
  timestamp : u.timestamp = BitVec.ofInt 64 (line.time + 10 ^ 6 * s)
  toSof : u.toSof.Exact
  toTime : u.toTime.Exact
  sof : u.toTime.place = u.toSof.quotient

/-! ## Words and integers -/

theorem ofInt_sub (w : ℕ) (x y : ℤ) : BitVec.ofInt w (x - y) = BitVec.ofInt w x - BitVec.ofInt w y := by
  rw [sub_eq_add_neg, BitVec.ofInt_add, BitVec.ofInt_neg, BitVec.sub_eq_add_neg]

theorem ofInt_toNat {w : ℕ} (x : BitVec w) : BitVec.ofInt w x.toNat = x := by
  rw [BitVec.ofInt_natCast, BitVec.ofNat_toNat, BitVec.setWidth_eq]

/-- A word has the number it was made of, when that is in range. -/
theorem toNat_ofInt_of_lt {w : ℕ} {x : ℤ} (h0 : 0 ≤ x) (hlt : x < 2 ^ w) : ((BitVec.ofInt w x).toNat : ℤ) = x := by
  rw [BitVec.toNat_ofInt, Int.toNat_of_nonneg (Int.emod_nonneg x (by positivity))]
  push_cast
  exact Int.emod_eq_of_lt h0 hlt

theorem setWidth_eq_ofInt (x : BitVec 32) : x.setWidth 64 = BitVec.ofInt 64 x.toNat := by
  rw [BitVec.ofInt_natCast, BitVec.ofNat_toNat]

/-- The difference of two words, the second of which is not larger. -/
theorem toNat_sub_of_le {x y : BitVec 32} (h : x.toNat ≤ y.toNat) : ((y - x).toNat : ℤ) = y.toNat - x.toNat := by
  rw [BitVec.toNat_sub_of_le h]
  omega

/-! ## A conversion -/

/-- **A conversion is exact** for a place whose value is on the line of the two points. -/
theorem convert_exact (x1 x2 y1 y2 : BitVec 32) (place : BitVec 64) {q : ℤ} (hx : x1.toNat < x2.toNat)
    (hy : y1.toNat < y2.toNat)
    (hline : ((y2.toNat : ℤ) - y1.toNat) * (place.toNat - x1.toNat) = (q - y1.toNat) * (x2.toNat - x1.toNat))
    (hq : 0 ≤ q) (hlt : q < 2 ^ 32) :
    (convert x1 x2 y1 y2 place).Exact ∧ ((convert x1 x2 y1 y2 place).quotient.toNat : ℤ) = q := by
  have hvalue := numerator_of_collinear hline
  have hdiff := toNat_sub_of_le hx.le
  have hx2 := x2.isLt
  have hbound : q * (x2.toNat - x1.toNat) < 2 ^ 64 := by
    calc q * ((x2.toNat : ℤ) - x1.toNat) ≤ q * 2 ^ 32 := Int.mul_le_mul_of_nonneg_left (by omega) hq
      _ < 2 ^ 32 * 2 ^ 32 := by omega
      _ = 2 ^ 64 := by norm_num
  have hpos : 0 ≤ q * ((x2.toNat : ℤ) - x1.toNat) := Int.mul_nonneg hq (by omega)
  have hword : (convert x1 x2 y1 y2 place).y =
      BitVec.ofInt 64 (numerator x1.toNat y1.toNat x2.toNat y2.toNat place.toNat) := by
    unfold convert numerator
    dsimp only
    rw [ofInt_sub, BitVec.ofInt_add, BitVec.ofInt_mul, BitVec.ofInt_mul, BitVec.ofInt_mul, ofInt_toNat place,
      ← setWidth_eq_ofInt, ← setWidth_eq_ofInt, ← setWidth_eq_ofInt, ← setWidth_eq_ofInt, ← toNat_sub_of_le hy.le,
      ← setWidth_eq_ofInt]
  have hy' : ((convert x1 x2 y1 y2 place).y.toNat : ℤ) =
      numerator x1.toNat y1.toNat x2.toNat y2.toNat place.toNat := by
    rw [hword]
    exact toNat_ofInt_of_lt (by rw [hvalue]; exact hpos) (by rw [hvalue]; exact hbound)
  have hquotient : ((convert x1 x2 y1 y2 place).quotient.toNat : ℤ) = q := by
    have hdiv : (convert x1 x2 y1 y2 place).quotient =
        (convert x1 x2 y1 y2 place).y / (x2 - x1).setWidth 64 := rfl
    have hwidth : ((x2 - x1).setWidth 64).toNat = (x2 - x1).toNat := by
      rw [BitVec.toNat_setWidth, Nat.mod_eq_of_lt (by have := (x2 - x1).isLt; omega)]
    rw [hdiv, BitVec.toNat_udiv, hwidth, Int.natCast_div, hy', hvalue, hdiff]
    exact Int.mul_ediv_cancel q (by omega)
  refine ⟨⟨hx, hy, hy', ?_⟩, hquotient⟩
  rw [hquotient, hy', hvalue]
  rfl

/-! ## The first step -/

variable {line : ClockLine} {sample first last : UvcClockSample} {S S₁ S₂ s : ℤ}

/-- The time stamp of the frame is in the middle of the range, and a sample is away from it by the ticks between. -/
theorem toNat_stc (hs : OnLine line S sample) {d : ℤ} (hd : d = line.ticks * (S - s)) (hlo : -2 ^ 31 ≤ d)
    (hhi : d < 2 ^ 31) : ((sample.devStc -
      (BitVec.ofInt 32 (line.stc + line.ticks * s) - (1 : BitVec 32) <<< 31)).toNat : ℤ) = 2 ^ 31 + d := by
  have hhalf : (1 : BitVec 32) <<< 31 = BitVec.ofInt 32 (2 ^ 31) := rfl
  have hsub : line.stc + line.ticks * S - (line.stc + line.ticks * s - 2 ^ 31) = 2 ^ 31 + d := by
    rw [hd]
    ring
  rw [hs.devStc, hhalf, ← ofInt_sub, ← ofInt_sub, hsub]
  exact toNat_ofInt_of_lt (by omega) (by omega)

theorem toNat_sofPoint {sof : BitVec 16} (h : (sof.toNat : ℤ) = S % 2048) :
    ((sofPoint sof).toNat : ℤ) = (S % 2048 + 2048) * 65536 := by
  have hconst : (2048 : BitVec 32).toNat = 2048 := rfl
  unfold sofPoint
  rw [BitVec.toNat_shiftLeft, BitVec.toNat_add, BitVec.toNat_setWidth, hconst, Nat.shiftLeft_eq]
  omega

/-- The second frame number counts on from the first. -/
theorem toNat_sofAfter {x1 x2 : BitVec 32} (h1 : (x1.toNat : ℤ) = (S₁ % 2048 + 2048) * 65536)
    (h2 : (x2.toNat : ℤ) = (S₂ % 2048 + 2048) * 65536) (hlt : 1 ≤ S₂ - S₁) (hle : S₂ - S₁ ≤ 1000) :
    ((sofAfter x1 x2).toNat : ℤ) = x1.toNat + (S₂ - S₁) * 65536 := by
  have hconst : ((2048 : BitVec 32) <<< 16).toNat = 2048 * 65536 := rfl
  unfold sofAfter
  by_cases h : x2.toNat < x1.toNat
  · rw [if_pos (show x2 < x1 from h), BitVec.toNat_add, hconst]
    omega
  · rw [if_neg (show ¬ x2 < x1 from h)]
    omega

/-- The ticks between two frame numbers of the window and around it. -/
theorem ticks_bounds {F d : ℤ} (hF : 1 ≤ F) (hF' : F ≤ 10 ^ 6) (hd : -1512 ≤ d) (hd' : d ≤ 1512) :
    -2 ^ 31 < F * d ∧ F * d < 2 ^ 31 := by
  constructor
  · nlinarith
  · nlinarith

/-- **From the time stamp to the frame number.** -/
theorem ptsToSof_spec (hfirst : OnLine line S₁ first) (hlast : OnLine line S₂ last) (hticks : 1 ≤ line.ticks)
    (hticks' : line.ticks ≤ 10 ^ 6) (hlt : 1 ≤ S₂ - S₁) (hle : S₂ - S₁ ≤ 1000) (hs : S₁ - 512 ≤ s)
    (hs' : s ≤ S₂ + 512) :
    ∃ c, ptsToSof first last (BitVec.ofInt 32 (line.stc + line.ticks * s)) = some c ∧ c.Exact ∧
      (c.quotient.toNat : ℤ) = (S₁ % 2048 + 2048 + (s - S₁)) * 65536 := by
  obtain ⟨hlo₁, hhi₁⟩ := ticks_bounds hticks hticks' (d := S₁ - s) (by omega) (by omega)
  obtain ⟨hlo₂, hhi₂⟩ := ticks_bounds hticks hticks' (d := S₂ - s) (by omega) (by omega)
  have hx1 := toNat_stc hfirst rfl hlo₁.le hhi₁
  have hx2 := toNat_stc hlast rfl hlo₂.le hhi₂
  have hy1 := toNat_sofPoint hfirst.devSof
  have hy2 := toNat_sofAfter hy1 (toNat_sofPoint hlast.devSof) hlt hle
  have hwindow : line.ticks * (S₂ - s) = line.ticks * (S₁ - s) + line.ticks * (S₂ - S₁) := by ring
  have hgap : 1 ≤ line.ticks * (S₂ - S₁) := by nlinarith
  have hplace : ((((1 : BitVec 64) <<< 31).toNat : ℕ) : ℤ) = 2 ^ 31 := rfl
  unfold ptsToSof
  dsimp only
  generalize first.devStc - (BitVec.ofInt 32 (line.stc + line.ticks * s) - (1 : BitVec 32) <<< 31) = x1 at hx1
  generalize last.devStc - (BitVec.ofInt 32 (line.stc + line.ticks * s) - (1 : BitVec 32) <<< 31) = x2 at hx2
  generalize sofPoint first.devSof = y1 at hy1 hy2
  generalize sofAfter y1 (sofPoint last.devSof) = y2 at hy2
  have hne : ¬ x1 = x2 := by
    rintro rfl
    omega
  rw [if_neg hne]
  obtain ⟨hexact, hq⟩ := convert_exact x1 x2 y1 y2 ((1 : BitVec 64) <<< 31)
    (q := (S₁ % 2048 + 2048 + (s - S₁)) * 65536) (by omega) (by omega)
    (by rw [hx1, hx2, hy2, hy1, hplace]; ring) (by omega) (by omega)
  exact ⟨_, rfl, hexact, hq⟩

/-! ## The second step -/

/-- The host frame number is the one of the device, as both are taken at the same time. -/
theorem hostSof_eq (hs : OnLine line S sample) : uvcVideoClockHostSof sample = sample.devSof := by
  have hdev := hs.devSof
  have hhost := hs.hostSof
  have hdelta : (sample.hostSof - sample.devSof) &&& 255 = 0 := by
    refine BitVec.eq_of_toNat_eq ?_
    have hmask : (255 : BitVec 16).toNat = 2 ^ 8 - 1 := rfl
    rw [BitVec.toNat_and, hmask, Nat.and_two_pow_sub_one_eq_mod, BitVec.toNat_sub]
    have := sample.hostSof.isLt
    change (2 ^ 16 - sample.devSof.toNat + sample.hostSof.toNat) % 2 ^ 16 % 2 ^ 8 = 0
    omega
  have hzero : ((0 : BitVec 16).setWidth 8).signExtend 32 = 0#32 := rfl
  unfold uvcVideoClockHostSof
  dsimp only
  rw [hdelta, hzero, BitVec.add_zero]
  refine BitVec.eq_of_toNat_eq ?_
  have hmask : (2047 : BitVec 32).toNat = 2 ^ 11 - 1 := rfl
  rw [BitVec.toNat_setWidth, BitVec.toNat_and, hmask, Nat.and_two_pow_sub_one_eq_mod, BitVec.toNat_setWidth]
  omega

/-- A frame number around the window is close to the mean. -/
theorem nearMean_eq {x1 x2 sof : BitVec 32} {A D e : ℤ} (hA : 2048 ≤ A) (hA' : A < 4096) (hD : 1 ≤ D) (hD' : D ≤ 1000)
    (he : -512 ≤ e) (he' : e ≤ D + 512) (h1 : (x1.toNat : ℤ) = A * 65536) (h2 : (x2.toNat : ℤ) = x1.toNat + D * 65536)
    (hsof : (sof.toNat : ℤ) = (A + e) * 65536) : nearMean x1 x2 sof = sof := by
  have hrange : ((1024 : BitVec 32) <<< 16).toNat = 1024 * 65536 := rfl
  have htwo : (2 : BitVec 32).toNat = 2 := rfl
  have hmean : (((x1 + x2) / 2).toNat : ℤ) = A * 65536 + D * 32768 := by
    rw [BitVec.toNat_udiv, BitVec.toNat_add, htwo]
    omega
  unfold nearMean
  dsimp only
  generalize (x1 + x2) / 2 = mean at hmean
  have hlow : ¬ mean - (1024 : BitVec 32) <<< 16 > sof := by
    change ¬ sof.toNat < (mean - (1024 : BitVec 32) <<< 16).toNat
    rw [BitVec.toNat_sub, hrange]
    omega
  have hhigh : ¬ sof > mean + (1024 : BitVec 32) <<< 16 := by
    change ¬ (mean + (1024 : BitVec 32) <<< 16).toNat < sof.toNat
    rw [BitVec.toNat_add, hrange]
    omega
  rw [if_neg hlow, if_neg hhigh]

/-- **From the frame number to the host time**, which starts at one second. -/
theorem sofToTime_spec (hfirst : OnLine line S₁ first) (hlast : OnLine line S₂ last) (hlt : 1 ≤ S₂ - S₁)
    (hle : S₂ - S₁ ≤ 1000) (hs : S₁ - 512 ≤ s) (hs' : s ≤ S₂ + 512) {sof : BitVec 32}
    (hsof : (sof.toNat : ℤ) = (S₁ % 2048 + 2048 + (s - S₁)) * 65536) :
    ∃ c, sofToTime first last sof = some c ∧ c.Exact ∧ c.place = sof.setWidth 64 ∧
      (c.quotient.toNat : ℤ) = 10 ^ 9 + 10 ^ 6 * (s - S₁) := by
  have hx1 := toNat_sofPoint hfirst.devSof
  have hx2 := toNat_sofAfter hx1 (toNat_sofPoint hlast.devSof) hlt hle
  have hy1 : (NSEC_PER_SEC.toNat : ℤ) = 10 ^ 9 := rfl
  have htime : (((last.hostTime - first.hostTime).setWidth 32 + NSEC_PER_SEC).toNat : ℤ) =
      10 ^ 9 + 10 ^ 6 * (S₂ - S₁) := by
    have hdiff : line.time + 10 ^ 6 * S₂ - (line.time + 10 ^ 6 * S₁) = 10 ^ 6 * (S₂ - S₁) := by ring
    have hword := toNat_ofInt_of_lt (w := 64) (x := 10 ^ 6 * (S₂ - S₁)) (by omega) (by omega)
    rw [hlast.hostTime, hfirst.hostTime, ← ofInt_sub, hdiff, BitVec.toNat_add, BitVec.toNat_setWidth]
    omega
  have hplace : ((sof.setWidth 64).toNat : ℤ) = sof.toNat := by
    rw [BitVec.toNat_setWidth, Nat.mod_eq_of_lt (by have := sof.isLt; omega)]
  unfold sofToTime
  dsimp only
  rw [hostSof_eq hfirst, hostSof_eq hlast]
  generalize (last.hostTime - first.hostTime).setWidth 32 + NSEC_PER_SEC = y2 at htime
  generalize sofPoint first.devSof = x1 at hx1 hx2
  generalize sofAfter x1 (sofPoint last.devSof) = x2 at hx2
  have hne : ¬ x1 = x2 := by
    rintro rfl
    omega
  have hmean : nearMean x1 x2 sof = sof :=
    nearMean_eq (A := S₁ % 2048 + 2048) (D := S₂ - S₁) (e := s - S₁) (by omega) (by omega) hlt hle (by omega)
      (by omega) hx1 hx2 hsof
  rw [if_neg hne, hmean]
  obtain ⟨hexact, hq⟩ := convert_exact x1 x2 NSEC_PER_SEC y2 (sof.setWidth 64)
    (q := 10 ^ 9 + 10 ^ 6 * (s - S₁)) (by omega) (by omega)
    (by rw [htime, hy1, hplace, hsof, hx2, hx1]; ring) (by omega) (by omega)
  exact ⟨_, rfl, hexact, rfl, hq⟩

/-! ## The update -/

/-- **The timestamp is exact** from a full window on a line, for a frame around the window, wherever the counters
wrap. -/
theorem clockUpdate_exact {clock : UvcClock} {S : ℕ → ℤ} (hclock : FullWindow line S clock) (hticks : 1 ≤ line.ticks)
    (hticks' : line.ticks ≤ 10 ^ 6) (hlt : 1 ≤ S 31 - S 0) (hle : S 31 - S 0 ≤ 1000) (hs : S 0 - 512 ≤ s)
    (hs' : s ≤ S 31 + 512) :
    ∃ u, uvcVideoClockUpdate clock (BitVec.ofInt 32 (line.stc + line.ticks * s)) = some u ∧ u.Exact line s := by
  have hhead := hclock.head
  obtain ⟨first, hget₁, hfirst⟩ := hclock.sample 0 (by decide)
  obtain ⟨last, hget₂, hlast⟩ := hclock.sample 31 (by decide)
  have hindex₁ : (clock.head.toNat + 0) % 32 = clock.head.toNat := by omega
  have hindex₂ : (clock.head.toNat + 31) % 32 = ((clock.head - 1) % clock.size).toNat := by
    have hone : (1 : BitVec 32).toNat = 1 := rfl
    have hsize : (32 : BitVec 32).toNat = 32 := rfl
    rw [hclock.size, BitVec.toNat_umod, BitVec.toNat_sub, hone, hsize]
    omega
  rw [hindex₁] at hget₁
  rw [hindex₂] at hget₂
  have hfull : ¬ clock.count < clock.size := by
    rw [hclock.count]
    exact BitVec.lt_irrefl _
  obtain ⟨c, hc, hexact, hq⟩ := ptsToSof_spec hfirst hlast hticks hticks' hlt hle hs hs'
  have hword : ((c.quotient.setWidth 32).toNat : ℤ) = (S 0 % 2048 + 2048 + (s - S 0)) * 65536 := by
    rw [BitVec.toNat_setWidth]
    omega
  obtain ⟨c', hc', hexact', hplace, hq'⟩ := sofToTime_spec hfirst hlast hlt hle hs hs' hword
  refine ⟨⟨c, c', first.hostTime + c'.quotient - NSEC_PER_SEC.setWidth 64⟩, ?_, ?_, hexact, hexact', ?_⟩
  · unfold uvcVideoClockUpdate
    simp only [Option.bind_eq_bind, if_neg hfull, hget₁, hget₂, Option.bind_some, hc, hc']
    rfl
  · have hsecond : NSEC_PER_SEC.setWidth 64 = BitVec.ofInt 64 (10 ^ 9) := rfl
    have hquotient : c'.quotient = BitVec.ofInt 64 (10 ^ 9 + 10 ^ 6 * (s - S 0)) := by
      rw [← hq', ofInt_toNat]
    have hsum : line.time + 10 ^ 6 * S 0 + (10 ^ 9 + 10 ^ 6 * (s - S 0)) - 10 ^ 9 = line.time + 10 ^ 6 * s := by ring
    dsimp only
    rw [hfirst.hostTime, hquotient, hsecond, ← BitVec.ofInt_add, ← ofInt_sub, hsum]
  · dsimp only
    rw [hplace]
    refine BitVec.eq_of_toNat_eq ?_
    rw [BitVec.toNat_setWidth, BitVec.toNat_setWidth]
    omega

/-- The sample that is taken at a frame number. -/
def ClockLine.sampleAt (line : ClockLine) (S : ℤ) : UvcClockSample :=
  ⟨BitVec.ofInt 32 (line.stc + line.ticks * S), BitVec.ofInt 16 (S % 2048), BitVec.ofInt 16 (S % 256),
    BitVec.ofInt 64 (line.time + 10 ^ 6 * S)⟩

theorem ClockLine.onLine_sampleAt (line : ClockLine) (S : ℤ) : OnLine line S (line.sampleAt S) := by
  refine ⟨toNat_ofInt_of_lt (by omega) (by omega), ?_, rfl, rfl⟩
  have h := toNat_ofInt_of_lt (w := 16) (x := S % 256) (by omega) (by omega)
  unfold ClockLine.sampleAt
  dsimp only
  rw [h]
  omega

/-- A clock of 48 ticks in a millisecond that wraps at the frame number 2052. -/
def wrappingLine : ClockLine := ⟨2 ^ 32 - 98500, 48, 7⟩

/-- A window in which this clock, the frame numbers and the ring wrap. -/
def wrappingClock : UvcClock :=
  ⟨(List.range 32).map fun j => wrappingLine.sampleAt (2040 + ((j + 27) % 32 : ℕ)), 5, 32, 32, 0, 0⟩

theorem clockUpdate_wraps : ∃ u, uvcVideoClockUpdate wrappingClock
    (BitVec.ofInt 32 (wrappingLine.stc + wrappingLine.ticks * 2060)) = some u ∧ u.Exact wrappingLine 2060 := by
  have hwindow : FullWindow wrappingLine (fun i => 2040 + i) wrappingClock := by
    refine ⟨rfl, rfl, by decide, fun i hi => ⟨wrappingLine.sampleAt (2040 + i), ?_, ClockLine.onLine_sampleAt _ _⟩⟩
    have hhead : wrappingClock.head.toNat = 5 := rfl
    have hplace : ((5 + i) % 32 + 27) % 32 = i := by omega
    rw [hhead]
    unfold wrappingClock
    rw [List.getElem?_map, List.getElem?_range (Nat.mod_lt _ (by decide)), Option.map_some, hplace]
  exact clockUpdate_exact (s := 2060) hwindow (by decide) (by decide) (by decide) (by decide) (by decide) (by decide)

/-! ## The samples of a stream -/

/-- A payload at the frame number `S`: the host is on the line, and the clock reference is, if the header is complete and
has one. -/
structure Taken (line : ClockLine) (S : ℤ) (data : List UInt8) (hostSof : BitVec 16) (time : BitVec 64) : Prop where
  devSof : headerSize data ≤ data.length → hasScr data → ((le16 data (headerSize data - 2)).toNat : ℤ) = S % 2048
  devStc : headerSize data ≤ data.length → hasScr data →
    le32 data (headerSize data - 6) = BitVec.ofInt 32 (line.stc + line.ticks * S)
  hostSof : (hostSof.toNat : ℤ) % 256 = S % 256
  time : time = BitVec.ofInt 64 (line.time + 10 ^ 6 * S)

/-- The clock of a stream that has stored samples at the frame numbers `S`, and found no offset between the frame
numbers: its window holds the last 32 of them. -/
structure Tracks (line : ClockLine) (S : List ℤ) (clock : UvcClock) : Prop where
  size : clock.size = 32
  length : clock.samples.length = 32
  head : clock.head.toNat = S.length % 32
  count : clock.count.toNat = min 32 S.length
  sample : ∀ k (hk : k < S.length), S.length ≤ k + 32 →
    ∃ sample, clock.samples[k % 32]? = some sample ∧ OnLine line S[k] sample
  offset : clock.sofOffset = -1 ∨ clock.sofOffset = 0

variable {clock : UvcClock} {data : List UInt8} {hostSof : BitVec 16} {time : BitVec 64} {l : List ℤ}

/-- The frame numbers agree, so their offset is estimated as 0. -/
theorem estimateOffset_eq {sofOffset devSof : BitVec 16} (hoffset : sofOffset = -1 ∨ sofOffset = 0)
    (hdev : (devSof.toNat : ℤ) = S % 2048) (hhost : (hostSof.toNat : ℤ) % 256 = S % 256) :
    estimateOffset sofOffset hostSof devSof = 0 := by
  have hdelta : (hostSof - devSof) &&& 255 = 0 := by
    refine BitVec.eq_of_toNat_eq ?_
    have hmask : (255 : BitVec 16).toNat = 2 ^ 8 - 1 := rfl
    rw [BitVec.toNat_and, hmask, Nat.and_two_pow_sub_one_eq_mod, BitVec.toNat_sub]
    have := hostSof.isLt
    change (2 ^ 16 - devSof.toNat + hostSof.toNat) % 2 ^ 16 % 2 ^ 8 = 0
    omega
  unfold estimateOffset
  rcases hoffset with rfl | rfl
  · rw [if_pos rfl, hdelta]
    rfl
  · rfl

/-- A sample of the line is stored. -/
theorem Tracks.store (h : Tracks line l clock) (hs : OnLine line S sample) :
    Tracks line (l ++ [S]) (clock.store sample) := by
  have hsize : (32 : BitVec 32).toNat = 32 := rfl
  have hone : (1 : BitVec 32).toNat = 1 := rfl
  have hhead := h.head
  have hcount := h.count
  have hlength : (l ++ [S]).length = l.length + 1 := List.length_append
  unfold UvcClock.store
  refine ⟨h.size, (List.length_set ..).trans h.length, ?_, ?_, fun k hk hlast => ?_, h.offset⟩
  · dsimp only
    rw [h.size, BitVec.toNat_umod, BitVec.toNat_add, hsize, hone, hlength]
    omega
  · dsimp only
    rw [h.size, hlength]
    by_cases hlt : clock.count.toNat < 32
    · rw [if_pos (show clock.count < 32 from hlt), BitVec.toNat_add, hone]
      omega
    · rw [if_neg (show ¬ clock.count < 32 from hlt)]
      omega
  · dsimp only
    rw [hlength] at hk hlast
    rcases eq_or_lt_of_le (Nat.le_of_lt_succ hk) with rfl | hlt
    · refine ⟨sample, ?_, ?_⟩
      · rw [hhead, List.getElem?_set_self (by rw [h.length]; omega)]
      · rw [List.getElem_concat_length rfl]
        exact hs
    · obtain ⟨sample', hget, hline⟩ := h.sample k hlt (by omega)
      refine ⟨sample', ?_, ?_⟩
      · rw [List.getElem?_set_ne (by omega), hget]
      · rw [List.getElem_append_left hlt]
        exact hline

/-- A payload with what is read when it comes in. -/
structure Payload where
  pts : Option (BitVec 32)
  data : List UInt8
  hostSof : BitVec 16
  time : BitVec 64

/-- The clock after some payloads. -/
def clockAfter (clock : UvcClock) (payloads : List Payload) : UvcClock :=
  payloads.foldl (fun clock p => (uvcVideoClockDecode clock p.pts p.data p.hostSof p.time).1) clock

/-- The frame numbers of the payloads with a clock reference, each one once in a row. -/
def framesStored : BitVec 16 → List (ℤ × Payload) → List ℤ
  | _, [] => []
  | lastSof, (S, p) :: payloads =>
    if headerSize p.data ≤ p.data.length ∧ hasScr p.data ∧ BitVec.ofInt 16 (S % 2048) ≠ lastSof then
      S :: framesStored (BitVec.ofInt 16 (S % 2048)) payloads
    else framesStored lastSof payloads

/-- **A payload of the line** is stored, unless its frame number was the last one. -/
theorem Tracks.decode (h : Tracks line l clock) (pts : Option (BitVec 32)) (ht : Taken line S data hostSof time) :
    if headerSize data ≤ data.length ∧ hasScr data ∧ BitVec.ofInt 16 (S % 2048) ≠ clock.lastSof then
      Tracks line (l ++ [S]) (uvcVideoClockDecode clock pts data hostSof time).1 ∧
        (uvcVideoClockDecode clock pts data hostSof time).1.lastSof = BitVec.ofInt 16 (S % 2048)
    else (uvcVideoClockDecode clock pts data hostSof time).1 = clock := by
  unfold uvcVideoClockDecode
  by_cases hlong : data.length < headerSize data
  · rw [if_pos hlong, if_neg fun hno => absurd hno.1 (Nat.not_le_of_lt hlong)]
  · have hfull := Nat.le_of_not_lt hlong
    rw [if_neg hlong]
    dsimp only
    by_cases hscr : hasScr data = true
    · have hdev := ht.devSof hfull hscr
      have hsof : BitVec.ofInt 16 (S % 2048) = le16 data (headerSize data - 2) := by rw [← hdev, ofInt_toNat]
      rw [if_neg (not_not_intro hscr), hsof]
      by_cases hlast : le16 data (headerSize data - 2) = clock.lastSof
      · rw [if_pos hlast, if_neg fun hno => hno.2.2 hlast]
      · rw [if_neg hlast, if_pos ⟨hfull, hscr, hlast⟩, estimateOffset_eq h.offset hdev ht.hostSof]
        refine ⟨Tracks.store ⟨h.size, h.length, h.head, h.count, h.sample, .inr rfl⟩ ⟨?_, ht.hostSof, ht.devStc hfull hscr,
          ht.time⟩, rfl⟩
        have hmask : (2047 : BitVec 16).toNat = 2 ^ 11 - 1 := rfl
        have hzero : (0 : BitVec 16).toNat = 0 := rfl
        dsimp only
        rw [BitVec.toNat_and, hmask, Nat.and_two_pow_sub_one_eq_mod, BitVec.toNat_add, hzero]
        omega
    · rw [if_pos hscr, if_neg fun hno => hscr hno.2.1]

theorem Tracks.clockAfter {payloads : List (ℤ × Payload)} (h : Tracks line l clock)
    (hp : ∀ x ∈ payloads, Taken line x.1 x.2.data x.2.hostSof x.2.time) :
    Tracks line (l ++ framesStored clock.lastSof payloads) (Uvc.clockAfter clock (payloads.map Prod.snd)) := by
  induction payloads generalizing l clock with
  | nil =>
    rw [framesStored, List.append_nil]
    exact h
  | cons x payloads ih =>
    have hdecode := h.decode x.2.pts (hp x List.mem_cons_self)
    have hrest := fun y hy => hp y (List.mem_cons_of_mem x hy)
    rw [framesStored]
    split at hdecode
    · next hstored =>
      have hnext := ih hdecode.1 hrest
      rw [hdecode.2, List.append_assoc] at hnext
      rw [if_pos hstored]
      exact hnext
    · next hnot =>
      rw [if_neg hnot]
      change Tracks line _
        (Uvc.clockAfter (uvcVideoClockDecode clock x.2.pts x.2.data x.2.hostSof x.2.time).1 (payloads.map Prod.snd))
      rw [hdecode]
      exact ih h hrest

/-- A full window of the last samples. -/
theorem Tracks.fullWindow (h : Tracks line l clock) (hfull : 32 ≤ l.length) :
    FullWindow line (fun i => l.getD (l.length - 32 + i) 0) clock := by
  have hhead := h.head
  refine ⟨h.size, ?_, by omega, fun i hi => ?_⟩
  · refine BitVec.eq_of_toNat_eq ?_
    rw [h.count, h.size]
    exact Nat.min_eq_left hfull
  · obtain ⟨sample, hget, hline⟩ := h.sample (l.length - 32 + i) (by omega) (by omega)
    refine ⟨sample, ?_, ?_⟩
    · rw [← hget]
      congr 1
      omega
    · rw [List.getD_eq_getElem _ _ (by omega)]
      exact hline

/-- **The clock of a stream**: since the reset it has stored the payloads with a new clock reference, and once there are
32 of them, the window is full of the last ones, in their order. -/
theorem window_of_stream {payloads : List (ℤ × Payload)} (hclock : clock.samples.length = 32) (hsize : clock.size = 32)
    (hp : ∀ x ∈ payloads, Taken line x.1 x.2.data x.2.hostSof x.2.time) :
    Tracks line (framesStored (-1) payloads) (clockAfter (uvcVideoClockReset clock) (payloads.map Prod.snd)) ∧
      (32 ≤ (framesStored (-1) payloads).length →
        FullWindow line (fun i => (framesStored (-1) payloads).getD ((framesStored (-1) payloads).length - 32 + i) 0)
          (clockAfter (uvcVideoClockReset clock) (payloads.map Prod.snd))) := by
  have hreset : Tracks line [] (uvcVideoClockReset clock) :=
    ⟨hsize, hclock, rfl, rfl, fun k hk => absurd hk (Nat.not_lt_zero k), .inl rfl⟩
  have hafter := hreset.clockAfter hp
  exact ⟨hafter, hafter.fullWindow⟩

/-- Payloads at the frame numbers 5, 5 and 6 of a clock that ticks once for each. -/
def threePayloads : List (ℤ × Payload) :=
  [5, 5, 6].map fun S : ℕ => (S, ⟨none, [8, 8, .ofNat S, 0, 0, 0, .ofNat S, 0], S, .ofInt 64 (10 ^ 6 * S)⟩)

theorem window_of_stream_three : framesStored (-1) threePayloads = [5, 6] ∧ Tracks ⟨0, 1, 0⟩
    (framesStored (-1) threePayloads) (clockAfter (uvcVideoClockReset wrappingClock) (threePayloads.map Prod.snd)) := by
  refine ⟨by decide +kernel, (window_of_stream rfl rfl (List.forall_mem_map.mpr fun S hS => ?_)).1⟩
  have htaken : S = 5 ∨ S = 6 := by
    simpa using hS
  rcases htaken with rfl | rfl
  · exact ⟨fun _ _ => by decide +kernel, fun _ _ => by decide +kernel, by decide, by decide⟩
  · exact ⟨fun _ _ => by decide +kernel, fun _ _ => by decide +kernel, by decide, by decide⟩

end Uvc
end TbsMedia
