import Mathlib.Tactic.Ring
import TbsMedia.Vicodec.Layout
import TbsMedia.Vicodec.V4l2Fwht

/-!
# Where the planes of a frame lie

The planes of a frame share a buffer.  They lie one behind the other, or their samples alternate; in no
pixel format do two of them share a sample.

* `Plane.Apart`: planes that are told apart by regions or by a remainder.
* `Buffer`: a buffer as the driver sets it up.
* `Buffer.fits`, `Buffer.apart`: the planes of every pixel format.
-/

namespace TbsMedia
namespace Vicodec

open Lib

/-! ## Planes apart -/

/-- One plane ends in front of the other, or the addresses of the two have different remainders. -/
def Plane.Apart (P : Plane) (height : ℕ) (P' : Plane) (height' : ℕ) : Prop :=
  P.base + height * P.stride ≤ P'.base ∨ P'.base + height' * P'.stride ≤ P.base ∨
    ∃ m, (m ∣ P.stride ∧ m ∣ P.step) ∧ (m ∣ P'.stride ∧ m ∣ P'.step) ∧ P.base % m ≠ P'.base % m

theorem Plane.Apart.symm {P P' : Plane} {height height' : ℕ} (h : P.Apart height P' height') :
    P'.Apart height' P height := by
  rcases h with h | h | ⟨m, hd, hd', hne⟩
  · exact Or.inr (Or.inl h)
  · exact Or.inl h
  · exact Or.inr (Or.inr ⟨m, hd', hd, hne.symm⟩)

/-- The samples of a plane lie in front of its end. -/
theorem Plane.addr_lt {P : Plane} {height width r c : ℕ} (hstep : 0 < P.step)
    (hrow : width * P.step ≤ P.stride) (hr : r < height) (hc : c < width) :
    P.addr r c < P.base + height * P.stride := by
  have hcol : c * P.step < P.stride := ((Nat.mul_lt_mul_right hstep).2 hc).trans_le hrow
  have hrows : r * P.stride + P.stride ≤ height * P.stride :=
    (Nat.succ_mul _ _).symm.le.trans (Nat.mul_le_mul_right _ hr)
  unfold Plane.addr
  omega

/-- The remainder of an address is that of the plane. -/
theorem Plane.addr_mod {P : Plane} {m : ℕ} (hstride : m ∣ P.stride) (hstep : m ∣ P.step) (r c : ℕ) :
    P.addr r c % m = P.base % m := by
  obtain ⟨a, ha⟩ := hstride
  obtain ⟨b, hb⟩ := hstep
  unfold Plane.addr
  rw [ha, hb, Nat.mul_left_comm, Nat.mul_left_comm c, Nat.add_mul_mod_self_left,
    Nat.add_mul_mod_self_left]

/-- **Planes that are apart share no sample.** -/
theorem Plane.Apart.addr_ne {P P' : Plane} {height height' width width' r r' c c' : ℕ}
    (h : P.Apart height P' height') (hstep : 0 < P.step) (hrow : width * P.step ≤ P.stride)
    (hstep' : 0 < P'.step) (hrow' : width' * P'.step ≤ P'.stride) (hr : r < height) (hc : c < width)
    (hr' : r' < height') (hc' : c' < width') : P.addr r c ≠ P'.addr r' c' := by
  intro heq
  rcases h with h | h | ⟨m, hd, hd', hne⟩
  · have hlt := Plane.addr_lt hstep hrow hr hc
    have hle : P'.base ≤ P'.addr r' c' := by
      unfold Plane.addr
      omega
    omega
  · have hlt := Plane.addr_lt hstep' hrow' hr' hc'
    have hle : P.base ≤ P.addr r c := by
      unfold Plane.addr
      omega
    omega
  · rw [← Plane.addr_mod hd.1 hd.2 r c, ← Plane.addr_mod hd'.1 hd'.2 r' c', heq] at hne
    exact hne rfl

theorem Plane.Fits.mono {P : Plane} {height width height' width' : ℕ} (h : P.Fits height width)
    (hh : height' ≤ height) (hw : width' ≤ width) : P.Fits height' width' :=
  ⟨h.step_pos, (Nat.mul_le_mul_right _ hw).trans h.row, (Nat.mul_le_mul_right _ hh).trans_lt h.plane⟩

theorem Plane.Apart.mono {P P' : Plane} {height height' n n' : ℕ} (h : P.Apart height P' height')
    (hn : n ≤ height) (hn' : n' ≤ height') : P.Apart n P' n' := by
  have hle := Nat.mul_le_mul_right P.stride hn
  have hle' := Nat.mul_le_mul_right P'.stride hn'
  rcases h with h | h | h
  · exact Or.inl (by omega)
  · exact Or.inr (Or.inl (by omega))
  · exact Or.inr (Or.inr h)

/-! ## Buffers -/

/-- A buffer for frames of a pixel format, as the driver sets it up: the coded size is a multiple of eight
samples of every plane, there are rows, and the size of the buffer is computed in 32 bits. -/
structure Buffer where
  fmt : PixelFormat
  width : ℕ
  height : ℕ
  width_dvd : 8 * fmt.info.widthDiv ∣ width
  height_dvd : 8 * fmt.info.heightDiv ∣ height
  height_pos : 0 < height
  size_lt : width * height * fmt.info.sizeimageMult < 2 ^ 32

namespace Buffer

variable (B : Buffer)

def stride : ℕ := B.width * B.fmt.info.bytesperlineMult

/-- The planes of a frame in the buffer. -/
def plane (c : Component) : Plane :=
  (prepareRawFrame B.fmt (u32 (B.stride * B.height))).planeOf B.stride (B.fmt.chromaStride B.stride) c

/-- The rows that a plane has room for. -/
def rows (c : Component) : ℕ := if c.isChroma then B.height / B.fmt.info.heightDiv else B.height

/-- The columns that a plane has room for. -/
def columns (c : Component) : ℕ := if c.isChroma then B.width / B.fmt.info.widthDiv else B.width

end Buffer

/-- What the table says of all formats. -/
theorem info_spec (fmt : PixelFormat) : fmt.info.lumaAlphaStep = fmt.info.bytesperlineMult ∧
    0 < fmt.info.bytesperlineMult ∧ fmt.info.bytesperlineMult ≤ fmt.info.sizeimageMult ∧
      (fmt.info.widthDiv = 1 ∨ fmt.info.widthDiv = 2) ∧ (fmt.info.heightDiv = 1 ∨ fmt.info.heightDiv = 2) := by
  cases fmt <;> decide

/-- The samples of packed formats have different remainders. -/
theorem packed_spec (fmt : PixelFormat) (h : fmt.info.planesNum = 1) (size : ℕ) :
    fmt.planes size = fmt.planes 0 ∧ ∀ c ∈ components fmt.info.componentsNum,
      ∀ c' ∈ components fmt.info.componentsNum, c ≠ c' →
        fmt.planes 0 c % Nat.gcd ((prepareRawFrame fmt 0).step c) ((prepareRawFrame fmt 0).step c') ≠
          fmt.planes 0 c' % Nat.gcd ((prepareRawFrame fmt 0).step c) ((prepareRawFrame fmt 0).step c') ∧
        Nat.gcd ((prepareRawFrame fmt 0).step c) ((prepareRawFrame fmt 0).step c') ∣
          8 * fmt.info.bytesperlineMult := by
  cases fmt <;> first | exact absurd h (by decide) | exact ⟨rfl, by decide⟩

/-- In semi-planar formats the chroma samples alternate behind the luma plane. -/
theorem semiplanar_spec (fmt : PixelFormat) (h : fmt.info.planesNum = 2) (size : ℕ) :
    fmt.info.bytesperlineMult = 1 ∧ fmt.info.chromaStep = 2 ∧ fmt.info.componentsNum = 3 ∧
      fmt.planes size .luma = 0 ∧
      (fmt.planes size .cb = size ∧ fmt.planes size .cr = size + 1 ∨
        fmt.planes size .cb = size + 1 ∧ fmt.planes size .cr = size) := by
  cases fmt <;> first
    | exact absurd h (by decide)
    | exact ⟨rfl, rfl, rfl, rfl, Or.inl ⟨rfl, rfl⟩⟩
    | exact ⟨rfl, rfl, rfl, rfl, Or.inr ⟨rfl, rfl⟩⟩

/-- In planar formats the chroma planes lie one behind the other behind the luma plane. -/
theorem planar_spec (fmt : PixelFormat) (h : fmt.info.planesNum = 3) (size : ℕ) :
    fmt.info.bytesperlineMult = 1 ∧ fmt.info.chromaStep = 1 ∧ fmt.info.componentsNum = 3 ∧
      fmt.planes size .luma = 0 ∧
      (fmt.planes size .cb = size ∧
          fmt.planes size .cr = size + size / (fmt.info.widthDiv * fmt.info.heightDiv) ∨
        fmt.planes size .cb = size + size / (fmt.info.widthDiv * fmt.info.heightDiv) ∧
          fmt.planes size .cr = size) := by
  cases fmt <;> first
    | exact absurd h (by decide)
    | exact ⟨rfl, rfl, rfl, rfl, Or.inl ⟨rfl, rfl⟩⟩
    | exact ⟨rfl, rfl, rfl, rfl, Or.inr ⟨rfl, rfl⟩⟩

theorem planesNum_spec (fmt : PixelFormat) :
    fmt.info.planesNum = 1 ∨ fmt.info.planesNum = 2 ∨ fmt.info.planesNum = 3 := by
  cases fmt <;> decide

/-- A row of chroma samples fills its stride. -/
theorem chromaStride_eq (fmt : PixelFormat) (hnum : 3 ≤ fmt.info.componentsNum) {w : ℕ}
    (hw : w * fmt.info.chromaStep < 2 ^ 32) :
    fmt.chromaStride (fmt.info.widthDiv * w * fmt.info.bytesperlineMult) = w * fmt.info.chromaStep := by
  cases fmt <;> simp [PixelFormat.chromaStride, PixelFormat.info, u32] at hw hnum ⊢ <;> omega

theorem chroma_spec (fmt : PixelFormat) (hnum : 3 ≤ fmt.info.componentsNum) : 0 < fmt.info.chromaStep ∧
    fmt.info.chromaStep ≤ fmt.info.widthDiv * fmt.info.heightDiv * fmt.info.sizeimageMult := by
  revert hnum
  cases fmt <;> decide

theorem three_le_of_isChroma {num : ℕ} {c : Component} (hc : c ∈ components num) (h : c.isChroma = true) :
    3 ≤ num := by
  unfold components at hc
  by_contra hnum
  rw [if_neg hnum, if_neg (by omega)] at hc
  obtain rfl : c = .luma := by simpa using hc
  exact absurd h (by decide)

namespace Buffer

variable {B : Buffer}

theorem width_eq : B.width = B.fmt.info.widthDiv * (B.width / B.fmt.info.widthDiv) :=
  (Nat.mul_div_cancel' (dvd_trans (Nat.dvd_mul_left _ _) B.width_dvd)).symm

theorem height_eq : B.height = B.fmt.info.heightDiv * (B.height / B.fmt.info.heightDiv) :=
  (Nat.mul_div_cancel' (dvd_trans (Nat.dvd_mul_left _ _) B.height_dvd)).symm

theorem luma_lt : B.height * B.stride < 2 ^ 32 := by
  have hmult := (info_spec B.fmt).2.2.1
  calc B.height * B.stride = B.width * B.height * B.fmt.info.bytesperlineMult := by
        unfold stride
        ring
    _ ≤ B.width * B.height * B.fmt.info.sizeimageMult := Nat.mul_le_mul_left _ hmult
    _ < 2 ^ 32 := B.size_lt

theorem chroma_lt (hnum : 3 ≤ B.fmt.info.componentsNum) :
    B.height / B.fmt.info.heightDiv * (B.width / B.fmt.info.widthDiv * B.fmt.info.chromaStep) < 2 ^ 32 := by
  have hstep := (chroma_spec B.fmt hnum).2
  have hsize := B.size_lt
  rw [B.width_eq, B.height_eq] at hsize
  calc B.height / B.fmt.info.heightDiv * (B.width / B.fmt.info.widthDiv * B.fmt.info.chromaStep)
      = B.height / B.fmt.info.heightDiv * (B.width / B.fmt.info.widthDiv) * B.fmt.info.chromaStep := by
        ring
    _ ≤ B.height / B.fmt.info.heightDiv * (B.width / B.fmt.info.widthDiv) *
        (B.fmt.info.widthDiv * B.fmt.info.heightDiv * B.fmt.info.sizeimageMult) :=
        Nat.mul_le_mul_left _ hstep
    _ = B.fmt.info.widthDiv * (B.width / B.fmt.info.widthDiv) *
        (B.fmt.info.heightDiv * (B.height / B.fmt.info.heightDiv)) * B.fmt.info.sizeimageMult := by ring
    _ < 2 ^ 32 := hsize

theorem rows_pos (c : Component) : 0 < B.rows c := by
  unfold rows
  split_ifs
  · have heq := B.height_eq
    exact Nat.pos_of_ne_zero fun h => by
      rw [h, Nat.mul_zero] at heq
      exact absurd heq B.height_pos.ne'
  · exact B.height_pos

/-- The stride of the chroma planes is the length of their rows. -/
theorem chromaStride_eq (hnum : 3 ≤ B.fmt.info.componentsNum) :
    B.fmt.chromaStride B.stride = B.width / B.fmt.info.widthDiv * B.fmt.info.chromaStep := by
  have hrows : 0 < B.height / B.fmt.info.heightDiv := rows_pos (B := B) .cb
  have hlt := (Nat.le_mul_of_pos_left _ hrows).trans_lt (B.chroma_lt hnum)
  rw [← Vicodec.chromaStride_eq B.fmt hnum hlt, ← B.width_eq]
  rfl

/-- **Every plane fits the buffer.** -/
theorem fits {c : Component} (hc : c ∈ components B.fmt.info.componentsNum) :
    (B.plane c).Fits (B.rows c) (B.columns c) := by
  unfold plane FwhtRawFrame.planeOf FwhtRawFrame.step prepareRawFrame rows columns
  by_cases hchroma : c.isChroma = true
  · have hnum := three_le_of_isChroma hc hchroma
    simp only [if_pos hchroma, chromaStride_eq hnum]
    exact ⟨(chroma_spec B.fmt hnum).1, le_refl _, B.chroma_lt hnum⟩
  · have hluma := info_spec B.fmt
    simp only [if_neg hchroma]
    refine ⟨hluma.1.symm ▸ hluma.2.1, ?_, B.luma_lt⟩
    rw [hluma.1]
    exact le_refl _

/-! ## The planes of a format -/

/-- The size of the luma plane is computed without a wrap. -/
theorem size_eq : u32 (B.stride * B.height) = B.height * B.stride := by
  rw [u32, Nat.mul_comm, Nat.mod_eq_of_lt B.luma_lt]

theorem plane_base (c : Component) : (B.plane c).base = B.fmt.planes (B.height * B.stride) c := by
  rw [← size_eq]
  rfl

theorem plane_chroma_stride (hnum : 3 ≤ B.fmt.info.componentsNum) {c : Component}
    (hc : c.isChroma = true) :
    (B.plane c).stride = B.width / B.fmt.info.widthDiv * B.fmt.info.chromaStep :=
  (if_pos hc).trans (chromaStride_eq hnum)

theorem plane_chroma_step {c : Component} (hc : c.isChroma = true) :
    (B.plane c).step = B.fmt.info.chromaStep :=
  if_pos hc

theorem luma_apart {c : Component} (hbase : B.fmt.planes (B.height * B.stride) .luma = 0)
    (hc : B.height * B.stride ≤ B.fmt.planes (B.height * B.stride) c) :
    (B.plane .luma).Apart (B.rows .luma) (B.plane c) (B.rows c) := by
  refine Or.inl ?_
  rw [plane_base, plane_base, hbase, Nat.zero_add]
  exact hc

/-- Three planes are apart if the chroma planes lie behind luma and are apart. -/
theorem apart_of_chroma (hnum : B.fmt.info.componentsNum = 3)
    (hluma : B.fmt.planes (B.height * B.stride) .luma = 0)
    (hcb : B.height * B.stride ≤ B.fmt.planes (B.height * B.stride) .cb)
    (hcr : B.height * B.stride ≤ B.fmt.planes (B.height * B.stride) .cr)
    (hcbcr : (B.plane .cb).Apart (B.rows .cb) (B.plane .cr) (B.rows .cr)) {c c' : Component}
    (hc : c ∈ components B.fmt.info.componentsNum) (hc' : c' ∈ components B.fmt.info.componentsNum)
    (hne : c ≠ c') : (B.plane c).Apart (B.rows c) (B.plane c') (B.rows c') := by
  rw [hnum] at hc hc'
  have hthree : ∀ {d}, d ∈ components 3 → d = .luma ∨ d = .cb ∨ d = .cr := fun hd => by
    simpa [components] using hd
  rcases hthree hc with rfl | rfl | rfl <;> rcases hthree hc' with rfl | rfl | rfl
  · exact absurd rfl hne
  · exact luma_apart hluma hcb
  · exact luma_apart hluma hcr
  · exact (luma_apart hluma hcb).symm
  · exact absurd rfl hne
  · exact hcbcr
  · exact (luma_apart hluma hcr).symm
  · exact hcbcr.symm
  · exact absurd rfl hne

theorem packed_apart (h : B.fmt.info.planesNum = 1) {c c' : Component}
    (hc : c ∈ components B.fmt.info.componentsNum) (hc' : c' ∈ components B.fmt.info.componentsNum)
    (hne : c ≠ c') : (B.plane c).Apart (B.rows c) (B.plane c') (B.rows c') := by
  obtain ⟨hplanes, hspec⟩ := packed_spec B.fmt h (B.height * B.stride)
  obtain ⟨hmod, hdvd⟩ := hspec c hc c' hc' hne
  have hstride : ∀ d, (B.plane d).stride = B.stride := fun d => by
    unfold plane FwhtRawFrame.planeOf PixelFormat.chromaStride
    have hnv : ¬(B.fmt = .nv24 ∨ B.fmt = .nv42) := by
      rintro (heq | heq) <;> rw [heq] at h <;> exact absurd h (by decide)
    simp only [if_neg hnv, if_neg (show ¬B.fmt.info.planesNum = 3 by omega), ite_self]
  have hwidth : 8 * B.fmt.info.bytesperlineMult ∣ B.stride :=
    Nat.mul_dvd_mul_right (dvd_trans (Nat.dvd_mul_right 8 _) B.width_dvd) _
  refine Or.inr (Or.inr ⟨_, ⟨?_, Nat.gcd_dvd_left _ _⟩, ⟨?_, Nat.gcd_dvd_right _ _⟩, ?_⟩)
  · rw [hstride]
    exact dvd_trans hdvd hwidth
  · rw [hstride]
    exact dvd_trans hdvd hwidth
  · rw [plane_base, plane_base, hplanes]
    exact hmod

theorem semiplanar_apart (h : B.fmt.info.planesNum = 2) {c c' : Component}
    (hc : c ∈ components B.fmt.info.componentsNum) (hc' : c' ∈ components B.fmt.info.componentsNum)
    (hne : c ≠ c') : (B.plane c).Apart (B.rows c) (B.plane c') (B.rows c') := by
  obtain ⟨-, hstep, hnum, hluma, hchroma⟩ := semiplanar_spec B.fmt h (B.height * B.stride)
  have hge : B.height * B.stride ≤ B.fmt.planes (B.height * B.stride) .cb ∧
      B.height * B.stride ≤ B.fmt.planes (B.height * B.stride) .cr := by
    omega
  have hcbcr : (B.plane .cb).Apart (B.rows .cb) (B.plane .cr) (B.rows .cr) := by
    have hdvd : ∀ d : Component, d.isChroma = true → 2 ∣ (B.plane d).stride ∧ 2 ∣ (B.plane d).step :=
      fun d hd => by
        rw [plane_chroma_stride (by omega) hd, plane_chroma_step hd, hstep]
        exact ⟨Nat.dvd_mul_left _ _, dvd_refl 2⟩
    refine Or.inr (Or.inr ⟨2, hdvd .cb rfl, hdvd .cr rfl, ?_⟩)
    rw [plane_base, plane_base]
    omega
  exact apart_of_chroma hnum hluma hge.1 hge.2 hcbcr hc hc' hne

theorem planar_apart (h : B.fmt.info.planesNum = 3) {c c' : Component}
    (hc : c ∈ components B.fmt.info.componentsNum) (hc' : c' ∈ components B.fmt.info.componentsNum)
    (hne : c ≠ c') : (B.plane c).Apart (B.rows c) (B.plane c') (B.rows c') := by
  obtain ⟨hmult, hstep, hnum, hluma, hchroma⟩ := planar_spec B.fmt h (B.height * B.stride)
  have hge : B.height * B.stride ≤ B.fmt.planes (B.height * B.stride) .cb ∧
      B.height * B.stride ≤ B.fmt.planes (B.height * B.stride) .cr := by
    rcases hchroma with ⟨h₁, h₂⟩ | ⟨h₁, h₂⟩
    · exact ⟨h₁.ge, h₂ ▸ Nat.le_add_right _ _⟩
    · exact ⟨h₁ ▸ Nat.le_add_right _ _, h₂.ge⟩
  have hchromaSize : ∀ d : Component, d.isChroma = true → B.rows d * (B.plane d).stride =
      B.height * B.stride / (B.fmt.info.widthDiv * B.fmt.info.heightDiv) := fun d hd => by
    have hdiv : 0 < B.fmt.info.widthDiv * B.fmt.info.heightDiv := by
      obtain ⟨-, -, -, hw, hh⟩ := info_spec B.fmt
      exact Nat.mul_pos (by omega) (by omega)
    have harea : B.height * B.stride = B.fmt.info.widthDiv * B.fmt.info.heightDiv *
        (B.height / B.fmt.info.heightDiv * (B.width / B.fmt.info.widthDiv)) := by
      unfold stride
      rw [hmult]
      nth_rewrite 1 [B.height_eq, B.width_eq]
      ring
    rw [plane_chroma_stride (by omega) hd, hstep, harea, Nat.mul_div_cancel_left _ hdiv, Nat.mul_one]
    exact congrArg (· * _) (if_pos hd)
  have hcbcr : (B.plane .cb).Apart (B.rows .cb) (B.plane .cr) (B.rows .cr) := by
    have hcb := hchromaSize .cb rfl
    have hcr := hchromaSize .cr rfl
    have hbcb := plane_base (B := B) .cb
    have hbcr := plane_base (B := B) .cr
    rcases hchroma with ⟨h₁, h₂⟩ | ⟨h₁, h₂⟩
    · exact Or.inl (by omega)
    · exact Or.inr (Or.inl (by omega))
  exact apart_of_chroma hnum hluma hge.1 hge.2 hcbcr hc hc' hne

/-- **In no pixel format do two planes share a sample.** -/
theorem apart {c c' : Component} (hc : c ∈ components B.fmt.info.componentsNum)
    (hc' : c' ∈ components B.fmt.info.componentsNum) (hne : c ≠ c') :
    (B.plane c).Apart (B.rows c) (B.plane c') (B.rows c') := by
  rcases planesNum_spec B.fmt with h | h | h
  · exact packed_apart h hc hc' hne
  · exact semiplanar_apart h hc hc' hne
  · exact planar_apart h hc hc' hne

end Buffer

/-! ## The visible area -/

theorem roundUp8_le {x n : ℕ} (hn : 8 ∣ n) (h : x ≤ n) : roundUp8 x ≤ n := by
  unfold roundUp8 u32
  have hmod := Nat.mod_le ((x + 7) / 8 * 8) (2 ^ 32)
  omega

theorem le_roundUp8 {x n : ℕ} (hn : 8 ∣ n) (h : x ≤ n) (hlt : n < 2 ^ 32) : x ≤ roundUp8 x := by
  unfold roundUp8 u32
  rw [Nat.mod_eq_of_lt (by omega)]
  omega

theorem eight_dvd_div {n d : ℕ} (hd : 0 < d) (h : 8 * d ∣ n) : 8 ∣ n / d := by
  obtain ⟨k, rfl⟩ := h
  rw [Nat.mul_right_comm, Nat.mul_div_cancel _ hd]
  exact Nat.dvd_mul_right 8 k

namespace Buffer

variable {B : Buffer} {width height : ℕ}

/-- The blocks of a plane fit the rows and columns that there are in the buffer. -/
theorem planeSize_le (hwidth : width ≤ B.width) (hheight : height ≤ B.height) (c : Component) :
    roundUp8 (B.fmt.planeSize width height c).2 ≤ B.rows c ∧
      roundUp8 (B.fmt.planeSize width height c).1 ≤ B.columns c := by
  obtain ⟨-, -, -, hw, hh⟩ := info_spec B.fmt
  have hwpos : 0 < B.fmt.info.widthDiv := by omega
  have hhpos : 0 < B.fmt.info.heightDiv := by omega
  have hwd := B.width_dvd
  have hhd := B.height_dvd
  unfold PixelFormat.planeSize Buffer.rows Buffer.columns
  split_ifs
  · exact ⟨roundUp8_le (eight_dvd_div hhpos hhd) (Nat.div_le_div_right hheight),
      roundUp8_le (eight_dvd_div hwpos hwd) (Nat.div_le_div_right hwidth)⟩
  · exact ⟨roundUp8_le (dvd_trans (Nat.dvd_mul_right 8 _) hhd) hheight,
      roundUp8_le (dvd_trans (Nat.dvd_mul_right 8 _) hwd) hwidth⟩

theorem fits_planeSize (hwidth : width ≤ B.width) (hheight : height ≤ B.height) {c : Component}
    (hc : c ∈ components B.fmt.info.componentsNum) :
    (B.plane c).Fits (roundUp8 (B.fmt.planeSize width height c).2) (roundUp8 (B.fmt.planeSize width height c).1) :=
  (fits hc).mono (planeSize_le hwidth hheight c).1 (planeSize_le hwidth hheight c).2

theorem apart_planeSize (hwidth : width ≤ B.width) (hheight : height ≤ B.height) {c c' : Component}
    (hc : c ∈ components B.fmt.info.componentsNum) (hc' : c' ∈ components B.fmt.info.componentsNum)
    (hne : c ≠ c') :
    (B.plane c).Apart (roundUp8 (B.fmt.planeSize width height c).2) (B.plane c')
      (roundUp8 (B.fmt.planeSize width height c').2) :=
  (apart hc hc' hne).mono (planeSize_le hwidth hheight c).1 (planeSize_le hwidth hheight c').1

/-- The blocks of a plane cover its visible samples. -/
theorem visible_lt (hwidth : width ≤ B.width) (hheight : height ≤ B.height) {c : Component}
    (hc : c ∈ components B.fmt.info.componentsNum) {r col : ℕ} (hr : r < (B.fmt.planeSize width height c).2)
    (hcol : col < (B.fmt.planeSize width height c).1) :
    r < roundUp8 (B.fmt.planeSize width height c).2 ∧ col < roundUp8 (B.fmt.planeSize width height c).1 := by
  obtain ⟨-, -, -, hw, hh⟩ := info_spec B.fmt
  have hwpos : 0 < B.fmt.info.widthDiv := by omega
  have hhpos : 0 < B.fmt.info.heightDiv := by omega
  have hwd := B.width_dvd
  have hhd := B.height_dvd
  have hfit := fits hc
  have hle : (B.fmt.planeSize width height c).2 ≤ B.rows c ∧ (B.fmt.planeSize width height c).1 ≤ B.columns c := by
    unfold PixelFormat.planeSize Buffer.rows Buffer.columns
    split_ifs
    · exact ⟨Nat.div_le_div_right hheight, Nat.div_le_div_right hwidth⟩
    · exact ⟨hheight, hwidth⟩
  have hdvd : 8 ∣ B.rows c ∧ 8 ∣ B.columns c := by
    unfold Buffer.rows Buffer.columns
    split_ifs
    · exact ⟨eight_dvd_div hhpos hhd, eight_dvd_div hwpos hwd⟩
    · exact ⟨dvd_trans (Nat.dvd_mul_right 8 _) hhd, dvd_trans (Nat.dvd_mul_right 8 _) hwd⟩
  have hstride : B.columns c ≤ (B.plane c).stride := (Nat.le_mul_of_pos_right _ hfit.step_pos).trans hfit.row
  have hstridePos : 0 < (B.plane c).stride := by omega
  have hrowsLt : B.rows c < 2 ^ 32 := (Nat.le_mul_of_pos_right _ hstridePos).trans_lt hfit.plane
  have hcolumnsLt : B.columns c < 2 ^ 32 := by
    have hpos := rows_pos (B := B) c
    exact (hstride.trans (Nat.le_mul_of_pos_left _ hpos)).trans_lt hfit.plane
  exact ⟨hr.trans_le (le_roundUp8 hdvd.1 hle.1 hrowsLt), hcol.trans_le (le_roundUp8 hdvd.2 hle.2 hcolumnsLt)⟩

end Buffer

end Vicodec
end TbsMedia
