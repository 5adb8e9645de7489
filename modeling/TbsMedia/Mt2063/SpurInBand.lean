import Mathlib
import TbsMedia.Mt2063.FirstIf

/-!
# Spurs in the output band

`IsSpurInBand` looks for a harmonic of the first oscillator and one of the second whose difference falls into the
output band, or around zero.  It compares quotients of scaled frequencies, and returns how far the first IF has to
move.

* `findSpur`, `moves`, `isSpurInBand`: the harmonics that are found, the two distances, and the function.
* `InBand`: the harmonics that are found really are in the band.
* `findSpur_spec`: for the tuner's frequencies, no divisor is zero in the search.
* `moves_spec`: for harmonics in the band, the distances are the ones that take them out of it.
-/

namespace TbsMedia
namespace Mt2063

/-! ## The function -/

/-- A quotient; `none` if the divisor is zero. -/
def quot (a b : BitVec 32) : Option (BitVec 32) := if b = 0 then none else some (a / b)

/-- `d`, the upper edge of the band. -/
def edgeD (s : AvoidSpursData) : BitVec 32 := s.fOut + s.fOutBw / 2

/-- `c`, the lower edge of the band. -/
def edgeC (s : AvoidSpursData) : BitVec 32 := edgeD s - s.fOutBw

/-- `f`, the edge of the band around zero. -/
def edgeF (s : AvoidSpursData) : BitVec 32 := s.fZifBw / 2

/-- `f_Scale`. -/
def fScale (s : AvoidSpursData) : Option (BitVec 32) :=
  (quot (4294967295 / 2) s.maxH1).bind fun limit => (quot s.fLO1 limit).map fun q => q + 1

def gcd32 (a b : BitVec 32) : BitVec 32 := BitVec.ofNat 32 (Nat.gcd a.toNat b.toNat)

/-- `gd_Scale`, `gc_Scale` and `gf_Scale`, by the edge. -/
def scaleFor (s : AvoidSpursData) (edge : BitVec 32) : Option (BitVec 32) :=
  (fScale s).map fun fs => if gcd32 (gcd32 s.fLO1 s.fLO2) edge > fs then gcd32 (gcd32 s.fLO1 s.fLO2) edge else fs

/-- A frequency in units of the scale, rounded. -/
def scaled (scale x : BitVec 32) : Option (BitVec 32) := quot (x + scale / 2) scale

/-- The harmonic of LO2 below a harmonic of LO1, with the edge in between. -/
def harmonicBelow (s : AvoidSpursData) (scale edge n : BitVec 32) : Option (BitVec 32) :=
  (scaled scale s.fLO1).bind fun lo1 => (scaled scale edge).bind fun e => (scaled scale s.fLO2).bind fun lo2 =>
    quot (n * lo1 - e) lo2

/-- The harmonic of LO2 below a harmonic of LO1 and the edge. -/
def harmonicAbove (s : AvoidSpursData) (scale edge n : BitVec 32) : Option (BitVec 32) :=
  (scaled scale s.fLO1).bind fun lo1 => (scaled scale edge).bind fun e => (scaled scale s.fLO2).bind fun lo2 =>
    quot (n * lo1 + e) lo2

/-- The bands that a spur may be in: between `c` and `d`, around zero, and between `-d` and `-c`. -/
inductive Band where
  | upper
  | zero
  | lower
  deriving DecidableEq

instance : Fintype Band := ⟨{.upper, .zero, .lower}, fun band => by cases band <;> decide⟩

/-- The harmonics of LO1 and of LO2 whose difference is a spur. -/
structure Spur where
  n : BitVec 32
  m : BitVec 32
  band : Band
  deriving DecidableEq

/-- How the body of the loop ends. -/
inductive Check where
  | next
  | noSpur
  | found (p : Spur)
  deriving DecidableEq

/-- The body of the loop. -/
def checkHarmonic (s : AvoidSpursData) (gd gc gf n : BitVec 32) : Option Check :=
  (harmonicBelow s gd (edgeD s) n).bind fun md =>
    if md ≥ s.maxH1 then some .noSpur
    else
      (harmonicAbove s gd (edgeD s) n).bind fun ma =>
        if md = ma then some .next
        else
          (harmonicBelow s gc (edgeC s) n).bind fun mc =>
            if mc ≠ md then some (.found ⟨n, mc, .upper⟩)
            else
              (harmonicAbove s gf (edgeF s) n).bind fun me =>
                (harmonicBelow s gf (edgeF s) n).bind fun mf =>
                  if me ≠ mf then some (.found ⟨n, me, .zero⟩)
                  else
                    (harmonicAbove s gc (edgeC s) n).map fun mb =>
                      if ma ≠ mb then .found ⟨n, ma, .lower⟩ else .next

/-- The loop; `none` if a divisor is zero, or if it does not end. -/
def spurLoop (s : AvoidSpursData) (gd gc gf : BitVec 32) : ℕ → BitVec 32 → Option (Option Spur)
  | 0, _ => none
  | fuel + 1, n =>
    if n ≤ s.maxH1 then
      (checkHarmonic s gd gc gf n).bind fun check =>
        match check with
        | .next => spurLoop s gd gc gf fuel (n + 1)
        | .noSpur => some none
        | .found p => some (some p)
    else some none

/-- `n0`. -/
def firstHarmonic (s : AvoidSpursData) : Option (BitVec 32) :=
  quot (s.fLO2 - edgeD s + (s.fLO1 - s.fLO2) - 1) (s.fLO1 - s.fLO2)

/-- The harmonics that `IsSpurInBand` finds. -/
def findSpur (s : AvoidSpursData) : Option (Option Spur) :=
  (scaleFor s (edgeD s)).bind fun gd => (scaleFor s (edgeC s)).bind fun gc => (scaleFor s (edgeF s)).bind fun gf =>
    (firstHarmonic s).bind fun n0 => spurLoop s gd gc gf (s.maxH1.toNat + 2) n0

/-- `f_Spur`. -/
def fSpur (s : AvoidSpursData) (scale : BitVec 32) (p : Spur) : BitVec 32 :=
  scale * (p.n * (s.fLO1 / scale) - p.m * (s.fLO2 / scale)) + p.n * (s.fLO1 % scale) - p.m * (s.fLO2 % scale)

/-- The two distances `fm` and `fp`, from what is divided for them. -/
def distances (p : Spur) (down up : BitVec 32) : Option (BitVec 32 × BitVec 32) :=
  (quot up (p.m - p.n)).bind fun fp => (quot down (p.m - p.n)).map fun fm => (fm + 1, fp + 1)

/-- `fm` and `fp` for the harmonics that are found. -/
def moves (s : AvoidSpursData) (p : Spur) : Option (BitVec 32 × BitVec 32) :=
  match p.band with
  | .upper => (scaleFor s (edgeC s)).bind fun gc =>
      distances p (edgeD s - fSpur s gc p) (fSpur s gc p - edgeC s)
  | .zero => (scaleFor s (edgeF s)).bind fun gf =>
      distances p (edgeF s - fSpur s gf p) (fSpur s gf p + edgeF s)
  | .lower => (scaleFor s (edgeC s)).bind fun gc =>
      distances p (-(fSpur s gc p + edgeC s)) (edgeD s + fSpur s gc p)

/-- `IsSpurInBand`: `fm` and `fp` if there is a spur; `none` if it divides by zero. -/
def isSpurInBand (s : AvoidSpursData) : Option (Option (BitVec 32 × BitVec 32)) :=
  (findSpur s).bind fun r =>
    match r with
    | none => some none
    | some p => (moves s p).map some

/-! ## The spur itself -/

/-- The difference of the two harmonics. -/
def spurFreq (s : AvoidSpursData) (p : Spur) : ℤ := p.n.toNat * s.fLO1.toNat - p.m.toNat * s.fLO2.toNat

/-- The lower edge of a band. -/
def lowEdge (s : AvoidSpursData) : Band → ℤ
  | .upper => (edgeC s).toNat
  | .zero => -(edgeF s).toNat
  | .lower => -(edgeD s).toNat

/-- The upper edge of a band. -/
def highEdge (s : AvoidSpursData) : Band → ℤ
  | .upper => (edgeD s).toNat
  | .zero => (edgeF s).toNat
  | .lower => -(edgeC s).toNat

/-- The difference of the harmonics is in the band. -/
def InBand (s : AvoidSpursData) (p : Spur) : Prop :=
  lowEdge s p.band ≤ spurFreq s p ∧ spurFreq s p ≤ highEdge s p.band

instance (s : AvoidSpursData) (p : Spur) : Decidable (InBand s p) := inferInstanceAs (Decidable (_ ∧ _))

/-! ## Scales -/

/-- The settings and the frequencies of the oscillators are the tuner's. -/
structure Fits (s : AvoidSpursData) : Prop where
  maxH1 : s.maxH1 = 15
  zif : s.fZifBw = 2000000
  out : 36000000 ≤ s.fOut.toNat ∧ s.fOut.toNat ≤ 57000000
  bw : s.fOutBw.toNat ≤ 8000000
  lo2 : 130000000 ≤ s.fLO2.toNat
  apart : s.fLO2.toNat + 70000000 ≤ s.fLO1.toNat
  lo1 : s.fLO1.toNat ≤ 3200000000

variable {s : AvoidSpursData} {a b x edge scale n : BitVec 32} {p : Spur}

theorem quot_of_pos (h : 0 < b.toNat) : quot a b = some (a / b) :=
  if_neg fun hzero => by rw [hzero] at h; exact absurd h (lt_irrefl _)

theorem toNat_half (x : BitVec 32) : (x / 2).toNat = x.toNat / 2 := BitVec.toNat_udiv

theorem edgeD_toNat (h : Fits s) : (edgeD s).toNat = s.fOut.toNat + s.fOutBw.toNat / 2 := by
  obtain ⟨-, -, ⟨-, hout⟩, hbw, -, -, -⟩ := h
  unfold edgeD
  rw [BitVec.toNat_add, toNat_half]
  omega

theorem edgeC_toNat (h : Fits s) : (edgeC s).toNat = s.fOut.toNat + s.fOutBw.toNat / 2 - s.fOutBw.toNat := by
  have hd := edgeD_toNat h
  obtain ⟨-, -, ⟨hout, hout'⟩, hbw, -, -, -⟩ := h
  unfold edgeC
  rw [BitVec.toNat_sub, hd]
  omega

theorem edgeF_toNat (h : Fits s) : (edgeF s).toNat = 1000000 := by
  unfold edgeF
  rw [h.zif]
  decide

/-- An edge is not zero, and below the frequencies of the oscillators. -/
def IsEdge (x : BitVec 32) : Prop := 0 < x.toNat ∧ x.toNat ≤ 61000000

theorem isEdge_edgeD (h : Fits s) : IsEdge (edgeD s) := by
  have hout := h.out
  have hbw := h.bw
  unfold IsEdge
  rw [edgeD_toNat h]
  omega

theorem isEdge_edgeC (h : Fits s) : IsEdge (edgeC s) := by
  have hout := h.out
  have hbw := h.bw
  unfold IsEdge
  rw [edgeC_toNat h]
  omega

theorem isEdge_edgeF (h : Fits s) : IsEdge (edgeF s) := by
  unfold IsEdge
  rw [edgeF_toNat h]
  omega

/-- A scale divides the frequencies and the edge, or it is small; and it is large enough for the harmonics. -/
structure IsScale (s : AvoidSpursData) (edge scale : BitVec 32) : Prop where
  pos : 0 < scale.toNat
  le : scale.toNat ≤ 61000000
  enough : s.fLO1.toNat < scale.toNat * 143165576
  exact : (scale.toNat ∣ s.fLO1.toNat ∧ scale.toNat ∣ s.fLO2.toNat ∧ scale.toNat ∣ edge.toNat) ∨ scale.toNat ≤ 24

theorem fScale_eq (h : Fits s) :
    ∃ fs : BitVec 32, fScale s = some fs ∧ fs.toNat = s.fLO1.toNat / 143165576 + 1 := by
  have hlimit : quot (4294967295 / 2) s.maxH1 = some 143165576 := by
    rw [h.maxH1]
    decide
  have hpos : 0 < (143165576 : BitVec 32).toNat := by decide
  have hlo1 := h.lo1
  refine ⟨s.fLO1 / 143165576 + 1, ?_, ?_⟩
  · unfold fScale
    rw [hlimit, Option.bind_some, quot_of_pos hpos]
    rfl
  · rw [BitVec.toNat_add, BitVec.toNat_udiv]
    change (s.fLO1.toNat / 143165576 + 1) % 2 ^ 32 = _
    omega

theorem gcd32_toNat (a b : BitVec 32) : (gcd32 a b).toNat = Nat.gcd a.toNat b.toNat := by
  unfold gcd32
  rw [BitVec.toNat_ofNat]
  refine Nat.mod_eq_of_lt ?_
  rcases Nat.eq_zero_or_pos b.toNat with hb | hb
  · rw [hb, Nat.gcd_zero_right]
    exact a.isLt
  · exact (Nat.gcd_le_right _ hb).trans_lt b.isLt

theorem scaleFor_spec (h : Fits s) (hedge : IsEdge edge) :
    ∃ scale, scaleFor s edge = some scale ∧ IsScale s edge scale := by
  obtain ⟨fs, hfs, hvalue⟩ := fScale_eq h
  have hlo1 := h.lo1
  have hgcd : (gcd32 (gcd32 s.fLO1 s.fLO2) edge).toNat = Nat.gcd (Nat.gcd s.fLO1.toNat s.fLO2.toNat) edge.toNat := by
    rw [gcd32_toNat, gcd32_toNat]
  have hdiv := Nat.gcd_dvd_left (Nat.gcd s.fLO1.toNat s.fLO2.toNat) edge.toNat
  have hdvd₁ := hdiv.trans (Nat.gcd_dvd_left _ _)
  have hdvd₂ := hdiv.trans (Nat.gcd_dvd_right _ _)
  have hdvd₃ := Nat.gcd_dvd_right (Nat.gcd s.fLO1.toNat s.fLO2.toNat) edge.toNat
  have hle := Nat.le_of_dvd hedge.1 hdvd₃
  have hsmall : fs.toNat ≤ 24 := by omega
  have henough : s.fLO1.toNat < fs.toNat * 143165576 := by omega
  rw [← hgcd] at hdvd₁ hdvd₂ hdvd₃ hle
  refine ⟨_, by unfold scaleFor; rw [hfs]; rfl, ?_⟩
  dsimp only
  split
  · next hgt =>
    have hgt' : fs.toNat < (gcd32 (gcd32 s.fLO1 s.fLO2) edge).toNat := hgt
    exact ⟨Nat.zero_lt_of_lt hgt', hle.trans hedge.2, henough.trans_le (Nat.mul_le_mul_right _ hgt'.le),
      .inl ⟨hdvd₁, hdvd₂, hdvd₃⟩⟩
  · exact ⟨by omega, by omega, henough, .inr hsmall⟩

/-! ## Quotients of scaled frequencies -/

/-- A scaled frequency is off by at most half of a scale that does not divide it. -/
theorem scaled_spec (hpos : 0 < scale.toNat) (hbound : x.toNat + scale.toNat / 2 < 2 ^ 32) :
    ∃ y, scaled scale x = some y ∧ y.toNat = (x.toNat + scale.toNat / 2) / scale.toNat := by
  refine ⟨_, quot_of_pos hpos, ?_⟩
  rw [BitVec.toNat_udiv, BitVec.toNat_add, toNat_half, Nat.mod_eq_of_lt hbound]

theorem scaled_near {g y : ℕ} (hpos : 0 < g) (hexact : g ∣ y ∨ g ≤ 24) :
    g * ((y + g / 2) / g) ≤ y + 12 ∧ y ≤ g * ((y + g / 2) / g) + 12 := by
  have hmod := Nat.div_add_mod (y + g / 2) g
  have hlt := Nat.mod_lt (y + g / 2) hpos
  rcases hexact with ⟨k, rfl⟩ | hsmall
  · have hdiv : (g * k + g / 2) / g = k := by
      rw [Nat.mul_add_div hpos, Nat.div_eq_of_lt (by omega), Nat.add_zero]
    rw [hdiv]
    omega
  · omega

/-- The scaled frequencies; the quotients by the last of them. -/
theorem scaled_all (h : Fits s) (hscale : IsScale s edge scale) (hedge : IsEdge edge) :
    ∃ lo1 e lo2 : BitVec 32, scaled scale s.fLO1 = some lo1 ∧ scaled scale edge = some e ∧
      scaled scale s.fLO2 = some lo2 ∧ lo1.toNat = (s.fLO1.toNat + scale.toNat / 2) / scale.toNat ∧
      e.toNat = (edge.toNat + scale.toNat / 2) / scale.toNat ∧
      lo2.toNat = (s.fLO2.toNat + scale.toNat / 2) / scale.toNat ∧ 0 < lo2.toNat ∧ lo1.toNat ≤ 143165576 ∧
      e.toNat ≤ lo1.toNat := by
  obtain ⟨hpos, hle, henough, -⟩ := hscale
  obtain ⟨-, hedge⟩ := hedge
  have hlo1 := h.lo1
  have hlo2 := h.lo2
  have hapart := h.apart
  obtain ⟨lo1, hscaled₁, hvalue₁⟩ := scaled_spec (x := s.fLO1) hpos (by omega)
  obtain ⟨e, hscaled₂, hvalue₂⟩ := scaled_spec (x := edge) hpos (by omega)
  obtain ⟨lo2, hscaled₃, hvalue₃⟩ := scaled_spec (x := s.fLO2) hpos (by omega)
  refine ⟨lo1, e, lo2, hscaled₁, hscaled₂, hscaled₃, hvalue₁, hvalue₂, hvalue₃, ?_, ?_, ?_⟩
  · rw [hvalue₃]
    exact Nat.div_pos (by omega) hpos
  · rw [hvalue₁]
    refine Nat.le_of_lt_succ ((Nat.div_lt_iff_lt_mul hpos).mpr ?_)
    have hmul : Nat.succ 143165576 * scale.toNat = scale.toNat * 143165576 + scale.toNat := by ring
    omega
  · rw [hvalue₁, hvalue₂]
    exact Nat.div_le_div_right (by omega)

theorem harmonics_some (h : Fits s) (hscale : IsScale s edge scale) (hedge : IsEdge edge) (n : BitVec 32) :
    (∃ m, harmonicBelow s scale edge n = some m) ∧ ∃ m, harmonicAbove s scale edge n = some m := by
  obtain ⟨lo1, e, lo2, h₁, h₂, h₃, -, -, -, hpos, -⟩ := scaled_all h hscale hedge
  unfold harmonicBelow harmonicAbove
  rw [h₁, h₂, h₃]
  exact ⟨⟨_, quot_of_pos hpos⟩, _, quot_of_pos hpos⟩

/-- **A harmonic of LO1 that the loop does not stop at** is not above the 15th harmonic of LO2, with the upper edge, but
for what is rounded. -/
theorem harmonicBelow_lt (h : Fits s) (hscale : IsScale s edge scale) (hedge : IsEdge edge) (hn : 1 ≤ n.toNat)
    (hn' : n.toNat ≤ 15) {m : BitVec 32} (hm : harmonicBelow s scale edge n = some m) (hlt : m.toNat < 15) :
    n.toNat * s.fLO1.toNat ≤ 15 * s.fLO2.toNat + edge.toNat + 400 := by
  obtain ⟨lo1, e, lo2, h₁, h₂, h₃, hlo1, he, hlo2, hpos, hle, hle'⟩ := scaled_all h hscale hedge
  unfold harmonicBelow at hm
  rw [h₁, h₂, h₃] at hm
  obtain rfl := Option.some.inj ((quot_of_pos hpos).symm.trans hm)
  have hexact : ∀ y, y = s.fLO1.toNat ∨ y = s.fLO2.toNat ∨ y = edge.toNat → scale.toNat ∣ y ∨ scale.toNat ≤ 24 := by
    rintro y (rfl | rfl | rfl)
    · exact hscale.exact.imp_left And.left
    · exact hscale.exact.imp_left fun h => h.2.1
    · exact hscale.exact.imp_left fun h => h.2.2
  have hnear₁ := scaled_near hscale.pos (hexact _ (.inl rfl))
  have hnear₂ := scaled_near hscale.pos (hexact _ (.inr (.inl rfl)))
  have hnear₃ := scaled_near hscale.pos (hexact _ (.inr (.inr rfl)))
  rw [← hlo1] at hnear₁
  rw [← hlo2] at hnear₂
  rw [← he] at hnear₃
  have hprod : (n * lo1).toNat = n.toNat * lo1.toNat := by
    rw [BitVec.toNat_mul]
    refine Nat.mod_eq_of_lt ((Nat.mul_le_mul hn' hle).trans_lt (by decide))
  have hprod' : lo1.toNat ≤ n.toNat * lo1.toNat := Nat.le_mul_of_pos_left _ hn
  rw [BitVec.toNat_udiv, Nat.div_lt_iff_lt_mul hpos, BitVec.toNat_sub_of_le
    (BitVec.le_def.mpr (by rw [hprod]; exact hle'.trans hprod')), hprod] at hlt
  -- the bound for the scaled values, in units of the frequencies
  have hscaled : n.toNat * lo1.toNat < 15 * lo2.toNat + e.toNat := by omega
  have hmul : scale.toNat * (n.toNat * lo1.toNat) ≤ scale.toNat * (15 * lo2.toNat + e.toNat) :=
    Nat.mul_le_mul_left _ hscaled.le
  have hleft : n.toNat * s.fLO1.toNat ≤ n.toNat * (scale.toNat * lo1.toNat + 12) := Nat.mul_le_mul_left _ hnear₁.2
  have hring : n.toNat * (scale.toNat * lo1.toNat + 12) = scale.toNat * (n.toNat * lo1.toNat) + 12 * n.toNat := by ring
  have hring' : scale.toNat * (15 * lo2.toNat + e.toNat) = 15 * (scale.toNat * lo2.toNat) + scale.toNat * e.toNat := by
    ring
  omega

/-! ## The search -/

/-- What is known of the harmonics that are found. -/
structure Found (s : AvoidSpursData) (p : Spur) : Prop where
  pos : 1 ≤ p.n.toNat
  le : p.n.toNat ≤ 15
  first : s.fLO2.toNat ≤ p.n.toNat * (s.fLO1.toNat - s.fLO2.toNat) + (edgeD s).toNat
  last : p.n.toNat * s.fLO1.toNat ≤ 15 * s.fLO2.toNat + (edgeD s).toNat + 400

/-- One turn of the loop. -/
theorem checkHarmonic_spec {gd gc gf : BitVec 32} (h : Fits s) (hd : IsScale s (edgeD s) gd)
    (hc : IsScale s (edgeC s) gc) (hf : IsScale s (edgeF s) gf) (hn : 1 ≤ n.toNat) (hn' : n.toNat ≤ 15)
    (hfirst : s.fLO2.toNat ≤ n.toNat * (s.fLO1.toNat - s.fLO2.toNat) + (edgeD s).toNat) :
    ∃ check, checkHarmonic s gd gc gf n = some check ∧ ∀ p, check = .found p → Found s p ∧ p.n = n := by
  obtain ⟨⟨md, hmd⟩, ma, hma⟩ := harmonics_some h hd (isEdge_edgeD h) n
  obtain ⟨⟨mc, hmc⟩, mb, hmb⟩ := harmonics_some h hc (isEdge_edgeC h) n
  obtain ⟨⟨mf, hmf⟩, me, hme⟩ := harmonics_some h hf (isEdge_edgeF h) n
  unfold checkHarmonic
  rw [hmd]
  change ∃ check, (if md ≥ s.maxH1 then _ else _) = some check ∧ _
  by_cases hmax : md ≥ s.maxH1
  · rw [if_pos hmax]
    exact ⟨.noSpur, rfl, fun p hp => Check.noConfusion hp⟩
  · have hlt : md.toNat < 15 := by
      rw [h.maxH1] at hmax
      exact Nat.lt_of_not_le hmax
    have hfound : ∀ m band, Found s ⟨n, m, band⟩ := fun m band =>
      ⟨hn, hn', hfirst, harmonicBelow_lt h hd (isEdge_edgeD h) hn hn' hmd hlt⟩
    have hspur : ∀ m band, ∃ check, some (Check.found ⟨n, m, band⟩) = some check ∧
        ∀ p, check = .found p → Found s p ∧ p.n = n := fun m band =>
      ⟨_, rfl, fun p hp => by rw [← Check.found.inj hp]; exact ⟨hfound m band, rfl⟩⟩
    have hnext : ∃ check, some Check.next = some check ∧ ∀ p, check = .found p → Found s p ∧ p.n = n :=
      ⟨_, rfl, fun p hp => Check.noConfusion hp⟩
    rw [if_neg hmax, hma, hmc, hme, hmf, hmb]
    dsimp only [Option.bind_some, Option.map_some]
    split
    · exact hnext
    · split
      · exact hspur _ _
      · split
        · exact hspur _ _
        · split
          · exact hspur _ _
          · exact hnext

/-- The loop, from a harmonic on. -/
theorem spurLoop_spec {gd gc gf : BitVec 32} (h : Fits s) (hd : IsScale s (edgeD s) gd)
    (hc : IsScale s (edgeC s) gc) (hf : IsScale s (edgeF s) gf) (fuel : ℕ) (hn : 1 ≤ n.toNat)
    (hfuel : 16 ≤ n.toNat + fuel)
    (hfirst : s.fLO2.toNat ≤ n.toNat * (s.fLO1.toNat - s.fLO2.toNat) + (edgeD s).toNat) :
    ∃ r, spurLoop s gd gc gf (fuel + 1) n = some r ∧ ∀ p, r = some p → Found s p := by
  induction fuel generalizing n with
  | zero =>
    have hgt : ¬ n ≤ s.maxH1 := by
      rw [h.maxH1]
      exact Nat.not_le_of_lt hfuel
    exact ⟨none, if_neg hgt, fun p hp => absurd hp.symm (Option.some_ne_none p)⟩
  | succ fuel ih =>
    unfold spurLoop
    by_cases hle : n ≤ s.maxH1
    · have hn' : n.toNat ≤ 15 := by
        rw [h.maxH1] at hle
        exact hle
      obtain ⟨check, hcheck, hfound⟩ := checkHarmonic_spec h hd hc hf hn hn' hfirst
      rw [if_pos hle, hcheck]
      cases check with
      | next =>
        have hsucc : (n + 1).toNat = n.toNat + 1 := by
          rw [BitVec.toNat_add]
          change (n.toNat + 1) % 2 ^ 32 = _
          omega
        refine ih (by omega) (by omega) ?_
        rw [hsucc, Nat.succ_mul]
        omega
      | noSpur => exact ⟨none, rfl, fun p hp => absurd hp.symm (Option.some_ne_none p)⟩
      | found p =>
        refine ⟨some p, rfl, fun p' hp' => ?_⟩
        rw [← Option.some.inj hp']
        exact (hfound p rfl).1
    · rw [if_neg hle]
      exact ⟨none, rfl, fun p hp => absurd hp.symm (Option.some_ne_none p)⟩

theorem firstHarmonic_spec (h : Fits s) :
    ∃ n, firstHarmonic s = some n ∧ 1 ≤ n.toNat ∧
      s.fLO2.toNat ≤ n.toNat * (s.fLO1.toNat - s.fLO2.toNat) + (edgeD s).toNat := by
  have hlo1 := h.lo1
  have hlo2 := h.lo2
  have hapart := h.apart
  have hedge := (isEdge_edgeD h).2
  have hdiff : (s.fLO1 - s.fLO2).toNat = s.fLO1.toNat - s.fLO2.toNat := by
    rw [BitVec.toNat_sub]
    omega
  have hsum : (s.fLO2 - edgeD s + (s.fLO1 - s.fLO2) - 1).toNat = s.fLO1.toNat - (edgeD s).toNat - 1 := by
    rw [BitVec.toNat_sub, BitVec.toNat_add, BitVec.toNat_sub, hdiff]
    change (2 ^ 32 - 1 + _) % 2 ^ 32 = _
    omega
  have hpos : 0 < (s.fLO1 - s.fLO2).toNat := by omega
  have hquot : (s.fLO1.toNat - (edgeD s).toNat - 1) / (s.fLO1.toNat - s.fLO2.toNat) * (s.fLO1.toNat - s.fLO2.toNat) +
      (s.fLO1.toNat - (edgeD s).toNat - 1) % (s.fLO1.toNat - s.fLO2.toNat) = s.fLO1.toNat - (edgeD s).toNat - 1 :=
    Nat.div_add_mod' _ _
  have hmod := Nat.mod_lt (s.fLO1.toNat - (edgeD s).toNat - 1) (y := s.fLO1.toNat - s.fLO2.toNat) (by omega)
  refine ⟨_, quot_of_pos hpos, ?_, ?_⟩
  · rw [BitVec.toNat_udiv, hsum, hdiff]
    exact Nat.div_pos (by omega) (by omega)
  · rw [BitVec.toNat_udiv, hsum, hdiff]
    omega

/-- **The search ends and divides by no zero.** -/
theorem findSpur_spec (h : Fits s) : ∃ r, findSpur s = some r ∧ ∀ p, r = some p → Found s p := by
  obtain ⟨gd, hgd, hd⟩ := scaleFor_spec h (isEdge_edgeD h)
  obtain ⟨gc, hgc, hc⟩ := scaleFor_spec h (isEdge_edgeC h)
  obtain ⟨gf, hgf, hf⟩ := scaleFor_spec h (isEdge_edgeF h)
  obtain ⟨n, hn, hpos, hfirst⟩ := firstHarmonic_spec h
  unfold findSpur
  rw [hgd, hgc, hgf, hn, h.maxH1]
  exact spurLoop_spec h hd hc hf 16 hpos (by omega) hfirst

/-! ## How far the first IF has to move -/

theorem toNat_ofInt_of_nonneg {z : ℤ} (h : 0 ≤ z) (hlt : z < 2 ^ 32) : ((BitVec.ofInt 32 z).toNat : ℤ) = z := by
  rw [BitVec.toNat_ofInt, Int.toNat_of_nonneg (Int.emod_nonneg _ (by decide))]
  push_cast
  exact Int.emod_eq_of_lt h hlt

theorem mul_udiv_add_umod (x scale : BitVec 32) : scale * (x / scale) + x % scale = x := by
  refine BitVec.eq_of_toNat_eq ?_
  rw [BitVec.toNat_add, BitVec.toNat_mul, BitVec.toNat_udiv, BitVec.toNat_umod, Nat.mod_add_mod, Nat.div_add_mod]
  exact Nat.mod_eq_of_lt x.isLt

/-- The difference, without what is lost when it does not fit into 32 bits. -/
theorem fSpur_eq (s : AvoidSpursData) (scale : BitVec 32) (p : Spur) :
    fSpur s scale p = BitVec.ofInt 32 (spurFreq s p) := by
  have hsplit : fSpur s scale p = p.n * (scale * (s.fLO1 / scale) + s.fLO1 % scale) -
      p.m * (scale * (s.fLO2 / scale) + s.fLO2 % scale) := by
    unfold fSpur
    ring
  unfold spurFreq
  rw [hsplit, mul_udiv_add_umod, mul_udiv_add_umod, Int.sub_eq_add_neg, BitVec.ofInt_add, BitVec.ofInt_neg,
    BitVec.ofInt_mul, BitVec.ofInt_mul, ofInt_toNat, ofInt_toNat, ofInt_toNat, ofInt_toNat, BitVec.sub_eq_add_neg]

/-- A band is at most 8 MHz wide, and its edges are small. -/
theorem edges_bounds (h : Fits s) (band : Band) :
    lowEdge s band ≤ highEdge s band ∧ highEdge s band - lowEdge s band ≤ 8000000 ∧
      -(edgeD s).toNat ≤ lowEdge s band ∧ highEdge s band ≤ (edgeD s).toNat := by
  have hc := edgeC_toNat h
  have hd := edgeD_toNat h
  have hf := edgeF_toNat h
  have hout := h.out
  have hbw := h.bw
  cases band with
  | upper =>
    dsimp only [lowEdge, highEdge]
    omega
  | zero =>
    dsimp only [lowEdge, highEdge]
    omega
  | lower =>
    dsimp only [lowEdge, highEdge]
    omega

/-- The harmonic of LO2 is higher than the one of LO1. -/
theorem lt_of_inBand (h : Fits s) (hfound : Found s p) (hin : InBand s p) : p.n.toNat < p.m.toNat := by
  have hupper := hin.2.trans (edges_bounds h p.band).2.2.2
  have hedge := (isEdge_edgeD h).2
  have hlo2 := h.lo2
  have hapart := h.apart
  have hfirst := hfound.first
  unfold spurFreq at hupper
  have hsplit : p.n.toNat * (s.fLO1.toNat - s.fLO2.toNat) = p.n.toNat * s.fLO1.toNat - p.n.toNat * s.fLO2.toNat :=
    Nat.mul_sub _ _ _
  refine not_le.mp fun hle => ?_
  have hmul : p.m.toNat * s.fLO2.toNat ≤ p.n.toNat * s.fLO2.toNat := Nat.mul_le_mul_right _ hle
  have hmul' : p.n.toNat * s.fLO2.toNat ≤ p.n.toNat * s.fLO1.toNat := Nat.mul_le_mul_left _ (by omega)
  have hcast : (p.n.toNat * s.fLO1.toNat : ℤ) - p.m.toNat * s.fLO2.toNat =
      ((p.n.toNat * s.fLO1.toNat : ℕ) : ℤ) - (p.m.toNat * s.fLO2.toNat : ℕ) := by
    push_cast
    rfl
  rw [hcast] at hupper
  omega

/-- The distances, for values that are not negative. -/
theorem distances_spec {down up : ℤ} (hlt : p.n.toNat < p.m.toNat) (hdown : 0 ≤ down) (hdown' : down ≤ 8000000)
    (hup : 0 ≤ up) (hup' : up ≤ 8000000) :
    ∃ fm fp, distances p (BitVec.ofInt 32 down) (BitVec.ofInt 32 up) = some (fm, fp) ∧
      (fm.toNat : ℤ) = down / ((p.m.toNat : ℤ) - p.n.toNat) + 1 ∧
      (fp.toNat : ℤ) = up / ((p.m.toNat : ℤ) - p.n.toNat) + 1 := by
  have hdiff : (p.m - p.n).toNat = p.m.toNat - p.n.toNat := BitVec.toNat_sub_of_le (BitVec.le_def.mpr hlt.le)
  have hpos : 0 < (p.m - p.n).toNat := by omega
  have hvalue : ∀ {z : ℤ}, 0 ≤ z → z ≤ 8000000 → ((BitVec.ofInt 32 z / (p.m - p.n) + 1).toNat : ℤ) =
      z / ((p.m.toNat : ℤ) - p.n.toNat) + 1 := by
    intro z hz hz'
    have hcast : ((p.m.toNat : ℤ) - p.n.toNat) = ((p.m - p.n).toNat : ℤ) := by omega
    have hz₁ := toNat_ofInt_of_nonneg hz (by omega)
    have hle : (BitVec.ofInt 32 z).toNat / (p.m - p.n).toNat ≤ (BitVec.ofInt 32 z).toNat := Nat.div_le_self _ _
    have hone : ((1 : BitVec 32)).toNat = 1 := rfl
    rw [BitVec.toNat_add, BitVec.toNat_udiv, hone, Nat.mod_eq_of_lt (by omega), hcast]
    push_cast
    rw [hz₁]
  unfold distances
  rw [quot_of_pos hpos, quot_of_pos hpos]
  exact ⟨_, _, rfl, hvalue hdown hdown', hvalue hup hup'⟩

/-- What is found for a spur in the band: its distances, and the range that is excluded for it. -/
structure Distances (s : AvoidSpursData) (p : Spur) (fm fp : BitVec 32) : Prop where
  found : Found s p
  inBand : InBand s p
  fm : (fm.toNat : ℤ) = (highEdge s p.band - spurFreq s p) / ((p.m.toNat : ℤ) - p.n.toNat) + 1
  fp : (fp.toNat : ℤ) = (spurFreq s p - lowEdge s p.band) / ((p.m.toNat : ℤ) - p.n.toNat) + 1

theorem ofInt_toNat_sub (x : BitVec 32) (z : ℤ) : BitVec.ofInt 32 (x.toNat - z) = x - BitVec.ofInt 32 z := by
  rw [Int.sub_eq_add_neg, BitVec.ofInt_add, BitVec.ofInt_neg, ofInt_toNat, BitVec.sub_eq_add_neg]

theorem ofInt_sub_toNat (z : ℤ) (x : BitVec 32) : BitVec.ofInt 32 (z - x.toNat) = BitVec.ofInt 32 z - x := by
  rw [Int.sub_eq_add_neg, BitVec.ofInt_add, BitVec.ofInt_neg, ofInt_toNat, BitVec.sub_eq_add_neg]

theorem ofInt_sub_neg (z : ℤ) (x : BitVec 32) : BitVec.ofInt 32 (z - -x.toNat) = BitVec.ofInt 32 z + x := by
  rw [sub_neg_eq_add, BitVec.ofInt_add, ofInt_toNat]

/-- **The distances for harmonics in the band** are the least ones that take the difference out of it, when a first IF
that is higher by one makes the difference lower by `m - n`. -/
theorem moves_spec (h : Fits s) (hfound : Found s p) (hin : InBand s p) :
    ∃ y, moves s p = some y ∧ Distances s p y.1 y.2 := by
  have hlt := lt_of_inBand h hfound hin
  obtain ⟨gc, hgc, -⟩ := scaleFor_spec h (isEdge_edgeC h)
  obtain ⟨gf, hgf, -⟩ := scaleFor_spec h (isEdge_edgeF h)
  obtain ⟨-, hwidth, -⟩ := edges_bounds h p.band
  obtain ⟨fm, fp, hdist, hfm, hfp⟩ :=
    distances_spec hlt (sub_nonneg.mpr hin.2) (by have := hin.1; omega) (sub_nonneg.mpr hin.1) (by have := hin.2; omega)
  refine ⟨(fm, fp), ?_, hfound, hin, hfm, hfp⟩
  unfold moves
  obtain ⟨n, m, band⟩ := p
  cases band with
  | upper =>
    dsimp only
    rw [hgc, Option.bind_some, fSpur_eq, ← ofInt_toNat_sub, ← ofInt_sub_toNat]
    exact hdist
  | zero =>
    dsimp only
    rw [hgf, Option.bind_some, fSpur_eq, ← ofInt_toNat_sub, ← ofInt_sub_neg]
    exact hdist
  | lower =>
    dsimp only
    rw [hgc, Option.bind_some, fSpur_eq, BitVec.add_comm (edgeD s), ← ofInt_sub_neg, ← ofInt_sub_neg,
      ← BitVec.ofInt_neg, neg_sub]
    exact hdist

/-- **`IsSpurInBand`** divides by no zero when the harmonics that it finds are in the band. -/
theorem isSpurInBand_spec (h : Fits s) (hin : ∀ p, findSpur s = some (some p) → InBand s p) :
    isSpurInBand s = some none ∨ ∃ p y, isSpurInBand s = some (some y) ∧ Distances s p y.1 y.2 := by
  obtain ⟨r, hr, hfound⟩ := findSpur_spec h
  unfold isSpurInBand
  rw [hr]
  cases r with
  | none => exact .inl rfl
  | some p =>
    obtain ⟨y, hmoves, hdist⟩ := moves_spec h (hfound p rfl) (hin p hr)
    refine .inr ⟨p, y, ?_, hdist⟩
    dsimp only [Option.bind_some]
    rw [hmoves]
    rfl

/-! ## Two frequencies of the first IF -/

/-- The points where a difference that falls by `k` with each step is in a band. -/
theorem inBand_iff_near {lo hi x k : ℤ} (hk : 0 < k) (t : ℤ) :
    (lo ≤ x - k * t ∧ x - k * t ≤ hi) ↔ (-((hi - x) / k + 1) < t ∧ t < (x - lo) / k + 1) := by
  rw [and_comm]
  refine and_congr ?_ ?_
  · have hle : x - k * t ≤ hi ↔ -t ≤ (hi - x) / k := by
      rw [Int.le_ediv_iff_mul_le hk, neg_mul, mul_comm t k]
      omega
    omega
  · have hle : lo ≤ x - k * t ↔ t ≤ (x - lo) / k := by
      rw [Int.le_ediv_iff_mul_le hk, mul_comm t k]
      omega
    omega

/-- The oscillators of two states are apart by the same distance, and both are near the center of the filter. -/
structure Near (s s' : AvoidSpursData) : Prop where
  same : s'.fOut = s.fOut ∧ s'.fOutBw = s.fOutBw ∧ s'.fZifBw = s.fZifBw
  apart : (s'.fLO1.toNat : ℤ) - s'.fLO2.toNat = s.fLO1.toNat - s.fLO2.toNat
  apart_le : (s.fLO1.toNat : ℤ) - s.fLO2.toNat ≤ 1200000000
  near : |(s'.fLO2.toNat : ℤ) - s.fLO2.toNat| ≤ 22000000
  high : 1200000000 ≤ s.fLO2.toNat ∧ 1200000000 ≤ s'.fLO2.toNat

variable {s' : AvoidSpursData} {p' : Spur}

theorem Near.symm (h : Near s s') : Near s' s :=
  ⟨⟨h.same.1.symm, h.same.2.1.symm, h.same.2.2.symm⟩, h.apart.symm, h.apart.trans_le h.apart_le,
    (abs_sub_comm _ _).trans_le h.near, h.high.symm⟩

theorem Near.edges (h : Near s s') : edgeD s' = edgeD s ∧ edgeC s' = edgeC s ∧ edgeF s' = edgeF s := by
  obtain ⟨hout, hbw, hzif⟩ := h.same
  unfold edgeC edgeD edgeF
  rw [hout, hbw, hzif]
  exact ⟨rfl, rfl, rfl⟩

theorem Near.bands (h : Near s s') (band : Band) : lowEdge s' band = lowEdge s band ∧
    highEdge s' band = highEdge s band := by
  obtain ⟨hd, hc, hf⟩ := h.edges
  unfold lowEdge highEdge
  rw [hd, hc, hf]
  exact ⟨rfl, rfl⟩

/-- **The harmonics of LO1 that spurs are found for** are less than ten apart. -/
theorem Near.n_lt (h : Near s s') (hfit : Fits s) (hfound : Found s p) (hfound' : Found s' p') :
    p'.n.toNat < p.n.toNat + 10 := by
  have hedge := (isEdge_edgeD hfit).2
  have happroach := hfit.apart
  have hd := h.edges.1
  have hpos := hfound.pos
  have hle := hfound'.le
  have hfirst := hfound.first
  have hlast := hfound'.last
  obtain ⟨hnear, hnear'⟩ := abs_le.mp h.near
  have hhigh := h.high
  have hsame := h.apart
  rw [hd] at hlast
  refine not_le.mp fun hge => ?_
  have hmul : (p.n.toNat + 10) * s'.fLO1.toNat ≤ p'.n.toNat * s'.fLO1.toNat := Nat.mul_le_mul_right _ hge
  have hn : p.n.toNat ≤ 5 := by omega
  generalize p.n.toNat = n at hpos hfirst hmul hn
  interval_cases n <;> omega

/-- In a band, the harmonics of LO2 are not far above those of LO1. -/
theorem m_sub_n_le (hfit : Fits s) (hfound : Found s p) (hin : InBand s p) (hhigh : 1200000000 ≤ s.fLO2.toNat)
    (hapart : (s.fLO1.toNat : ℤ) - s.fLO2.toNat ≤ 1200000000) : (p.m.toNat : ℤ) - p.n.toNat ≤ 15 := by
  have hlower := hin.1
  have hedges := (edges_bounds hfit p.band).2.2.1
  have hedge := (isEdge_edgeD hfit).2
  have hle := hfound.le
  unfold spurFreq at hlower
  have hsplit : (p.n.toNat : ℤ) * s.fLO1.toNat - p.m.toNat * s.fLO2.toNat =
      p.n.toNat * ((s.fLO1.toNat : ℤ) - s.fLO2.toNat) - ((p.m.toNat : ℤ) - p.n.toNat) * s.fLO2.toNat := by ring
  rw [hsplit] at hlower
  have hmul : (p.n.toNat : ℤ) * ((s.fLO1.toNat : ℤ) - s.fLO2.toNat) ≤ 15 * 1200000000 :=
    mul_le_mul (by exact_mod_cast hle) hapart (by have := hfit.apart; omega) (by decide)
  refine not_lt.mp fun hlt => ?_
  have hmul' : 16 * (s.fLO2.toNat : ℤ) ≤ ((p.m.toNat : ℤ) - p.n.toNat) * s.fLO2.toNat :=
    mul_le_mul_of_nonneg_right (by omega) (Int.natCast_nonneg _)
  omega

theorem Near.spurFreq_eq (h : Near s s') (hn : p'.n = p.n) : spurFreq s' p' = spurFreq s p -
    ((p.m.toNat : ℤ) - p.n.toNat) * ((s'.fLO2.toNat : ℤ) - s.fLO2.toNat) -
    ((p'.m.toNat : ℤ) - p.m.toNat) * s'.fLO2.toNat := by
  have happ : (s'.fLO1.toNat : ℤ) = s.fLO1.toNat + ((s'.fLO2.toNat : ℤ) - s.fLO2.toNat) := by
    have := h.apart
    omega
  unfold spurFreq
  rw [hn, happ]
  ring

theorem Near.m_le (h : Near s s') (hfit : Fits s) (hfound : Found s p) (hin : InBand s p) (hin' : InBand s' p')
    (hn : p'.n = p.n) (hband : p'.band = p.band) : p'.m.toNat ≤ p.m.toNat := by
  have hlt := lt_of_inBand hfit hfound hin
  have hle := m_sub_n_le hfit hfound hin h.high.1 h.apart_le
  obtain ⟨hlow, hhigh⟩ := h.bands p.band
  obtain ⟨-, hwidth, -⟩ := edges_bounds hfit p.band
  have hupper := hin.2
  have hlower' := hin'.1
  have hhigh' := h.high.2
  rw [hband, hlow, h.spurFreq_eq hn] at hlower'
  have hshift : |((p.m.toNat : ℤ) - p.n.toNat) * ((s'.fLO2.toNat : ℤ) - s.fLO2.toNat)| ≤ 15 * 22000000 := by
    rw [abs_mul, abs_of_nonneg (by omega)]
    exact mul_le_mul hle h.near (abs_nonneg _) (by decide)
  have hshift' := (abs_le.mp hshift).1
  refine not_lt.mp fun hgt => ?_
  have hmul : 1 * (s'.fLO2.toNat : ℤ) ≤ ((p'.m.toNat : ℤ) - p.m.toNat) * s'.fLO2.toNat :=
    mul_le_mul_of_nonneg_right (by omega) (Int.natCast_nonneg _)
  omega

/-- **One harmonic of LO1 has spurs in a band with one harmonic of LO2 only.** -/
theorem Near.m_eq (h : Near s s') (hfit : Fits s) (hfit' : Fits s') (hfound : Found s p) (hfound' : Found s' p')
    (hin : InBand s p) (hin' : InBand s' p') (hn : p'.n = p.n) (hband : p'.band = p.band) : p' = p := by
  have hm : p'.m.toNat = p.m.toNat :=
    le_antisymm (h.m_le hfit hfound hin hin' hn hband) (h.symm.m_le hfit' hfound' hin' hin hn.symm hband.symm)
  obtain ⟨n, m, band⟩ := p
  obtain ⟨n', m', band'⟩ := p'
  obtain rfl : n' = n := hn
  obtain rfl : band' = band := hband
  obtain rfl : m' = m := BitVec.eq_of_toNat_eq hm
  rfl

/-- **Harmonics that are in the band for two frequencies**: the second one is strictly within the range that is
excluded for the first one. -/
theorem Near.excluded (h : Near s s') (hfit : Fits s) (hfound : Found s p) (hin : InBand s p) (hin' : InBand s' p) :
    -((highEdge s p.band - spurFreq s p) / ((p.m.toNat : ℤ) - p.n.toNat) + 1) <
        (s'.fLO2.toNat : ℤ) - s.fLO2.toNat ∧
      (s'.fLO2.toNat : ℤ) - s.fLO2.toNat <
        (spurFreq s p - lowEdge s p.band) / ((p.m.toNat : ℤ) - p.n.toNat) + 1 := by
  have hlt := lt_of_inBand hfit hfound hin
  obtain ⟨hlow, hhigh⟩ := h.bands p.band
  have hfreq := h.spurFreq_eq (rfl : p.n = p.n)
  rw [sub_self, zero_mul, sub_zero] at hfreq
  unfold InBand at hin'
  rw [hlow, hhigh, hfreq] at hin'
  exact (inBand_iff_near (by omega) _).mp hin'

end Mt2063
end TbsMedia
