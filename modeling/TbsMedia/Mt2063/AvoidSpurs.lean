import Mathlib
import TbsMedia.Mt2063.SpurInBand

/-!
# The avoidance of spurs

`MT2063_AvoidSpurs` excludes a range around the first IF as long as there is a spur in the band, and takes the next
first IF that is not excluded.

* `chooseLOs`: the frequencies of the oscillators, as `MT2063_Tune` chooses them before.
* `avoidSpurs`: the function.
* `Searching.turn`: what a turn of its loop does.
* `endsWell_of_inBand`: it ends, if the harmonics that `IsSpurInBand` finds are in the band.
* `not_endsWell`: frequencies for which it does not.
* `avoidSpurs_outcome`: what it leaves, when it ends.

A turn moves both oscillators by the same amount, so their difference, on which the harmonics of a spur depend, is that
of the start (`Tuned.turn`, `Tuned.sameChannel`).  A spur that really is in the band makes `fm` and `fp` such that the
range around the first IF covers every first IF for which the same harmonic meets the same part of the band again.
The next first IF is in no zone, so the pair of harmonic and part that is found for it is a new one (`Tuned.not_seen`).
The harmonics of a channel are less than ten apart, which makes at most 30 pairs: that bounds the turns and, with the 16
zones from before the search, the nodes (`length_seen_le`, `avoidLoop_spec`).  Where what is found is not in the band,
the range need not cover the first IF, and `not_endsWell` turns on the spot.
-/

namespace TbsMedia
namespace Mt2063

open Lib Lib.LinkedList Lib.OpenIntervals

/-! ## The functions -/

def MT2063_SPUR_PRESENT_ERR : BitVec 32 := 0x00800000
def MT2063_SPUR_CNT_MASK : BitVec 32 := 0x001f0000
def MT2063_SPUR_SHIFT : ℕ := 16

/-- `MT2063_Round_fLO`; `none` if it divides by zero. -/
def roundFLO (fLO fLOStep fRef : BitVec 32) : Option (BitVec 32) :=
  (quot fLO fRef).bind fun q =>
    (quot (fLO % fRef + fLOStep / 2) fLOStep).map fun k => fRef * q + fLOStep * k

/-- The part of `MT2063_Tune` before `MT2063_AvoidSpurs`: the exclusion zones, and the frequencies of the oscillators.
`none` if it divides by zero, or if there is no node for a zone. -/
def chooseLOs (s : AvoidSpursData) (fIn : BitVec 32) : Option AvoidSpursData :=
  (roundFLO (s.fIf1Request + fIn) s.fLO1Step s.fRef).bind fun request =>
    (resetExclZones { s with fIn := fIn, fIf1Request := request - fIn }).bind fun s =>
      (chooseFirstIf s).bind fun fIF1 =>
        (roundFLO (fIF1 + fIn) s.fLO1Step s.fRef).bind fun fLO1 =>
          (roundFLO (fLO1 - s.fOut - fIn) s.fLO2Step s.fRef).map fun fLO2 => { s with fLO1 := fLO1, fLO2 := fLO2 }

/-- A range is excluded, and the next first IF is chosen; `none` if there is no node for the range. -/
def turn (s : AvoidSpursData) (zfIF1 fm fp : BitVec 32) : Option (AvoidSpursData × BitVec 32) :=
  (addExclZone { s with nSpursFound := s.nSpursFound + 1 } (zfIF1 - fm) (zfIF1 + fp)).bind fun s =>
    (chooseFirstIf s).map fun newIF1 =>
      (if newIF1 > zfIF1 then
          { s with fLO1 := s.fLO1 + (newIF1 - zfIF1), fLO2 := s.fLO2 + (newIF1 - zfIF1) }
        else { s with fLO1 := s.fLO1 - (zfIF1 - newIF1), fLO2 := s.fLO2 - (zfIF1 - newIF1) }, newIF1)

/-- `delta_IF1`. -/
def deltaIF1 (s : AvoidSpursData) (zfIF1 : BitVec 32) : BitVec 32 :=
  if zfIF1 > s.fIf1Center then zfIF1 - s.fIf1Center else s.fIf1Center - zfIF1

/-- The band is within the first IF filter. -/
def WithinFilter (s : AvoidSpursData) (zfIF1 : BitVec 32) : Prop := 2 * deltaIF1 s zfIF1 + s.fOutBw ≤ s.fIf1Bw

instance (s : AvoidSpursData) (zfIF1 : BitVec 32) : Decidable (WithinFilter s zfIF1) :=
  inferInstanceAs (Decidable (_ ≤ _))

/-- The loop; `none` if a turn or `IsSpurInBand` fails, or if it does not end within `fuel` turns. -/
def avoidLoop : ℕ → AvoidSpursData → BitVec 32 → BitVec 32 → BitVec 32 → Option AvoidSpursData
  | 0, _, _, _, _ => none
  | fuel + 1, s, zfIF1, fm, fp =>
    (turn s zfIF1 fm fp).bind fun x =>
      (isSpurInBand x.1).bind fun r =>
        match r with
        | none => some { x.1 with bSpurPresent := 0 }
        | some y =>
          if WithinFilter x.1 x.2 then avoidLoop fuel { x.1 with bSpurPresent := 1 } x.2 y.1 y.2
          else some { x.1 with bSpurPresent := 1 }

/-- The number of spurs, as it is returned. -/
def spurCount (s : AvoidSpursData) : BitVec 32 := (s.nSpursFound <<< MT2063_SPUR_SHIFT) &&& MT2063_SPUR_CNT_MASK

/-- What follows the loop. -/
def finish (s : AvoidSpursData) (fLO1 fLO2 : BitVec 32) : AvoidSpursData × BitVec 32 :=
  if s.bSpurPresent = 1 then ({ s with fLO1 := fLO1, fLO2 := fLO2 }, MT2063_SPUR_PRESENT_ERR ||| spurCount s)
  else ({ s with bSpurAvoided := 1 }, spurCount s)

def clearFound (s : AvoidSpursData) : AvoidSpursData := { s with bSpurAvoided := 0, nSpursFound := 0 }

/-- `MT2063_AvoidSpurs`; `none` if it fails, or does not end within `fuel` turns. -/
def avoidSpurs (fuel : ℕ) (s : AvoidSpursData) : Option (AvoidSpursData × BitVec 32) :=
  if s.maxH1 = 0 then some (clearFound s, 0)
  else
    (isSpurInBand (clearFound s)).bind fun r =>
      match r with
      | none => some ({ clearFound s with bSpurPresent := 0 }, 0)
      | some y =>
        (avoidLoop fuel { clearFound s with bSpurPresent := 1 } (s.fLO1 - s.fIn) y.1 y.2).map fun s' =>
          finish s' s.fLO1 s.fLO2

/-- The states in which the loop calls `IsSpurInBand`. -/
def loopCalls : ℕ → AvoidSpursData → BitVec 32 → BitVec 32 → BitVec 32 → List AvoidSpursData
  | 0, _, _, _, _ => []
  | fuel + 1, s, zfIF1, fm, fp =>
    match turn s zfIF1 fm fp with
    | none => []
    | some x =>
      match isSpurInBand x.1 with
      | some (some y) =>
        if WithinFilter x.1 x.2 then x.1 :: loopCalls fuel { x.1 with bSpurPresent := 1 } x.2 y.1 y.2 else [x.1]
      | _ => [x.1]

/-- The states in which `MT2063_AvoidSpurs` calls `IsSpurInBand`. -/
def spurCalls (fuel : ℕ) (s : AvoidSpursData) : List AvoidSpursData :=
  match isSpurInBand (clearFound s) with
  | some (some y) =>
    clearFound s :: loopCalls fuel { clearFound s with bSpurPresent := 1 } (s.fLO1 - s.fIn) y.1 y.2
  | _ => [clearFound s]

/-- What the search for spurs finds is in the band. -/
def ReportsInBand (s : AvoidSpursData) : Prop := ∀ p, findSpur s = some (some p) → InBand s p

/-- The avoidance of spurs ends, without a division by zero and with nodes for all the zones; the oscillators are
apart by the same distance as before, and unchanged if a spur is left. -/
def EndsWell (s : AvoidSpursData) : Prop :=
  ∃ fuel s' status, avoidSpurs fuel s = some (s', status) ∧ s'.fLO1 - s'.fLO2 = s.fLO1 - s.fLO2 ∧
    (status &&& MT2063_SPUR_PRESENT_ERR ≠ 0 → s'.fLO1 = s.fLO1 ∧ s'.fLO2 = s.fLO2)

/-! ## Zones for ranges -/

variable {s : AvoidSpursData} {accepted calls : List (BitVec 32 × BitVec 32)} {used free : List ℕ}
  {fMin fMax : BitVec 32} {r : BitVec 32 × BitVec 32}

/-- The ranges that overlap the first IF filter. -/
def acceptedOf (s : AvoidSpursData) (calls : List (BitVec 32 × BitVec 32)) : List (BitVec 32 × BitVec 32) :=
  calls.filter fun r => decide (Accepts s r.1 r.2)

theorem acceptedOf_append (l l' : List (BitVec 32 × BitVec 32)) :
    acceptedOf s (l ++ l') = acceptedOf s l ++ acceptedOf s l' := List.filter_append l l'

theorem acceptedOf_eq_nil (h : ∀ r ∈ calls, ¬ Accepts s r.1 r.2) : acceptedOf s calls = [] :=
  List.filter_eq_nil_iff.mpr fun r hr hacc => h r hr (of_decide_eq_true hacc)

theorem mem_acceptedOf : r ∈ acceptedOf s calls ↔ r ∈ calls ∧ Accepts s r.1 r.2 := by
  unfold acceptedOf
  rw [List.mem_filter, decide_eq_true_iff]

theorem length_acceptedOf_le (s : AvoidSpursData) (calls : List (BitVec 32 × BitVec 32)) :
    (acceptedOf s calls).length ≤ calls.length := List.length_filter_le _ _

/-- A range is added while there are nodes left. -/
theorem addExclZone_room (h : Held s accepted used free) (fMin fMax : BitVec 32)
    (hroom : used.length + (acceptedOf s [(fMin, fMax)]).length ≤ MT2063_MAX_ZONES) :
    ∃ z used' free', addExclZone s fMin fMax = some { s with toZoneLists := z } ∧
      Held { s with toZoneLists := z } (acceptedOf s [(fMin, fMax)] ++ accepted) used' free' ∧
      used'.length ≤ used.length + (acceptedOf s [(fMin, fMax)]).length := by
  by_cases haccepts : Accepts s fMin fMax
  · have hlist : acceptedOf s [(fMin, fMax)] = [(fMin, fMax)] :=
      List.filter_cons_of_pos (decide_eq_true haccepts)
    rw [hlist] at hroom ⊢
    rcases addExclZone_spec h fMin fMax with ⟨-, hfull⟩ | ⟨z, used', free', hadd, hheld, hmap⟩
    · rw [hfull] at hroom
      exact absurd hroom (Nat.not_succ_le_self _)
    · rw [if_pos haccepts] at hheld hmap
      refine ⟨z, used', free', hadd, hheld, ?_⟩
      have hlength := congrArg List.length hmap
      rw [List.length_map] at hlength
      rw [hlength]
      refine (length_insert_le _ _).trans (le_of_eq ?_)
      rw [List.length_map]
      rfl
  · rw [acceptedOf_eq_nil fun r hr => by rwa [List.mem_singleton.mp hr]]
    exact ⟨s.toZoneLists, used, free, if_neg haccepts, h, le_rfl⟩

/-- Several ranges are added while there are nodes left. -/
theorem addRanges_room (h : Held s accepted used free)
    (hroom : used.length + (acceptedOf s calls).length ≤ MT2063_MAX_ZONES) :
    ∃ z accepted' used' free', run addRange s calls = some { s with toZoneLists := z } ∧
      Held { s with toZoneLists := z } accepted' used' free' ∧
      used'.length ≤ used.length + (acceptedOf s calls).length ∧
      ∀ r ∈ accepted', r ∈ accepted ∨ r ∈ acceptedOf s calls := by
  induction calls generalizing s accepted used free with
  | nil => exact ⟨s.toZoneLists, accepted, used, free, rfl, h, le_rfl, fun r hr => .inl hr⟩
  | cons c calls ih =>
    have hsplit : acceptedOf s (c :: calls) = acceptedOf s [c] ++ acceptedOf s calls := acceptedOf_append [c] calls
    rw [hsplit, List.length_append] at hroom
    obtain ⟨z, used₁, free₁, hadd, hheld, hlength⟩ := addExclZone_room h c.1 c.2
      ((Nat.le_add_right _ _).trans ((Nat.add_assoc _ _ _).trans_le hroom))
    have hrest : used₁.length + (acceptedOf { s with toZoneLists := z } calls).length ≤ MT2063_MAX_ZONES := by
      change used₁.length + (acceptedOf s calls).length ≤ _
      change used₁.length ≤ used.length + (acceptedOf s [c]).length at hlength
      omega
    obtain ⟨z', accepted', used', free', hrun, hheld', hlength', hmem⟩ := ih hheld hrest
    refine ⟨z', accepted', used', free', ?_, hheld', ?_, fun r hr => ?_⟩
    · exact (congrArg (fun o => Option.bind o fun u => run addRange u calls) hadd).trans hrun
    · rw [hsplit, List.length_append]
      change used'.length ≤ used₁.length + (acceptedOf s calls).length at hlength'
      change used₁.length ≤ used.length + (acceptedOf s [c]).length at hlength
      omega
    · rw [hsplit, List.mem_append]
      rcases hmem r hr with hr | hr
      · rcases List.mem_append.mp hr with hr | hr
        · exact .inr (.inl hr)
        · exact .inl hr
      · exact .inr (.inr hr)

/-! ## The zones before the search -/

/-- The settings of the driver, and the output that `MT2063_Tune` accepts. -/
structure Settings (s : AvoidSpursData) : Prop where
  fRef : s.fRef = 16000000
  center : 1280000000 ≤ s.fIf1Center.toNat ∧ s.fIf1Center.toNat ≤ 1790000000
  if1Bw : s.fIf1Bw = 22000000
  zif : s.fZifBw = 2000000
  lo1Step : s.fLO1Step = 250000
  lo2Step : s.fLO2Step = 50000 ∨ s.fLO2Step = 125000
  maxH1 : s.maxH1 = 15
  avoid1 : s.fLO1FracNAvoid = 0
  avoid2 : s.fLO2FracNAvoid = 199999
  dect : s.avoidDECT = 3
  out : 36000000 ≤ s.fOut.toNat ∧ s.fOut.toNat ≤ 57000000
  bw : s.fOutBw.toNat ≤ 8000000

/-- An input frequency that `MT2063_Tune` accepts. -/
def IsInput (fIn : BitVec 32) : Prop := 44000000 ≤ fIn.toNat ∧ fIn.toNat ≤ 1100000000

/-- The settings do not depend on what changes from channel to channel. -/
theorem Settings.update (h : Settings s) (z : ZoneLists) (fIn request fLO1 fLO2 present avoided found : BitVec 32) :
    Settings { s with
      toZoneLists := z, fIn := fIn, fIf1Request := request, fLO1 := fLO1, fLO2 := fLO2
      bSpurPresent := present, bSpurAvoided := avoided, nSpursFound := found } :=
  ⟨h.fRef, h.center, h.if1Bw, h.zif, h.lo1Step, h.lo2Step, h.maxH1, h.avoid1, h.avoid2, h.dect, h.out, h.bw⟩

theorem Settings.filter (h : Settings s) : (s.fIf1Center - s.fIf1Bw / 2).toNat = s.fIf1Center.toNat - 11000000 ∧
    (s.fIf1Center + s.fIf1Bw / 2).toNat = s.fIf1Center.toNat + 11000000 := by
  have hcenter := h.center
  have hbw : (s.fIf1Bw / 2).toNat = 11000000 := by
    rw [h.if1Bw]
    decide
  rw [BitVec.toNat_sub, BitVec.toNat_add, hbw]
  omega

/-- A range that is accepted overlaps the filter. -/
theorem Settings.accepts (h : Settings s) : Accepts s fMin fMax ↔
    s.fIf1Center.toNat < fMax.toNat + 11000000 ∧ fMin.toNat < s.fIf1Center.toNat + 11000000 ∧
      fMin.toNat < fMax.toNat := by
  obtain ⟨hlow, hhigh⟩ := h.filter
  have hcenter := h.center
  unfold Accepts
  rw [gt_iff_lt, BitVec.lt_def, BitVec.lt_def, BitVec.lt_def, hlow, hhigh]
  omega

/-- A range is near the center of the filter. -/
def NearCenter (s : AvoidSpursData) (r : BitVec 32 × BitVec 32) : Prop :=
  s.fIf1Center.toNat ≤ r.1.toNat + 19000002 ∧ r.2.toNat ≤ s.fIf1Center.toNat + 19000002

theorem Settings.nearCenter (h : Settings s) (hr : Accepts s r.1 r.2) (hwidth : r.2.toNat ≤ r.1.toNat + 8000002) :
    NearCenter s r := by
  obtain ⟨hlow, hhigh, -⟩ := h.accepts.mp hr
  unfold NearCenter
  omega

/-- The calls for centers that are `f_ref` apart. -/
theorem fracNCalls_spec (fracNAvoid limit fRef : BitVec 32) (k fuel : ℕ) (center : BitVec 32) (hfuel : k < fuel)
    (hlimit : limit.toNat ≤ center.toNat + k * fRef.toNat) (hbound : center.toNat + k * fRef.toNat < 2 ^ 32) :
    ∃ calls, fracNCalls fracNAvoid limit fRef fuel center = some calls ∧ calls.length ≤ 2 * k ∧
      ∀ r ∈ calls, ∃ x : BitVec 32, center.toNat ≤ x.toNat ∧ x.toNat < limit.toNat ∧
        (r = (x - fracNAvoid, x - 1) ∨ r = (x + 1, x + fracNAvoid)) := by
  obtain ⟨fuel, rfl⟩ : ∃ n, fuel = n + 1 := ⟨fuel - 1, by omega⟩
  induction k generalizing center fuel with
  | zero =>
    have hnot : ¬ center < limit := by
      rw [Nat.zero_mul, Nat.add_zero] at hlimit
      exact Nat.not_lt_of_le hlimit
    exact ⟨[], if_neg hnot, le_rfl, fun r hr => absurd hr List.not_mem_nil⟩
  | succ k ih =>
    unfold fracNCalls
    by_cases hlt : center < limit
    · rw [Nat.succ_mul] at hlimit hbound
      have hnext : (center + fRef).toNat = center.toNat + fRef.toNat := by
        rw [BitVec.toNat_add]
        exact Nat.mod_eq_of_lt (by omega)
      obtain ⟨fuel, rfl⟩ : ∃ n, fuel = n + 1 := ⟨fuel - 1, by omega⟩
      obtain ⟨calls, hcalls, hlength, hmem⟩ := ih (center + fRef) (by omega) (by omega) fuel (by omega)
      rw [if_pos hlt, hcalls]
      refine ⟨_, rfl, ?_, fun r hr => ?_⟩
      · rw [List.length_cons, List.length_cons]
        omega
      · rcases List.mem_cons.mp hr with rfl | hr
        · exact ⟨center, le_rfl, hlt, .inl rfl⟩
        · rcases List.mem_cons.mp hr with rfl | hr
          · exact ⟨center, le_rfl, hlt, .inr rfl⟩
          · obtain ⟨x, hx, hx'⟩ := hmem r hr
            exact ⟨x, by omega, hx'⟩
    · rw [if_neg hlt]
      exact ⟨[], rfl, Nat.zero_le _, fun r hr => absurd hr List.not_mem_nil⟩

theorem usDect_bounds : ∀ r ∈ usDect, 1920836000 ≤ r.1.toNat ∧ r.2.toNat = r.1.toNat + 1400000 := by
  simp [usDect]

theorem euroDect_bounds :
    ∀ r ∈ euroDect, 1881092000 ≤ r.1.toNat ∧ r.2.toNat = r.1.toNat + 1400000 ∧ r.2.toNat ≤ 1898044000 := by
  simp [euroDect]

/-- **The DECT channels of one continent at most** overlap the filter. -/
theorem Settings.dect_room (h : Settings s) (hin : IsInput s.fIn) :
    (acceptedOf s (dectCalls s)).length ≤ 10 ∧ ∀ r ∈ acceptedOf s (dectCalls s), NearCenter s r := by
  have hsplit : dectCalls s = usDect.map (fun x => (x.1 - s.fIn, x.2 - s.fIn)) ++
      euroDect.map fun x => (x.1 - s.fIn, x.2 - s.fIn) := by
    unfold dectCalls
    rw [h.dect, if_pos (by decide), if_pos (by decide), List.map_append]
  have hsub : ∀ x : BitVec 32, 1881092000 ≤ x.toNat → (x - s.fIn).toNat = x.toNat - s.fIn.toNat := fun x hx =>
    BitVec.toNat_sub_of_le (BitVec.le_def.mpr (hin.2.trans (by omega)))
  have hus : ∀ r ∈ usDect, Accepts s (r.1 - s.fIn) (r.2 - s.fIn) → 1909836000 < s.fIf1Center.toNat + s.fIn.toNat := by
    intro r hr haccepts
    obtain ⟨-, hhigh, -⟩ := h.accepts.mp haccepts
    obtain ⟨hlow, -⟩ := usDect_bounds r hr
    rw [hsub r.1 (by omega)] at hhigh
    omega
  have heuro : ∀ r ∈ euroDect, Accepts s (r.1 - s.fIn) (r.2 - s.fIn) →
      s.fIf1Center.toNat + s.fIn.toNat < 1909044000 := by
    intro r hr haccepts
    obtain ⟨hlow, -, -⟩ := h.accepts.mp haccepts
    obtain ⟨hmin, hmax, hmax'⟩ := euroDect_bounds r hr
    have hin' := hin.2
    rw [hsub r.2 (by omega)] at hlow
    omega
  rw [hsplit]
  constructor
  · rw [acceptedOf_append, List.length_append]
    have hle : ∀ l : List (BitVec 32 × BitVec 32), l.length ≤ 10 →
        (acceptedOf s (l.map fun x => (x.1 - s.fIn, x.2 - s.fIn))).length ≤ 10 := fun l hl =>
      (length_acceptedOf_le s _).trans (by rwa [List.length_map])
    by_cases hcenter : s.fIf1Center.toNat + s.fIn.toNat < 1909044000
    · rw [acceptedOf_eq_nil (List.forall_mem_map.mpr fun x hx hacc => by have := hus x hx hacc; omega),
        List.length_nil, Nat.zero_add]
      exact hle euroDect (by decide)
    · have hnone : acceptedOf s (euroDect.map fun x => (x.1 - s.fIn, x.2 - s.fIn)) = [] :=
        acceptedOf_eq_nil (List.forall_mem_map.mpr fun x hx hacc => hcenter (heuro x hx hacc))
      rw [hnone, List.length_nil, Nat.add_zero]
      exact hle usDect (by decide)
  · intro r hr
    obtain ⟨hr, hacc⟩ := mem_acceptedOf.mp hr
    refine h.nearCenter hacc ?_
    rcases List.mem_append.mp hr with hr | hr
    · obtain ⟨x, hx, rfl⟩ := List.mem_map.mp hr
      obtain ⟨hlow, hwidth⟩ := usDect_bounds x hx
      rw [hsub x.1 (by omega), hsub x.2 (by omega)]
      omega
    · obtain ⟨x, hx, rfl⟩ := List.mem_map.mp hr
      obtain ⟨hlow, hwidth, -⟩ := euroDect_bounds x hx
      rw [hsub x.1 (by omega), hsub x.2 (by omega)]
      omega

theorem toNat_mul_div (d x : BitVec 32) : (d * (x / d)).toNat = d.toNat * (x.toNat / d.toNat) := by
  rw [BitVec.toNat_mul, BitVec.toNat_udiv]
  exact Nat.mod_eq_of_lt ((Nat.mul_div_le _ _).trans_lt x.isLt)

/-- **Before the search, at most 16 ranges are accepted**, all of them near the center of the filter. -/
theorem Settings.reset_room (h : Settings s) (hin : IsInput s.fIn) :
    ∃ calls, resetCalls s = some calls ∧ (acceptedOf s calls).length ≤ 16 ∧
      ∀ r ∈ acceptedOf s calls, NearCenter s r := by
  obtain ⟨hlow, hhigh⟩ := h.filter
  obtain ⟨hcenter, hcenter'⟩ := h.center
  obtain ⟨hin₁, hin₂⟩ := hin
  obtain ⟨hout₁, hout₂⟩ := h.out
  have hone : (1 : BitVec 32).toNat = 1 := rfl
  have hzero : (0 : BitVec 32).toNat = 0 := rfl
  have href : (16000000 : BitVec 32).toNat = 16000000 := rfl
  have havoid : (199999 : BitVec 32).toNat = 199999 := rfl
  have hcenter₁ : s.fIf1Center.toNat ≤ (s.fRef * ((s.fIf1Center - s.fIf1Bw / 2 + s.fIn) / s.fRef) - s.fIn).toNat +
      27000000 ∧ (s.fRef * ((s.fIf1Center - s.fIf1Bw / 2 + s.fIn) / s.fRef) - s.fIn).toNat ≤ s.fIf1Center.toNat := by
    rw [BitVec.toNat_sub, toNat_mul_div, BitVec.toNat_add, hlow, h.fRef, href]
    omega
  have hcenter₂ : s.fIf1Center.toNat ≤ (s.fRef * ((s.fIf1Center - s.fIf1Bw / 2 - s.fOut) / s.fRef) + s.fOut).toNat +
      27000000 ∧ (s.fRef * ((s.fIf1Center - s.fIf1Bw / 2 - s.fOut) / s.fRef) + s.fOut).toNat ≤ s.fIf1Center.toNat := by
    rw [BitVec.toNat_add, toNat_mul_div, BitVec.toNat_sub, hlow, h.fRef, href]
    omega
  have hend₁ : (s.fIf1Center + s.fIf1Bw / 2 + s.fLO1FracNAvoid).toNat = s.fIf1Center.toNat + 11000000 := by
    rw [BitVec.toNat_add, hhigh, h.avoid1, hzero]
    omega
  have hend₂ : (s.fIf1Center + s.fIf1Bw / 2 + s.fLO2FracNAvoid).toNat = s.fIf1Center.toNat + 11199999 := by
    rw [BitVec.toNat_add, hhigh, h.avoid2, havoid]
    omega
  have href' : s.fRef.toNat = 16000000 := congrArg BitVec.toNat h.fRef
  obtain ⟨calls₁, hcalls₁, -, hmem₁⟩ := fracNCalls_spec s.fLO1FracNAvoid
    (s.fIf1Center + s.fIf1Bw / 2 + s.fLO1FracNAvoid) s.fRef 3 (2 ^ 32)
    (s.fRef * ((s.fIf1Center - s.fIf1Bw / 2 + s.fIn) / s.fRef) - s.fIn) (by decide) (by omega) (by omega)
  obtain ⟨calls₂, hcalls₂, hlength₂, hmem₂⟩ := fracNCalls_spec s.fLO2FracNAvoid
    (s.fIf1Center + s.fIf1Bw / 2 + s.fLO2FracNAvoid) s.fRef 3 (2 ^ 32)
    (s.fRef * ((s.fIf1Center - s.fIf1Bw / 2 - s.fOut) / s.fRef) + s.fOut) (by decide) (by omega) (by omega)
  have hcalls : resetCalls s = some (calls₁ ++ calls₂ ++ dectCalls s) := by
    unfold resetCalls
    rw [if_neg (by rw [h.fRef]; decide)]
    dsimp only
    rw [hcalls₁, hcalls₂]
    rfl
  have hnone : acceptedOf s calls₁ = [] := by
    refine acceptedOf_eq_nil fun r hr hacc => ?_
    obtain ⟨-, -, hlt⟩ := h.accepts.mp hacc
    obtain ⟨x, hx, hx', rfl | rfl⟩ := hmem₁ r hr
    · rw [h.avoid1, BitVec.toNat_sub, BitVec.toNat_sub, hone, hzero] at hlt
      omega
    · rw [h.avoid1, BitVec.toNat_add, BitVec.toNat_add, hone, hzero] at hlt
      omega
  obtain ⟨hdect, hdect'⟩ := h.dect_room ⟨hin₁, hin₂⟩
  have hsplit : acceptedOf s (calls₁ ++ calls₂ ++ dectCalls s) = acceptedOf s calls₂ ++ acceptedOf s (dectCalls s) := by
    rw [acceptedOf_append, acceptedOf_append, hnone, List.nil_append]
  refine ⟨_, hcalls, ?_, fun r hr => ?_⟩
  · rw [hsplit, List.length_append]
    have hle := length_acceptedOf_le s calls₂
    omega
  · rw [hsplit] at hr
    rcases List.mem_append.mp hr with hr | hr
    · obtain ⟨hr, hacc⟩ := mem_acceptedOf.mp hr
      refine h.nearCenter hacc ?_
      obtain ⟨x, hx, hx', rfl | rfl⟩ := hmem₂ r hr
      · rw [h.avoid2, BitVec.toNat_sub, BitVec.toNat_sub, hone, havoid]
        omega
      · rw [h.avoid2, BitVec.toNat_add, BitVec.toNat_add, hone, havoid]
        omega
    · exact hdect' r hr

/-- The zones before the search. -/
theorem Settings.reset_held (h : Settings s) (hin : IsInput s.fIn) :
    ∃ z accepted used free, resetExclZones s = some { s with toZoneLists := z } ∧
      Held { s with toZoneLists := z } accepted used free ∧ used.length ≤ 16 ∧ ∀ r ∈ accepted, NearCenter s r := by
  obtain ⟨calls, hcalls, hlength, hnear⟩ := h.reset_room hin
  have hroom : ([] : List ℕ).length + (acceptedOf (clearZones s) calls).length ≤ MT2063_MAX_ZONES := by
    rw [List.length_nil, Nat.zero_add]
    exact hlength.trans (by decide)
  obtain ⟨z, accepted, used, free, hrun, hheld, hused, hmem⟩ := addRanges_room (held_clearZones s) hroom
  refine ⟨z, accepted, used, free, ?_, hheld, ?_, fun r hr => ?_⟩
  · unfold resetExclZones
    rw [hcalls]
    exact hrun
  · rw [List.length_nil, Nat.zero_add] at hused
    exact hused.trans hlength
  · rcases hmem r hr with hr | hr
    · exact absurd hr List.not_mem_nil
    · exact hnear r hr

/-! ## The next first IF -/

/-- The frequency that is wanted is in a range in which nothing wraps around. -/
def IsRequest (f : BitVec 32) : Prop := 199500000 ≤ f.toNat ∧ f.toNat ≤ 2000500000

theorem Settings.fDesired_toNat (h : Settings s) (hin : IsInput s.fIn) (hrequest : IsRequest s.fIf1Request) :
    s.fIf1Request.toNat ≤ (fDesired s).toNat + 125000 ∧ (fDesired s).toNat ≤ s.fIf1Request.toNat + 125000 := by
  obtain ⟨hin₁, hin₂⟩ := hin
  obtain ⟨hrequest₁, hrequest₂⟩ := hrequest
  have hstep : (250000 : BitVec 32).toNat = 250000 := rfl
  have hhalf : ((250000 : BitVec 32) / 2).toNat = 125000 := rfl
  unfold fDesired
  rw [BitVec.toNat_sub, toNat_mul_div, BitVec.toNat_add, BitVec.toNat_add, h.lo1Step, hhalf, hstep]
  omega

theorem Settings.fStep_eq (h : Settings s) : fStep s = 250000 := by
  unfold fStep
  rw [h.lo1Step]
  rcases h.lo2Step with hstep | hstep <;> rw [hstep] <;> rfl

theorem Settings.fCenter_toNat (h : Settings s) (hin : IsInput s.fIn) (hrequest : IsRequest s.fIf1Request) :
    s.fIf1Center.toNat ≤ (fCenter s).toNat + 125000 ∧ (fCenter s).toNat ≤ s.fIf1Center.toNat + 125000 := by
  obtain ⟨hdesired₁, hdesired₂⟩ := h.fDesired_toNat hin hrequest
  obtain ⟨hrequest₁, hrequest₂⟩ := hrequest
  obtain ⟨hcenter₁, hcenter₂⟩ := h.center
  have hstep : (250000 : BitVec 32).toNat = 250000 := rfl
  have hhalf : ((250000 : BitVec 32) / 2).toNat = 125000 := rfl
  unfold fCenter
  rw [h.fStep_eq]
  split
  · next hgt =>
    have hgt' : (fDesired s).toNat < s.fIf1Center.toNat := hgt
    rw [BitVec.toNat_add, toNat_mul_div, BitVec.toNat_add, BitVec.toNat_sub, hhalf, hstep]
    omega
  · next hle =>
    have hle' : s.fIf1Center.toNat ≤ (fDesired s).toNat := Nat.le_of_not_lt hle
    rw [BitVec.toNat_sub, toNat_mul_div, BitVec.toNat_add, BitVec.toNat_sub, hhalf, hstep]
    omega

/-- The zones are near the center. -/
theorem Held.zones_near (h : Held s accepted used free) (hnear : ∀ r ∈ accepted, NearCenter s r) :
    ∀ z ∈ zonesOf s used, (s.fIf1Center.toNat : ℤ) ≤ z.1 + 19000002 ∧ z.2 ≤ (s.fIf1Center.toNat : ℤ) + 19000002 := by
  intro z hz
  obtain ⟨⟨r, hr, hlower⟩, ⟨r', hr', hupper⟩⟩ := h.ends z hz
  have h₁ := (hnear r hr).1
  have h₂ := (hnear r' hr').2
  rw [hlower, hupper]
  change (_ : ℤ) ≤ ((r.1.toNat : ℕ) : ℤ) + _ ∧ ((r'.2.toNat : ℕ) : ℤ) ≤ _
  omega

/-- **The next first IF** is in no zone, and it is the one that is wanted, or it is near the center. -/
theorem Settings.choose_spec (h : Settings s) (hin : IsInput s.fIn) (hrequest : IsRequest s.fIf1Request)
    (hheld : Held s accepted used free) (hnear : ∀ r ∈ accepted, NearCenter s r) :
    ∃ f, chooseFirstIf s = some f ∧ Outside (zonesOf s used) f.toNat ∧ 199000000 ≤ f.toNat ∧
      f.toNat ≤ 2001000000 := by
  obtain ⟨hdesired₁, hdesired₂⟩ := h.fDesired_toNat hin hrequest
  obtain ⟨hcenter₁, hcenter₂⟩ := h.fCenter_toNat hin hrequest
  obtain ⟨hbound₁, hbound₂⟩ := h.center
  obtain ⟨hrequest₁, hrequest₂⟩ := hrequest
  have hstep : (fStep s).toNat = 250000 := congrArg BitVec.toNat h.fStep_eq
  have hzones := hheld.zones_near hnear
  have hrange : InRange s := by
    refine ⟨?_, ?_, ?_⟩
    · rw [h.lo1Step]
      decide
    · rw [hstep]
      decide
    · omega
  obtain ⟨hfree, hexcluded⟩ := chooseFirstIf_spec hrange hheld.linked hheld.apart fun z hz => by
    have := (hzones z hz).2
    omega
  by_cases hdesired : Outside (zonesOf s used) (fDesired s).toNat
  · exact ⟨_, hfree hdesired, hdesired, by omega, by omega⟩
  · obtain ⟨k, hchoice, houtside, hnearest⟩ := hexcluded hdesired
    rw [hstep] at hchoice houtside hnearest
    have hfar : Outside (zonesOf s used) ((fCenter s).toNat + 77 * ((250000 : ℕ) : ℤ)) := by
      intro z hz hcovered
      have := (hzones z hz).2
      omega
    have hle := abs_le.mp ((hnearest 77 hfar).trans_eq (by decide : |(77 : ℤ)| = 77))
    have hvalue : ((BitVec.ofInt 32 ((fCenter s).toNat + k * ((250000 : ℕ) : ℤ))).toNat : ℤ) =
        (fCenter s).toNat + k * ((250000 : ℕ) : ℤ) := toNat_ofInt_of_nonneg (by omega) (by omega)
    refine ⟨_, hchoice, ?_, ?_, ?_⟩
    · rw [hvalue]
      exact houtside
    · omega
    · omega

/-! ## A turn -/

/-- The oscillators are tuned for a first IF. -/
structure Tuned (s : AvoidSpursData) (zfIF1 : BitVec 32) : Prop where
  settings : Settings s
  input : IsInput s.fIn
  request : IsRequest s.fIf1Request
  if1 : 198000000 ≤ zfIF1.toNat ∧ zfIF1.toNat ≤ 2002000000
  lo1 : s.fLO1.toNat = zfIF1.toNat + s.fIn.toNat
  lo2 : s.fLO1.toNat ≤ s.fLO2.toNat + s.fOut.toNat + s.fIn.toNat + 62500 ∧
    s.fLO2.toNat + s.fOut.toNat + s.fIn.toNat ≤ s.fLO1.toNat + 62500

variable {s' : AvoidSpursData} {zfIF1 zfIF1' fm fp : BitVec 32} {p p' : Spur}

theorem Tuned.fits (h : Tuned s zfIF1) : Fits s := by
  obtain ⟨hsettings, ⟨hin₁, hin₂⟩, -, ⟨hif₁, hif₂⟩, hlo₁, hlo₂, hlo₃⟩ := h
  have hout := hsettings.out
  exact ⟨hsettings.maxH1, hsettings.zif, hout, hsettings.bw, by omega, by omega, by omega⟩

/-- The first IF moves, and the oscillators with it. -/
theorem Tuned.turn (h : Tuned s zfIF1) (z : ZoneLists) (hnew : 199000000 ≤ zfIF1'.toNat)
    (hnew' : zfIF1'.toNat ≤ 2001000000) :
    Tuned { s with
      toZoneLists := z
      nSpursFound := s.nSpursFound + 1
      fLO1 := s.fLO1 + (zfIF1' - zfIF1)
      fLO2 := s.fLO2 + (zfIF1' - zfIF1) } zfIF1' := by
  obtain ⟨hsettings, ⟨hin₁, hin₂⟩, hrequest, ⟨hif₁, hif₂⟩, hlo₁, hlo₂, hlo₃⟩ := h
  have hout := hsettings.out
  have hvalue : ∀ x : BitVec 32, zfIF1.toNat ≤ x.toNat + zfIF1'.toNat → x.toNat + zfIF1'.toNat < zfIF1.toNat + 2 ^ 32 →
      (x + (zfIF1' - zfIF1)).toNat = x.toNat + zfIF1'.toNat - zfIF1.toNat := by
    intro x hx hx'
    rw [BitVec.toNat_add, BitVec.toNat_sub]
    omega
  have h₁ := hvalue s.fLO1 (by omega) (by omega)
  have h₂ := hvalue s.fLO2 (by omega) (by omega)
  refine ⟨hsettings.update .., ⟨hin₁, hin₂⟩, hrequest, by omega, ?_, ?_, ?_⟩
  · change (s.fLO1 + (zfIF1' - zfIF1)).toNat = zfIF1'.toNat + s.fIn.toNat
    omega
  · change (s.fLO1 + (zfIF1' - zfIF1)).toNat ≤ (s.fLO2 + (zfIF1' - zfIF1)).toNat + s.fOut.toNat + s.fIn.toNat + 62500
    omega
  · change (s.fLO2 + (zfIF1' - zfIF1)).toNat + s.fOut.toNat + s.fIn.toNat ≤ (s.fLO1 + (zfIF1' - zfIF1)).toNat + 62500
    omega

/-! ## The spurs that were excluded -/

/-- The first IF is near the center of the filter. -/
def InFilter (s : AvoidSpursData) (zfIF1 : BitVec 32) : Prop :=
  |(zfIF1.toNat : ℤ) - s.fIf1Center.toNat| ≤ 11000000

theorem Tuned.inFilter (h : Tuned s zfIF1) (hwithin : WithinFilter s zfIF1) : InFilter s zfIF1 := by
  obtain ⟨hcenter₁, hcenter₂⟩ := h.settings.center
  obtain ⟨hif₁, hif₂⟩ := h.if1
  have hbw := h.settings.bw
  have htwo : (2 : BitVec 32).toNat = 2 := rfl
  have hif1Bw : s.fIf1Bw.toNat = 22000000 := congrArg BitVec.toNat h.settings.if1Bw
  have hle : (2 * deltaIF1 s zfIF1 + s.fOutBw).toNat ≤ s.fIf1Bw.toNat := hwithin
  rw [hif1Bw, BitVec.toNat_add, BitVec.toNat_mul, htwo] at hle
  have hdelta : ((deltaIF1 s zfIF1).toNat : ℤ) = |(zfIF1.toNat : ℤ) - s.fIf1Center.toNat| := by
    unfold deltaIF1
    split
    · next hgt =>
      have hgt' : s.fIf1Center.toNat < zfIF1.toNat := hgt
      rw [BitVec.toNat_sub, abs_of_pos (by omega)]
      omega
    · next hnot =>
      have hle' : zfIF1.toNat ≤ s.fIf1Center.toNat := Nat.le_of_not_lt hnot
      rw [BitVec.toNat_sub, abs_of_nonpos (by omega)]
      omega
  unfold InFilter
  rw [← hdelta]
  have hbound : (deltaIF1 s zfIF1).toNat ≤ 1600000000 := by
    have := abs_le.mp (hdelta.symm.le.trans (le_refl _))
    rcases abs_choice ((zfIF1.toNat : ℤ) - s.fIf1Center.toNat) with habs | habs <;> rw [habs] at hdelta <;> omega
  omega

/-- Two states are about the same channel. -/
structure SameChannel (u s : AvoidSpursData) : Prop where
  fIn : s.fIn = u.fIn
  band : s.fOut = u.fOut ∧ s.fOutBw = u.fOutBw ∧ s.fZifBw = u.fZifBw
  center : s.fIf1Center = u.fIf1Center
  apart : (s.fLO1.toNat : ℤ) - s.fLO2.toNat = u.fLO1.toNat - u.fLO2.toNat

variable {u : AvoidSpursData} {zu : BitVec 32}

theorem SameChannel.symm (h : SameChannel u s) : SameChannel s u :=
  ⟨h.fIn.symm, ⟨h.band.1.symm, h.band.2.1.symm, h.band.2.2.symm⟩, h.center.symm, h.apart.symm⟩

theorem SameChannel.trans (h : SameChannel u s) (h' : SameChannel s s') : SameChannel u s' :=
  ⟨h'.fIn.trans h.fIn, ⟨h'.band.1.trans h.band.1, h'.band.2.1.trans h.band.2.1, h'.band.2.2.trans h.band.2.2⟩,
    h'.center.trans h.center, h'.apart.trans h.apart⟩

theorem SameChannel.near (h : SameChannel u s) (hu : Tuned u zu) (hs : Tuned s zfIF1) (hu' : InFilter u zu)
    (hs' : InFilter s zfIF1) : Near u s := by
  have hcenter : (s.fIf1Center.toNat : ℤ) = u.fIf1Center.toNat := by rw [h.center]
  have hin : s.fIn.toNat = u.fIn.toNat := by rw [h.fIn]
  have hout : s.fOut.toNat = u.fOut.toNat := by rw [h.band.1]
  obtain ⟨hu₁, hu₂⟩ := abs_le.mp hu'
  obtain ⟨hs₁, hs₂⟩ := abs_le.mp hs'
  obtain ⟨hcenter₁, hcenter₂⟩ := hu.settings.center
  obtain ⟨hout₁, hout₂⟩ := hu.settings.out
  obtain ⟨hin₁, hin₂⟩ := hu.input
  have hlo₁ := hu.lo1
  have hlo₂ := hu.lo2
  have hlo₃ := hs.lo1
  have hlo₄ := hs.lo2
  have hapart := h.apart
  refine ⟨h.band, h.apart, by omega, abs_le.mpr ⟨by omega, by omega⟩, by omega, by omega⟩

/-- A spur was found before, and the range that it excludes is among the ones that are accepted. -/
def Seen (s : AvoidSpursData) (accepted : List (BitVec 32 × BitVec 32)) (v : ℕ × Band) : Prop :=
  ∃ u zu p, Tuned u zu ∧ InFilter u zu ∧ SameChannel u s ∧ Found u p ∧ InBand u p ∧ v = (p.n.toNat, p.band) ∧
    ∃ r ∈ accepted,
      (r.1.toNat : ℤ) =
        zu.toNat - ((highEdge u p.band - spurFreq u p) / ((p.m.toNat : ℤ) - p.n.toNat) + 1) ∧
      (r.2.toNat : ℤ) =
        zu.toNat + ((spurFreq u p - lowEdge u p.band) / ((p.m.toNat : ℤ) - p.n.toNat) + 1)

/-- **A harmonic and a band are not found twice**, for a first IF that is in no zone. -/
theorem Tuned.not_seen (h : Tuned s zfIF1) (hfilter : InFilter s zfIF1) (hheld : Held s accepted used free)
    (houtside : Outside (zonesOf s used) zfIF1.toNat) (hfound : Found s p) (hin : InBand s p) :
    ¬ Seen s accepted (p.n.toNat, p.band) := by
  rintro ⟨u, zu, p', hu, hu', hsame, hfound', hin', hv, r, hr, hlower, hupper⟩
  have hnear := hsame.near hu h hu' hfilter
  obtain ⟨hn, hband⟩ := Prod.mk.inj hv
  obtain rfl : p = p' := hnear.m_eq hu.fits h.fits hfound' hfound hin' hin (BitVec.eq_of_toNat_eq hn) hband
  obtain ⟨hlow, hhigh⟩ := hnear.excluded hu.fits hfound' hin' hin
  have hshift : (s.fLO2.toNat : ℤ) - u.fLO2.toNat = zfIF1.toNat - zu.toNat := by
    have h₁ := h.lo1
    have h₂ := hu.lo1
    have h₃ := hsame.apart
    have h₄ : s.fIn.toNat = u.fIn.toNat := by rw [hsame.fIn]
    omega
  rw [hshift] at hlow hhigh
  obtain ⟨y, hy, hwithin₁, hwithin₂⟩ := hheld.covered r hr
  change y.1 ≤ (r.1.toNat : ℤ) at hwithin₁
  change (r.2.toNat : ℤ) ≤ y.2 at hwithin₂
  exact houtside y hy ⟨by omega, by omega⟩

/-- Different pairs whose numbers are less than `k` apart. -/
theorem length_le_of_window {β : Type*} [Fintype β] {k : ℕ} {l : List (ℕ × β)} (hnodup : l.Nodup)
    (hwindow : ∀ v ∈ l, ∀ w ∈ l, w.1 < v.1 + k) : l.length ≤ k * Fintype.card β := by
  classical
  rcases List.eq_nil_or_concat l with rfl | ⟨init, last, hl⟩
  · exact Nat.zero_le _
  have hlast : last ∈ l.toFinset := by
    rw [hl, List.mem_toFinset, List.concat_eq_append]
    exact List.mem_append_right _ (List.mem_singleton.mpr rfl)
  obtain ⟨v, hv, hmin⟩ := l.toFinset.exists_min_image Prod.fst ⟨last, hlast⟩
  have hsub : l.toFinset ⊆ Finset.Ico v.1 (v.1 + k) ×ˢ Finset.univ := by
    intro w hw
    have hlt := hwindow v (List.mem_toFinset.mp hv) w (List.mem_toFinset.mp hw)
    exact Finset.mem_product.mpr ⟨Finset.mem_Ico.mpr ⟨hmin w hw, hlt⟩, Finset.mem_univ _⟩
  have hcard := Finset.card_le_card hsub
  rw [Finset.card_product, Nat.card_Ico, Nat.add_sub_cancel_left, Finset.card_univ,
    List.toFinset_card_of_nodup hnodup] at hcard
  exact hcard

/-- **At most 30 spurs are found** while the first IF is in the filter. -/
theorem length_seen_le {visited : List (ℕ × Band)} (hnodup : visited.Nodup)
    (hseen : ∀ v ∈ visited, Seen s accepted v) : visited.length ≤ 30 := by
  refine (length_le_of_window (k := 10) hnodup fun v hv w hw => ?_).trans (by decide)
  obtain ⟨u, zu, p, hu, hu', hsame, hfound, -, rfl, -⟩ := hseen v hv
  obtain ⟨u', zu', p', hv, hv', hsame', hfound', -, rfl, -⟩ := hseen w hw
  exact ((hsame.trans hsame'.symm).near hu hv hu' hv').n_lt hu.fits hfound hfound'

/-! ## The loop -/

theorem Distances.bounds (h : Distances s p fm fp) (hfit : Fits s) :
    1 ≤ fm.toNat ∧ 1 ≤ fp.toNat ∧ fm.toNat + fp.toNat ≤ 8000002 := by
  have hlt := lt_of_inBand hfit h.found h.inBand
  obtain ⟨-, hwidth, -⟩ := edges_bounds hfit p.band
  obtain ⟨hlow, hhigh⟩ := h.inBand
  have hm := h.fm
  have hp := h.fp
  have hpos : 0 < (p.m.toNat : ℤ) - p.n.toNat := by omega
  have h₁ := Int.ediv_nonneg (sub_nonneg.mpr hhigh) hpos.le
  have h₂ := Int.ediv_nonneg (sub_nonneg.mpr hlow) hpos.le
  have h₃ := Int.ediv_le_self ((p.m.toNat : ℤ) - p.n.toNat) (sub_nonneg.mpr hhigh)
  have h₄ := Int.ediv_le_self ((p.m.toNat : ℤ) - p.n.toNat) (sub_nonneg.mpr hlow)
  omega

/-- The spur that a turn excludes, among the ones that were found, if the first IF was in the filter. -/
theorem Tuned.seen (h : Tuned s zfIF1) (hfilter : InFilter s zfIF1) (hdist : Distances s p fm fp)
    (hchannel : SameChannel s s') :
    Seen s' (acceptedOf s [(zfIF1 - fm, zfIF1 + fp)] ++ accepted) (p.n.toNat, p.band) := by
  obtain ⟨hfm, hfp, hwidth⟩ := hdist.bounds h.fits
  obtain ⟨hif₁, hif₂⟩ := h.if1
  obtain ⟨hfilter₁, hfilter₂⟩ := abs_le.mp hfilter
  have hzone : (zfIF1 - fm).toNat = zfIF1.toNat - fm.toNat ∧ (zfIF1 + fp).toNat = zfIF1.toNat + fp.toNat := by
    rw [BitVec.toNat_sub, BitVec.toNat_add]
    omega
  have haccepts : Accepts s (zfIF1 - fm) (zfIF1 + fp) := by
    rw [h.settings.accepts]
    omega
  refine ⟨s, zfIF1, p, h, hfilter, hchannel, hdist.found, hdist.inBand, rfl, (zfIF1 - fm, zfIF1 + fp), ?_, ?_, ?_⟩
  · refine List.mem_append_left _ (List.mem_filter.mpr ⟨List.mem_singleton.mpr rfl, decide_eq_true haccepts⟩)
  · rw [← hdist.fm]
    change ((zfIF1 - fm).toNat : ℤ) = _
    omega
  · rw [← hdist.fp]
    change ((zfIF1 + fp).toNat : ℤ) = _
    omega

theorem Seen.mono {accepted' : List (BitVec 32 × BitVec 32)} {v : ℕ × Band} (h : Seen s accepted v)
    (hchannel : SameChannel s s') (hsub : ∀ r ∈ accepted, r ∈ accepted') : Seen s' accepted' v := by
  obtain ⟨u, zu, p, hu, hfilter, hsame, hfound, hin, hv, r, hr, hrange⟩ := h
  exact ⟨u, zu, p, hu, hfilter, hsame.trans hchannel, hfound, hin, hv, r, hsub r hr, hrange⟩

/-- The oscillators stay apart by the same distance. -/
theorem Tuned.sameChannel (h : Tuned s zfIF1) (h' : Tuned s' zfIF1') (hin : s'.fIn = s.fIn)
    (hband : s'.fOut = s.fOut ∧ s'.fOutBw = s.fOutBw ∧ s'.fZifBw = s.fZifBw) (hcenter : s'.fIf1Center = s.fIf1Center)
    (hapart : s'.fLO1 - s'.fLO2 = s.fLO1 - s.fLO2) : SameChannel s s' := by
  refine ⟨hin, hband, hcenter, ?_⟩
  have h₁ := congrArg BitVec.toNat hapart
  have hfit := h.fits.apart
  have hfit' := h'.fits.apart
  rw [BitVec.toNat_sub, BitVec.toNat_sub] at h₁
  omega

/-- What a state of the loop has: the oscillators are tuned, and the zones hold what was accepted. -/
structure Searching (s : AvoidSpursData) (zfIF1 : BitVec 32) (accepted : List (BitVec 32 × BitVec 32))
    (used free : List ℕ) : Prop where
  tuned : Tuned s zfIF1
  held : Held s accepted used free
  near : ∀ r ∈ accepted, NearCenter s r

/-- **A turn** excludes a range, unless it does not overlap the filter, and tunes the oscillators for a first IF that is
in no zone. -/
theorem Searching.turn (h : Searching s zfIF1 accepted used free) (hdist : Distances s p fm fp)
    (hroom : used.length < MT2063_MAX_ZONES) :
    ∃ s' zfIF1' used' free', Mt2063.turn s zfIF1 fm fp = some (s', zfIF1') ∧
      Searching s' zfIF1' (acceptedOf s [(zfIF1 - fm, zfIF1 + fp)] ++ accepted) used' free' ∧
      used'.length ≤ used.length + 1 ∧ Outside (zonesOf s' used') zfIF1'.toNat ∧ SameChannel s s' ∧
      s'.fLO1 - s'.fLO2 = s.fLO1 - s.fLO2 := by
  obtain ⟨-, -, hwidth⟩ := hdist.bounds h.tuned.fits
  obtain ⟨hif₁, hif₂⟩ := h.tuned.if1
  have hone := length_acceptedOf_le s [(zfIF1 - fm, zfIF1 + fp)]
  rw [List.length_singleton] at hone
  have hnear : ∀ r ∈ acceptedOf s [(zfIF1 - fm, zfIF1 + fp)] ++ accepted, NearCenter s r := by
    intro r hr
    rcases List.mem_append.mp hr with hr | hr
    · obtain ⟨hr, hacc⟩ := mem_acceptedOf.mp hr
      obtain rfl := List.mem_singleton.mp hr
      refine h.tuned.settings.nearCenter hacc ?_
      change (zfIF1 + fp).toNat ≤ (zfIF1 - fm).toNat + 8000002
      rw [BitVec.toNat_sub, BitVec.toNat_add]
      omega
    · exact h.near r hr
  have hheld : Held { s with nSpursFound := s.nSpursFound + 1 } accepted used free := h.held.congr rfl
  obtain ⟨z, used', free', hadd, hheld', hlength⟩ := addExclZone_room hheld (zfIF1 - fm) (zfIF1 + fp) (by
    change used.length + (acceptedOf s [(zfIF1 - fm, zfIF1 + fp)]).length ≤ _
    omega)
  change used'.length ≤ used.length + (acceptedOf s [(zfIF1 - fm, zfIF1 + fp)]).length at hlength
  obtain ⟨f, hchoice, houtside, hf₁, hf₂⟩ := Settings.choose_spec (h.tuned.settings.update z s.fIn s.fIf1Request s.fLO1
    s.fLO2 s.bSpurPresent s.bSpurAvoided (s.nSpursFound + 1)) h.tuned.input h.tuned.request hheld' hnear
  have htuned := h.tuned.turn z hf₁ hf₂
  have hapart : (s.fLO1 + (f - zfIF1)) - (s.fLO2 + (f - zfIF1)) = s.fLO1 - s.fLO2 := by ring
  refine ⟨_, f, used', free', ?_, ⟨htuned, hheld'.congr rfl, hnear⟩, by omega, houtside,
    h.tuned.sameChannel htuned rfl ⟨rfl, rfl, rfl⟩ rfl hapart, hapart⟩
  unfold Mt2063.turn
  rw [hadd, Option.bind_some, hchoice, Option.map_some]
  have hsub : ∀ x : BitVec 32, x - (zfIF1 - f) = x + (f - zfIF1) := fun x => by ring
  split
  · rfl
  · rw [hsub, hsub]

/-- The flags and the count do not matter. -/
theorem Searching.flags (h : Searching s zfIF1 accepted used free) (present avoided found : BitVec 32) :
    Searching { s with bSpurPresent := present, bSpurAvoided := avoided, nSpursFound := found } zfIF1 accepted used
      free :=
  ⟨⟨h.tuned.settings.update .., h.tuned.input, h.tuned.request, h.tuned.if1, h.tuned.lo1, h.tuned.lo2⟩,
    h.held.congr rfl, h.near⟩

theorem SameChannel.present (h : SameChannel u s) (flag : BitVec 32) :
    SameChannel u { s with bSpurPresent := flag } := ⟨h.fIn, h.band, h.center, h.apart⟩

theorem Distances.present (h : Distances s p fm fp) (flag : BitVec 32) :
    Distances { s with bSpurPresent := flag } p fm fp :=
  ⟨⟨h.found.pos, h.found.le, h.found.first, h.found.last⟩, h.inBand, h.fm, h.fp⟩

/-- **One turn of the loop**, and what it leaves for the next one. -/
theorem Searching.loopTurn (fuel : ℕ) (h : Searching s zfIF1 accepted used free) (hdist : Distances s p fm fp)
    (hroom : used.length < MT2063_MAX_ZONES) (hcalls : ∀ u ∈ loopCalls (fuel + 1) s zfIF1 fm fp, ReportsInBand u) :
    (∃ s', avoidLoop (fuel + 1) s zfIF1 fm fp = some s' ∧ s'.fLO1 - s'.fLO2 = s.fLO1 - s.fLO2) ∨
      ∃ s' zfIF1' used' free' p' fm' fp',
        avoidLoop (fuel + 1) s zfIF1 fm fp = avoidLoop fuel s' zfIF1' fm' fp' ∧
        (∀ u ∈ loopCalls fuel s' zfIF1' fm' fp', ReportsInBand u) ∧
        Searching s' zfIF1' (acceptedOf s [(zfIF1 - fm, zfIF1 + fp)] ++ accepted) used' free' ∧
        InFilter s' zfIF1' ∧ Outside (zonesOf s' used') zfIF1'.toNat ∧ Distances s' p' fm' fp' ∧
        used'.length ≤ used.length + 1 ∧ SameChannel s s' ∧ s'.fLO1 - s'.fLO2 = s.fLO1 - s.fLO2 := by
  obtain ⟨s', zfIF1', used', free', hturn, hsearching, hused, houtside, hchannel, hapart⟩ := h.turn hdist hroom
  unfold loopCalls at hcalls
  rw [avoidLoop]
  rw [hturn] at hcalls ⊢
  dsimp only [Option.bind_some] at hcalls ⊢
  have hreport : ReportsInBand s' := by
    refine hcalls s' ?_
    split
    · split
      · exact List.mem_cons_self
      · exact List.mem_cons_self
    · exact List.mem_cons_self
  rcases isSpurInBand_spec hsearching.tuned.fits hreport with hnone | ⟨p', y, hspur, hdist'⟩
  · rw [hnone]
    exact .inl ⟨_, rfl, hapart⟩
  · rw [hspur] at hcalls ⊢
    dsimp only [Option.bind_some] at hcalls ⊢
    by_cases hwithin : WithinFilter s' zfIF1'
    · rw [if_pos hwithin] at hcalls ⊢
      exact .inr ⟨_, zfIF1', used', free', p', y.1, y.2, rfl, fun u hu => hcalls u (List.mem_cons_of_mem _ hu),
        hsearching.flags .., hsearching.tuned.inFilter hwithin, houtside, hdist'.present 1, hused, hchannel.present 1,
        hapart⟩
    · rw [if_neg hwithin]
      exact .inl ⟨_, rfl, hapart⟩

/-- **The loop ends**: every turn for a first IF in the filter finds a spur that was not found before. -/
theorem avoidLoop_spec (fuel : ℕ) (visited : List (ℕ × Band)) (h : Searching s zfIF1 accepted used free)
    (hfilter : InFilter s zfIF1) (houtside : Outside (zonesOf s used) zfIF1.toNat) (hdist : Distances s p fm fp)
    (hnodup : visited.Nodup) (hseen : ∀ v ∈ visited, Seen s accepted v) (hlength : used.length ≤ 17 + visited.length)
    (hfuel : 31 ≤ fuel + visited.length) (hcalls : ∀ u ∈ loopCalls fuel s zfIF1 fm fp, ReportsInBand u) :
    ∃ s', avoidLoop fuel s zfIF1 fm fp = some s' ∧ s'.fLO1 - s'.fLO2 = s.fLO1 - s.fLO2 := by
  induction fuel generalizing s zfIF1 accepted used free fm fp p visited with
  | zero =>
    have := length_seen_le hnodup hseen
    omega
  | succ fuel ih =>
    have hnew := h.tuned.not_seen hfilter h.held houtside hdist.found hdist.inBand
    have hroom : used.length < MT2063_MAX_ZONES := by
      have hchannel : SameChannel s s := ⟨rfl, ⟨rfl, rfl, rfl⟩, rfl, rfl⟩
      have hcons : (((p.n.toNat, p.band) :: visited).length) ≤ 30 := by
        refine @length_seen_le s (acceptedOf s [(zfIF1 - fm, zfIF1 + fp)] ++ accepted) _
          (List.nodup_cons.mpr ⟨fun hmem => hnew (hseen _ hmem), hnodup⟩) fun v hv => ?_
        rcases List.mem_cons.mp hv with rfl | hv
        · exact h.tuned.seen hfilter hdist hchannel
        · exact (hseen v hv).mono hchannel fun r hr => List.mem_append_right _ hr
      rw [List.length_cons] at hcons
      change used.length < 48
      omega
    rcases h.loopTurn fuel hdist hroom hcalls with hends | ⟨s', zfIF1', used', free', p', fm', fp', hloop, hcalls',
      hsearching, hfilter', houtside', hdist', hused, hchannel, hapart⟩
    · exact hends
    · rw [hloop]
      obtain ⟨s'', hends, hapart'⟩ := ih ((p.n.toNat, p.band) :: visited) hsearching hfilter' houtside' hdist'
        (List.nodup_cons.mpr ⟨fun hmem => hnew (hseen _ hmem), hnodup⟩) (fun v hv => by
          rcases List.mem_cons.mp hv with rfl | hv
          · exact h.tuned.seen hfilter hdist hchannel
          · exact (hseen v hv).mono hchannel fun r hr => List.mem_append_right _ hr)
        (by rw [List.length_cons]; omega) (by rw [List.length_cons]; omega) hcalls'
      exact ⟨s'', hends, hapart'.trans hapart⟩

/-! ## The whole avoidance -/

/-- The number of spurs, as it is returned, does not look like the error. -/
theorem spurCount_and (s : AvoidSpursData) : spurCount s &&& MT2063_SPUR_PRESENT_ERR = 0 := by
  have hmask : MT2063_SPUR_CNT_MASK &&& MT2063_SPUR_PRESENT_ERR = 0 := by decide
  unfold spurCount
  rw [BitVec.and_assoc, hmask]
  exact BitVec.and_zero

/-- What follows the loop keeps the distance of the oscillators, and restores them with the error. -/
theorem finish_spec {fLO1 fLO2 status : BitVec 32} (hfinish : finish s fLO1 fLO2 = (s', status))
    (hapart : s.fLO1 - s.fLO2 = fLO1 - fLO2) :
    s'.fLO1 - s'.fLO2 = fLO1 - fLO2 ∧ (status &&& MT2063_SPUR_PRESENT_ERR ≠ 0 → s'.fLO1 = fLO1 ∧ s'.fLO2 = fLO2) := by
  unfold finish at hfinish
  split at hfinish
  · obtain ⟨rfl, -⟩ := Prod.mk.inj hfinish
    exact ⟨rfl, fun _ => ⟨rfl, rfl⟩⟩
  · obtain ⟨rfl, rfl⟩ := Prod.mk.inj hfinish
    exact ⟨hapart, fun herr => absurd (spurCount_and s) herr⟩

/-- **`MT2063_AvoidSpurs` from a state that is tuned** ends, if the harmonics that are found are in the band. -/
theorem Searching.endsWell (h : Searching s (s.fLO1 - s.fIn) accepted used free) (hused : used.length ≤ 16)
    (hcalls : ∀ u ∈ spurCalls 32 s, ReportsInBand u) : EndsWell s := by
  have hclear : Searching (clearFound s) (s.fLO1 - s.fIn) accepted used free := h.flags ..
  have hmax : s.maxH1 ≠ 0 := by
    rw [h.tuned.settings.maxH1]
    decide
  have hreport : ReportsInBand (clearFound s) := by
    refine hcalls _ ?_
    unfold spurCalls
    split
    · exact List.mem_cons_self
    · exact List.mem_cons_self
  unfold spurCalls at hcalls
  rcases isSpurInBand_spec hclear.tuned.fits hreport with hnone | ⟨p, y, hspur, hdist⟩
  · refine ⟨0, { clearFound s with bSpurPresent := 0 }, 0, ?_, rfl, fun herr => absurd rfl herr⟩
    unfold avoidSpurs
    rw [if_neg hmax, hnone]
    rfl
  · have hroom : used.length < MT2063_MAX_ZONES := hused.trans_lt (by decide)
    rw [hspur] at hcalls
    dsimp only at hcalls
    have hloop : ∃ u, avoidLoop 32 { clearFound s with bSpurPresent := 1 } (s.fLO1 - s.fIn) y.1 y.2 = some u ∧
        u.fLO1 - u.fLO2 = s.fLO1 - s.fLO2 := by
      have hpresent : Searching { clearFound s with bSpurPresent := 1 } (s.fLO1 - s.fIn) accepted used free :=
        hclear.flags ..
      rcases hpresent.loopTurn 31 (hdist.present 1) hroom fun u hu => hcalls u (List.mem_cons_of_mem _ hu) with
        hends | ⟨s', zfIF1', used', free', p', fm', fp', hloop, hcalls', hsearching, hfilter, houtside, hdist', hlength,
          -, hapart⟩
      · exact hends
      · obtain ⟨u, hu, hu'⟩ := avoidLoop_spec 31 [] hsearching hfilter houtside hdist' List.nodup_nil
          (fun v hv => absurd hv List.not_mem_nil) (by rw [List.length_nil]; omega) (by rw [List.length_nil]) hcalls'
        exact ⟨u, hloop.trans hu, hu'.trans hapart⟩
    obtain ⟨u, hu, hu'⟩ := hloop
    obtain ⟨hkept, herr⟩ := finish_spec (s := u) rfl hu'
    refine ⟨32, _, _, ?_, hkept, herr⟩
    unfold avoidSpurs
    rw [if_neg hmax, hspur]
    dsimp only [Option.bind_some]
    rw [hu]
    rfl

/-- A frequency is rounded to a step. -/
theorem roundFLO_spec (x step fRef : BitVec 32) (hstep : 0 < step.toNat) (href : 0 < fRef.toNat)
    (hbound : x.toNat + step.toNat / 2 < 2 ^ 32) :
    ∃ y, roundFLO x step fRef = some y ∧ y.toNat ≤ x.toNat + step.toNat / 2 ∧
      x.toNat + step.toNat / 2 < y.toNat + step.toNat := by
  unfold roundFLO
  rw [quot_of_pos href, quot_of_pos hstep]
  have hsum : (x % fRef + step / 2).toNat = x.toNat % fRef.toNat + step.toNat / 2 := by
    have hle := Nat.mod_le x.toNat fRef.toNat
    rw [BitVec.toNat_add, BitVec.toNat_umod, toNat_half]
    exact Nat.mod_eq_of_lt (by omega)
  have hvalue : (fRef * (x / fRef) + step * ((x % fRef + step / 2) / step)).toNat =
      (fRef.toNat * (x.toNat / fRef.toNat) +
        step.toNat * ((x.toNat % fRef.toNat + step.toNat / 2) / step.toNat)) % 2 ^ 32 := by
    rw [BitVec.toNat_add, toNat_mul_div, toNat_mul_div, hsum]
  have h₁ := Nat.div_add_mod x.toNat fRef.toNat
  have h₂ := Nat.div_add_mod (x.toNat % fRef.toNat + step.toNat / 2) step.toNat
  have h₃ := Nat.mod_lt (x.toNat % fRef.toNat + step.toNat / 2) hstep
  rw [Nat.mod_eq_of_lt (by omega)] at hvalue
  exact ⟨fRef * (x / fRef) + step * ((x % fRef + step / 2) / step), rfl, by omega, by omega⟩

/-- A channel that `MT2063_Tune` accepts: the settings, the input frequency, and a first IF that is wanted. -/
structure Channel (s : AvoidSpursData) (fIn : BitVec 32) : Prop where
  settings : Settings s
  input : IsInput fIn
  request : 200000000 ≤ s.fIf1Request.toNat ∧ s.fIf1Request.toNat ≤ 2000000000

/-- **The oscillators are tuned** for every channel. -/
theorem Channel.chooseLOs {fIn : BitVec 32} (h : Channel s fIn) :
    ∃ s' accepted used free, Mt2063.chooseLOs s fIn = some s' ∧
      Searching s' (s'.fLO1 - s'.fIn) accepted used free ∧ used.length ≤ 16 := by
  obtain ⟨hsettings, ⟨hin₁, hin₂⟩, hrequest₁, hrequest₂⟩ := h
  obtain ⟨hout₁, hout₂⟩ := hsettings.out
  have hstep₁ : s.fLO1Step.toNat = 250000 := congrArg BitVec.toNat hsettings.lo1Step
  have href : s.fRef.toNat = 16000000 := congrArg BitVec.toNat hsettings.fRef
  have hsum : (s.fIf1Request + fIn).toNat = s.fIf1Request.toNat + fIn.toNat := by
    rw [BitVec.toNat_add]
    omega
  obtain ⟨request, hround, hround₁, hround₂⟩ := roundFLO_spec (s.fIf1Request + fIn) s.fLO1Step s.fRef
    (by omega) (by omega) (by omega)
  have hsettings' : ∀ (t : ZoneLists) (f f₁ f₂ : BitVec 32), Settings { s with
      toZoneLists := t, fIn := fIn, fIf1Request := f, fLO1 := f₁, fLO2 := f₂ } := fun _ _ _ _ => hsettings.update ..
  have hrequest : IsRequest (request - fIn) := by
    have hvalue : (request - fIn).toNat = request.toNat - fIn.toNat := by
      rw [BitVec.toNat_sub]
      omega
    unfold IsRequest
    omega
  obtain ⟨z, accepted, used, free, hreset, hheld, hused, hnear⟩ :=
    Settings.reset_held (hsettings' s.toZoneLists (request - fIn) s.fLO1 s.fLO2) ⟨hin₁, hin₂⟩
  obtain ⟨f, hchoice, -, hf₁, hf₂⟩ :=
    Settings.choose_spec (hsettings' z (request - fIn) s.fLO1 s.fLO2) ⟨hin₁, hin₂⟩ hrequest hheld hnear
  have hsum' : (f + fIn).toNat = f.toNat + fIn.toNat := by
    rw [BitVec.toNat_add]
    omega
  obtain ⟨fLO1, hLO1, hLO1₁, hLO1₂⟩ := roundFLO_spec (f + fIn) s.fLO1Step s.fRef
    (by omega) (by omega) (by omega)
  have hdiff : (fLO1 - s.fOut - fIn).toNat = fLO1.toNat - s.fOut.toNat - fIn.toNat := by
    rw [BitVec.toNat_sub, BitVec.toNat_sub]
    omega
  have hstep₂ : s.fLO2Step.toNat = 50000 ∨ s.fLO2Step.toNat = 125000 :=
    hsettings.lo2Step.imp (congrArg BitVec.toNat) (congrArg BitVec.toNat)
  obtain ⟨fLO2, hLO2, hLO2₁, hLO2₂⟩ := roundFLO_spec (fLO1 - s.fOut - fIn) s.fLO2Step s.fRef
    (by omega) (by omega) (by omega)
  refine ⟨{ s with toZoneLists := z, fIn := fIn, fIf1Request := request - fIn, fLO1 := fLO1, fLO2 := fLO2 },
    accepted, used, free, ?_, ⟨⟨hsettings' z _ _ _, ⟨hin₁, hin₂⟩, hrequest, ?_, ?_, ?_⟩, hheld.congr rfl, hnear⟩, hused⟩
  · unfold Mt2063.chooseLOs
    rw [hround, Option.bind_some, hreset, Option.bind_some, hchoice, Option.bind_some]
    dsimp only
    rw [hLO1, Option.bind_some, hLO2]
    rfl
  · change 198000000 ≤ (fLO1 - fIn).toNat ∧ (fLO1 - fIn).toNat ≤ 2002000000
    rw [BitVec.toNat_sub]
    omega
  · change fLO1.toNat = (fLO1 - fIn).toNat + fIn.toNat
    rw [BitVec.toNat_sub]
    omega
  · change fLO1.toNat ≤ fLO2.toNat + s.fOut.toNat + fIn.toNat + 62500 ∧
      fLO2.toNat + s.fOut.toNat + fIn.toNat ≤ fLO1.toNat + 62500
    omega

/-- **The avoidance of spurs ends for every channel** for which the harmonics that `IsSpurInBand` finds are in the
band. -/
theorem endsWell_of_inBand {fIn : BitVec 32} (h : Channel s fIn) :
    ∃ s', chooseLOs s fIn = some s' ∧ ((∀ fuel, ∀ u ∈ spurCalls fuel s', ReportsInBand u) → EndsWell s') := by
  obtain ⟨s', accepted, used, free, htune, hsearching, hused⟩ := h.chooseLOs
  exact ⟨s', htune, fun hcalls => hsearching.endsWell hused (hcalls 32)⟩

/-- The settings for a tuner whose first IF filter is at 1562 MHz, with an output and its bandwidth. -/
def driverSettings (fOut fOutBw : BitVec 32) : AvoidSpursData where
  nZones := 0
  freeZones := none
  usedZones := none
  exclZones := fun _ => ⟨0, 0, none⟩
  fRef := 16000000
  fIn := 0
  fLO1 := 0
  fIf1Center := 1562000000
  fIf1Request := 1562000000
  fIf1Bw := 22000000
  fLO2 := 0
  fOut := fOut
  fOutBw := fOutBw
  fLO1Step := 250000
  fLO2Step := 125000
  fLO1FracNAvoid := 0
  fLO2FracNAvoid := 199999
  fZifBw := 2000000
  maxH1 := 15
  avoidDECT := 3
  bSpurPresent := 0
  bSpurAvoided := 0
  nSpursFound := 0

/-- There is no spur behind a turn. -/
theorem loopCalls_quiet {x : AvoidSpursData × BitVec 32} (hturn : turn s zfIF1 fm fp = some x)
    (hquiet : isSpurInBand x.1 = some none) (fuel : ℕ) : loopCalls (fuel + 1) s zfIF1 fm fp = [x.1] := by
  unfold loopCalls
  rw [hturn]
  dsimp only
  rw [hquiet]

theorem avoided_start : (chooseLOs (driverSettings 43750000 6750000) 738000000).map (fun s =>
    (isSpurInBand (clearFound s), findSpur (clearFound s), decide (InBand (clearFound s) ⟨2, 3, .upper⟩))) =
      some (some (some (1875001, 4875001)), some (some ⟨2, 3, .upper⟩), true) := by
  decide +kernel

theorem avoided_turn : ((chooseLOs (driverSettings 43750000 6750000) 738000000).bind fun s =>
    (turn { clearFound s with bSpurPresent := 1 } (s.fLO1 - s.fIn) 1875001 4875001).map fun x => findSpur x.1) =
      some (some none) := by
  decide +kernel

/-- For the input 738 MHz and the output 43.75 MHz, a spur is found in the band, and avoided. -/
theorem endsWell_of_inBand_738 :
    ∃ s', chooseLOs (driverSettings 43750000 6750000) 738000000 = some s' ∧ EndsWell s' := by
  have hchannel : Channel (driverSettings 43750000 6750000) 738000000 := by
    refine ⟨⟨rfl, ?_, rfl, rfl, rfl, .inr rfl, rfl, rfl, rfl, rfl, ?_, ?_⟩, ⟨?_, ?_⟩, ?_⟩
    all_goals decide
  obtain ⟨s', hs', hends⟩ := endsWell_of_inBand hchannel
  have hstart := avoided_start
  have hnext := avoided_turn
  rw [hs'] at hstart hnext
  generalize (1875001 : BitVec 32) = fm at hstart hnext
  generalize (4875001 : BitVec 32) = fp at hstart hnext
  obtain ⟨hspur, hvalues⟩ := Prod.mk.inj (Option.some.inj hstart)
  obtain ⟨hfind, hband⟩ := Prod.mk.inj hvalues
  have hreport : ReportsInBand (clearFound s') := by
    intro p hp
    rw [← Option.some.inj (Option.some.inj (hfind.symm.trans hp))]
    exact of_decide_eq_true hband
  rw [Option.bind_some] at hnext
  obtain ⟨x, hturn, hnone⟩ := Option.map_eq_some_iff.mp hnext
  dsimp only at hturn
  have hquiet : isSpurInBand x.1 = some none := by
    unfold isSpurInBand
    rw [hnone]
    rfl
  refine ⟨s', hs', hends fun fuel u hu => ?_⟩
  unfold spurCalls at hu
  rw [hspur] at hu
  dsimp only at hu
  rcases List.mem_cons.mp hu with rfl | hu
  · exact hreport
  · cases fuel with
    | zero => exact absurd hu List.not_mem_nil
    | succ fuel =>
      rw [loopCalls_quiet hturn hquiet] at hu
      rw [List.mem_singleton.mp hu]
      intro p hp
      exact absurd (Option.some.inj (hnone.symm.trans hp)).symm (Option.some_ne_none p)

/-! ## A search that does not end -/

theorem chooseLoop_flags (b k : BitVec 32) (fuel : ℕ) (c : Choice) (a : Option ℕ) :
    chooseLoop { s with bSpurPresent := b, nSpursFound := k } fuel c a = chooseLoop s fuel c a := by
  induction fuel generalizing c a with
  | zero => cases a <;> rfl
  | succ fuel ih =>
    cases a with
    | none => rfl
    | some a => exact ih _ _

theorem chooseFirstIf_flags (b k : BitVec 32) :
    chooseFirstIf { s with bSpurPresent := b, nSpursFound := k } = chooseFirstIf s := by
  unfold chooseFirstIf
  rw [chooseLoop_flags]
  rfl

theorem spurLoop_flags (a b k : BitVec 32) {gd gc gf : BitVec 32} (fuel : ℕ) (n : BitVec 32) :
    spurLoop { s with bSpurPresent := b, bSpurAvoided := a, nSpursFound := k } gd gc gf fuel n =
      spurLoop s gd gc gf fuel n := by
  induction fuel generalizing n with
  | zero => rfl
  | succ fuel ih =>
    unfold spurLoop
    rw [ih]
    rfl

theorem isSpurInBand_flags (a b k : BitVec 32) :
    isSpurInBand { s with bSpurPresent := b, bSpurAvoided := a, nSpursFound := k } = isSpurInBand s := by
  have hfind : findSpur { s with bSpurPresent := b, bSpurAvoided := a, nSpursFound := k } = findSpur s := by
    unfold findSpur
    simp only [spurLoop_flags]
    rfl
  unfold isSpurInBand
  rw [hfind]
  rfl

/-- The zone of the last node is added once more. -/
theorem addZone_again {z : ZoneLists} {prev : Option ℕ} {a : ℕ}
    (hplace : findPlace z fMin MT2063_MAX_ZONES none z.usedZones = some (prev, some a))
    (hmin : (z.exclZones a).min = fMin) (hmax : (z.exclZones a).max = fMax) (hlt : fMin < fMax)
    (hnext : z.next a = none) : addZone z fMin fMax = some z := by
  have hcombine : combine z a fMin fMax = z := by
    unfold combine
    rw [hmin, if_neg (BitVec.lt_irrefl _)]
    dsimp only
    rw [hmax]
    exact if_neg (BitVec.lt_irrefl _)
  unfold addZone
  rw [hplace, Option.bind_some]
  unfold placeRange
  dsimp only
  rw [hmin, if_pos hlt, hcombine, Option.bind_some, hnext]
  rfl

/-- A turn that changes nothing is followed by the same turn. -/
theorem avoidLoop_stuck (hspur : isSpurInBand s = some (some (fm, fp))) (haccepts : Accepts s (zfIF1 - fm) (zfIF1 + fp))
    (hadd : addZone s.toZoneLists (zfIF1 - fm) (zfIF1 + fp) = some s.toZoneLists)
    (hchoice : chooseFirstIf s = some zfIF1) (hwithin : WithinFilter s zfIF1) (fuel : ℕ) (b k : BitVec 32) :
    avoidLoop fuel { s with bSpurPresent := b, nSpursFound := k } zfIF1 fm fp = none := by
  induction fuel generalizing b k with
  | zero => rfl
  | succ fuel ih =>
    have hzone : addExclZone { s with bSpurPresent := b, nSpursFound := k + 1 } (zfIF1 - fm) (zfIF1 + fp) =
        some { s with bSpurPresent := b, nSpursFound := k + 1 } := by
      unfold addExclZone
      refine (if_pos haccepts).trans ?_
      dsimp only
      rw [hadd]
      rfl
    have hturn : turn { s with bSpurPresent := b, nSpursFound := k } zfIF1 fm fp =
        some ({ s with bSpurPresent := b, nSpursFound := k + 1 }, zfIF1) := by
      unfold turn
      refine (congrArg (Option.bind · _) hzone).trans ?_
      rw [Option.bind_some, chooseFirstIf_flags, hchoice, Option.map_some, if_neg (BitVec.lt_irrefl _)]
      dsimp only
      rw [BitVec.sub_self, BitVec.sub_zero, BitVec.sub_zero]
    unfold avoidLoop
    rw [hturn, Option.bind_some, isSpurInBand_flags, hspur, Option.bind_some]
    exact (if_pos hwithin).trans (ih _ _)

/-- The state behind the first turn, for the input 675 MHz, the output 53.625 MHz and the bandwidth 4.999987 MHz. -/
def stuckTurn : Option (AvoidSpursData × BitVec 32) :=
  (chooseLOs (driverSettings 53625000 4999987) 675000000).bind fun s =>
    turn { clearFound s with bSpurPresent := 1 } (s.fLO1 - s.fIn) 4294967291 4999994

theorem channel_stuck : Channel (driverSettings 53625000 4999987) 675000000 := by
  refine ⟨⟨rfl, ?_, rfl, rfl, rfl, .inr rfl, rfl, rfl, rfl, rfl, ?_, ?_⟩, ⟨?_, ?_⟩, ?_⟩
  all_goals decide

theorem stuckTurn_start : (chooseLOs (driverSettings 53625000 4999987) 675000000).map (fun s =>
    (isSpurInBand s, s.maxH1)) = some (some (some (4294967291, 4999994)), 15) := by
  decide +kernel

theorem stuckTurn_values : stuckTurn.map (fun x => (x.2, isSpurInBand x.1, chooseFirstIf x.1,
    decide (WithinFilter x.1 1562000000 ∧ Accepts x.1 1562000005 1566999994))) =
      some (1562000000, some (some (4294967291, 4999994)), some 1562000000, true) := by
  decide +kernel

theorem stuckTurn_zone : stuckTurn.map (fun x =>
    (findPlace x.1.toZoneLists 1562000005 MT2063_MAX_ZONES none x.1.usedZones, (x.1.exclZones 2).min,
      (x.1.exclZones 2).max, x.1.next 2)) = some (some (some 1, some 2), 1562000005, 1566999994, none) := by
  decide +kernel

/-- The search does not end, for a difference of harmonics that is 6 Hz outside of the band.  `MT2063_Tune` accepts this
output and this bandwidth; the parameters that the driver itself passes are others. -/
theorem not_endsWell :
    ¬ ∀ s fIn s', Channel s fIn → s.fIf1Request = s.fIf1Center → chooseLOs s fIn = some s' → EndsWell s' := by
  intro hall
  obtain ⟨s', hs', hvalues⟩ := Option.map_eq_some_iff.mp stuckTurn_start
  obtain ⟨hspur, hmax⟩ := Prod.mk.inj hvalues
  have hturn : stuckTurn = turn { clearFound s' with bSpurPresent := 1 } (s'.fLO1 - s'.fIn) 4294967291 4999994 := by
    unfold stuckTurn
    rw [hs', Option.bind_some]
  obtain ⟨⟨u, zu⟩, hu, hvalues⟩ := Option.map_eq_some_iff.mp stuckTurn_values
  have hzone := stuckTurn_zone
  rw [hu] at hzone
  simp only [Option.map_some, Option.some.injEq, Prod.mk.injEq, decide_eq_true_eq] at hvalues hzone
  obtain ⟨rfl, huSpur, huChoice, hwithin, haccepts⟩ := hvalues
  obtain ⟨hplace, hmin, hmax', hnext⟩ := hzone
  have hlow : (1562000000 - 4294967291 : BitVec 32) = 1562000005 := by decide
  have hhigh : (1562000000 + 4999994 : BitVec 32) = 1566999994 := by decide
  have hadd := addZone_again hplace hmin hmax' (by decide) hnext
  obtain ⟨fuel, s'', status, havoid, -⟩ := hall _ _ s' channel_stuck rfl hs'
  have hfirst : isSpurInBand (clearFound s') = some (some (4294967291, 4999994)) := by
    have hflags := isSpurInBand_flags (s := s') 0 s'.bSpurPresent 0
    exact hflags.trans hspur
  unfold avoidSpurs at havoid
  rw [if_neg (by rw [hmax]; decide), hfirst, Option.bind_some] at havoid
  dsimp only at havoid
  have hnone :
      avoidLoop fuel { clearFound s' with bSpurPresent := 1 } (s'.fLO1 - s'.fIn) 4294967291 4999994 = none := by
    cases fuel with
    | zero => rfl
    | succ fuel =>
      unfold avoidLoop
      rw [← hturn, hu, Option.bind_some, huSpur, Option.bind_some]
      refine (if_pos hwithin).trans ?_
      refine avoidLoop_stuck huSpur ?_ ?_ huChoice hwithin fuel 1 u.nSpursFound
      · rw [hlow, hhigh]
        exact haccepts
      · rw [hlow, hhigh]
        exact hadd
  rw [hnone] at havoid
  exact absurd havoid.symm (Option.some_ne_none _)

/-! ## What every run leaves -/

theorem addExclZone_eq {u : AvoidSpursData} (h : addExclZone s fMin fMax = some u) :
    ∃ z, u = { s with toZoneLists := z } := by
  unfold addExclZone at h
  split at h
  · obtain ⟨z, -, rfl⟩ := Option.map_eq_some_iff.mp h
    exact ⟨z, rfl⟩
  · exact ⟨s.toZoneLists, (Option.some.inj h).symm⟩

/-- A turn keeps the distance of the oscillators. -/
theorem turn_apart {x : AvoidSpursData × BitVec 32} (h : turn s zfIF1 fm fp = some x) :
    x.1.fLO1 - x.1.fLO2 = s.fLO1 - s.fLO2 := by
  obtain ⟨u, hadd, hmap⟩ := Option.bind_eq_some_iff.mp h
  obtain ⟨f, -, rfl⟩ := Option.map_eq_some_iff.mp hmap
  obtain ⟨z, rfl⟩ := addExclZone_eq hadd
  dsimp only
  split
  · change s.fLO1 + (f - zfIF1) - (s.fLO2 + (f - zfIF1)) = _
    ring
  · change s.fLO1 - (zfIF1 - f) - (s.fLO2 - (zfIF1 - f)) = _
    ring

/-- A run of the loop keeps the distance, and without a spur at its end there is none in the band. -/
theorem avoidLoop_some (fuel : ℕ) (h : avoidLoop fuel s zfIF1 fm fp = some s') :
    s'.fLO1 - s'.fLO2 = s.fLO1 - s.fLO2 ∧ (s'.bSpurPresent = 1 ∨ isSpurInBand s' = some none) := by
  induction fuel generalizing s zfIF1 fm fp with
  | zero => exact absurd h.symm (Option.some_ne_none _)
  | succ fuel ih =>
    obtain ⟨x, hturn, h⟩ := Option.bind_eq_some_iff.mp h
    obtain ⟨r, hspur, h⟩ := Option.bind_eq_some_iff.mp h
    have hapart := turn_apart hturn
    cases r with
    | none =>
      obtain rfl := Option.some.inj h
      refine ⟨hapart, .inr ?_⟩
      exact (isSpurInBand_flags (s := x.1) x.1.bSpurAvoided 0 x.1.nSpursFound).trans hspur
    | some y =>
      dsimp only at h
      split at h
      · obtain ⟨hapart', hpresent⟩ := ih h
        exact ⟨hapart'.trans hapart, hpresent⟩
      · obtain rfl := Option.some.inj h
        exact ⟨hapart, .inl rfl⟩

/-- **Whatever the settings and the zones are**: behind a run the oscillators are apart by the same distance; they are
the ones from before if a spur is left, and else `IsSpurInBand` finds none. -/
theorem avoidSpurs_outcome (fuel : ℕ) (status : BitVec 32) (h : avoidSpurs fuel s = some (s', status)) :
    s'.fLO1 - s'.fLO2 = s.fLO1 - s.fLO2 ∧
      (status &&& MT2063_SPUR_PRESENT_ERR ≠ 0 → s'.fLO1 = s.fLO1 ∧ s'.fLO2 = s.fLO2) ∧
      (status &&& MT2063_SPUR_PRESENT_ERR = 0 → s.maxH1 ≠ 0 → isSpurInBand s' = some none) := by
  unfold avoidSpurs at h
  split at h
  · next hzero =>
    obtain ⟨rfl, rfl⟩ := Prod.mk.inj (Option.some.inj h)
    exact ⟨rfl, fun herr => absurd rfl herr, fun _ hmax => absurd hzero hmax⟩
  · obtain ⟨r, hspur, h⟩ := Option.bind_eq_some_iff.mp h
    cases r with
    | none =>
      obtain ⟨rfl, rfl⟩ := Prod.mk.inj (Option.some.inj h)
      refine ⟨rfl, fun herr => absurd rfl herr, fun _ _ => ?_⟩
      exact (isSpurInBand_flags (s := clearFound s) 0 0 0).trans hspur
    | some y =>
      obtain ⟨u, hloop, hfinish⟩ := Option.map_eq_some_iff.mp h
      obtain ⟨hapart, hpresent⟩ := avoidLoop_some fuel hloop
      obtain ⟨hkept, hrestored⟩ := finish_spec hfinish hapart
      refine ⟨hkept, hrestored, fun hnone _ => ?_⟩
      unfold finish at hfinish
      split at hfinish
      · obtain ⟨-, rfl⟩ := Prod.mk.inj hfinish
        have herr : MT2063_SPUR_PRESENT_ERR &&& MT2063_SPUR_PRESENT_ERR ≠ 0 := by decide
        have hcount := spurCount_and u
        refine absurd ?_ herr
        rw [← hnone]
        have hsplit : (MT2063_SPUR_PRESENT_ERR ||| spurCount u) &&& MT2063_SPUR_PRESENT_ERR =
            (MT2063_SPUR_PRESENT_ERR &&& MT2063_SPUR_PRESENT_ERR) ||| (spurCount u &&& MT2063_SPUR_PRESENT_ERR) := by
          ext i
          simp only [BitVec.getElem_and, BitVec.getElem_or, Bool.and_or_distrib_right]
        rw [hsplit, hcount]
        rfl
      · next hnot =>
        obtain ⟨rfl, -⟩ := Prod.mk.inj hfinish
        have hspur' := hpresent.resolve_left hnot
        exact (isSpurInBand_flags (s := u) 1 u.bSpurPresent u.nSpursFound).trans hspur'

theorem avoided_run : ((chooseLOs (driverSettings 43750000 6750000) 738000000).bind fun s =>
    avoidSpurs 3 s).map (fun x => x.2) = some 0x10000 := by
  decide +kernel

theorem avoidSpurs_outcome_738 : ∃ s s' status, avoidSpurs 3 s = some (s', status) ∧ status = 0x10000 ∧
    s'.fLO1 - s'.fLO2 = s.fLO1 - s.fLO2 ∧
    (status &&& MT2063_SPUR_PRESENT_ERR ≠ 0 → s'.fLO1 = s.fLO1 ∧ s'.fLO2 = s.fLO2) ∧
    (status &&& MT2063_SPUR_PRESENT_ERR = 0 → s.maxH1 ≠ 0 → isSpurInBand s' = some none) := by
  obtain ⟨⟨s', status⟩, hrun, hstatus⟩ := Option.map_eq_some_iff.mp avoided_run
  obtain ⟨s, -, havoid⟩ := Option.bind_eq_some_iff.mp hrun
  exact ⟨s, s', status, havoid, hstatus, avoidSpurs_outcome 3 status havoid⟩

end Mt2063
end TbsMedia
