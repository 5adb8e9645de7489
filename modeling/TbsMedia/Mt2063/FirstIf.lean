import Mathlib
import TbsMedia.Mt2063.ExclZones

/-!
# The choice of the first intermediate frequency

`MT2063_ChooseFirstIF` takes the frequency that is wanted, unless it is in an exclusion zone, and else the one nearest
to the center of the filter, in steps.

* `chooseFirstIf`: the function.
* `chooseFirstIf_spec`: what it chooses for zones that are apart.
* `zones_and_choice`: the zones and the choice behind any sequence of calls.
-/

namespace TbsMedia
namespace Mt2063

open Lib Lib.LinkedList Lib.OpenIntervals

/-! ## The function -/

/-- `f_Desired`. -/
def fDesired (s : AvoidSpursData) : BitVec 32 :=
  s.fLO1Step * ((s.fIf1Request + s.fIn + s.fLO1Step / 2) / s.fLO1Step) - s.fIn

/-- `f_Step`. -/
def fStep (s : AvoidSpursData) : BitVec 32 := if s.fLO1Step > s.fLO2Step then s.fLO1Step else s.fLO2Step

/-- `f_Center`. -/
def fCenter (s : AvoidSpursData) : BitVec 32 :=
  if s.fIf1Center > fDesired s then
    fDesired s + fStep s * ((s.fIf1Center - fDesired s + fStep s / 2) / fStep s)
  else fDesired s - fStep s * ((fDesired s - s.fIf1Center + fStep s / 2) / fStep s)

/-- The macro `floor`. -/
def floorQuot (n d : ℤ) : ℤ := if n < 0 then -((-n).tdiv d) - (if n.tmod d ≠ 0 then 1 else 0) else n.tdiv d

/-- The macro `ceil`. -/
def ceilQuot (n d : ℤ) : ℤ := if n < 0 then -((-n).tdiv d) else n.tdiv d + (if n.tmod d ≠ 0 then 1 else 0)

/-- `tmpMin` and `tmpMax` of a zone. -/
def inSteps (s : AvoidSpursData) (a : ℕ) : ℤ × ℤ :=
  (floorQuot ((s.exclZones a).min - fCenter s).toInt (fStep s).toInt,
    ceilQuot ((s.exclZones a).max - fCenter s).toInt (fStep s).toInt)

/-- What the loop keeps; the last zone comes first. -/
structure Choice where
  zones : List (ℤ × ℤ)
  bDesiredExcluded : Bool
  bZeroExcluded : Bool

/-- The body of the loop. -/
def Choice.visit (c : Choice) (s : AvoidSpursData) (a : ℕ) : Choice where
  zones := join c.zones (inSteps s a)
  bDesiredExcluded :=
    c.bDesiredExcluded || decide ((s.exclZones a).min < fDesired s ∧ (s.exclZones a).max > fDesired s)
  bZeroExcluded := c.bZeroExcluded || decide ((inSteps s a).1 < 0 ∧ (inSteps s a).2 > 0)

/-- The loop; `none` if the list does not end. -/
def chooseLoop (s : AvoidSpursData) : ℕ → Choice → Option ℕ → Option Choice
  | _, c, none => some c
  | 0, _, some _ => none
  | fuel + 1, c, some a => chooseLoop s fuel (c.visit s a) (s.next a)

/-- A better value for `bestDiff`. -/
def better (best x : ℤ) : ℤ := if |x| < |best| then x else best

/-- `bestDiff`. -/
def bestDiff (zones : List (ℤ × ℤ)) : ℤ :=
  zones.foldl (fun best z => better (better best z.1) z.2) (zones.headD (0, 0)).1

/-- `MT2063_ChooseFirstIF`; `none` if it divides by zero. -/
def chooseFirstIf (s : AvoidSpursData) : Option (BitVec 32) :=
  if s.fLO1Step = 0 then none
  else if s.nZones = 0 then some (fDesired s)
  else
    (chooseLoop s MT2063_MAX_ZONES ⟨[], false, false⟩ s.usedZones).map fun c =>
      if c.bDesiredExcluded = false then fDesired s
      else if c.bZeroExcluded = false then fCenter s
      else
        let best := bestDiff c.zones.reverse
        if best < 0 then fCenter s - BitVec.ofInt 32 (-best) * fStep s
        else fCenter s + BitVec.ofInt 32 best * fStep s

/-! ## Quotients -/

theorem neg_ediv_eq {m d : ℤ} (hd : 0 < d) : -m / d = -(m / d) - if m % d = 0 then 0 else 1 := by
  rw [Int.neg_ediv, Int.sign_eq_one_of_pos hd]
  by_cases hdvd : d ∣ m
  · rw [if_pos hdvd, if_pos (Int.emod_eq_zero_of_dvd hdvd)]
  · rw [if_neg hdvd, if_neg fun h => hdvd (Int.dvd_of_emod_eq_zero h)]

theorem floorQuot_eq {n d : ℤ} (hd : 0 < d) : floorQuot n d = n / d := by
  unfold floorQuot
  by_cases hn : n < 0
  · rw [if_pos hn]
    obtain ⟨m, rfl⟩ : ∃ m : ℤ, n = -m := ⟨-n, (neg_neg n).symm⟩
    rw [neg_neg, Int.neg_tmod, Int.tdiv_eq_ediv_of_nonneg (by omega), Int.tmod_eq_emod_of_nonneg (by omega),
      neg_ediv_eq hd]
    by_cases hzero : m % d = 0
    · rw [hzero, if_pos rfl, neg_zero, if_neg (not_not.mpr rfl)]
    · rw [if_neg hzero, if_pos (neg_ne_zero.mpr hzero)]
  · rw [if_neg hn, Int.tdiv_eq_ediv_of_nonneg (not_lt.mp hn)]

theorem ceilQuot_eq {n d : ℤ} (hd : 0 < d) : ceilQuot n d = -(-n / d) := by
  unfold ceilQuot
  by_cases hn : n < 0
  · rw [if_pos hn, Int.tdiv_eq_ediv_of_nonneg (by omega)]
  · rw [if_neg hn, Int.tdiv_eq_ediv_of_nonneg (not_lt.mp hn), Int.tmod_eq_emod_of_nonneg (not_lt.mp hn),
      neg_ediv_eq hd]
    by_cases hzero : n % d = 0
    · rw [if_neg (not_not.mpr hzero), if_pos hzero]
      omega
    · rw [if_pos hzero, if_neg hzero]
      omega

/-- A difference of frequencies below `2 ^ 31`, as a signed number. -/
theorem toInt_sub_of_lt {x y : BitVec 32} (hx : x.toNat < 2 ^ 31) (hy : y.toNat < 2 ^ 31) :
    (x - y).toInt = (x.toNat : ℤ) - y.toNat := by
  rw [BitVec.toInt_eq_toNat_cond, BitVec.toNat_sub]
  split <;> omega

theorem toInt_of_lt {x : BitVec 32} (hx : x.toNat < 2 ^ 31) : x.toInt = x.toNat := by
  rw [BitVec.toInt_eq_toNat_cond]
  split <;> omega

/-! ## The search -/

/-- The nearest to zero of the ends so far. -/
structure BestOf (zs : List (ℤ × ℤ)) (best : ℤ) : Prop where
  mem : ∃ y ∈ zs, best = y.1 ∨ best = y.2
  le : ∀ y ∈ zs, |best| ≤ |y.1| ∧ |best| ≤ |y.2|

theorem better_cases (best x : ℤ) : (better best x = x ∨ better best x = best) ∧
    |better best x| ≤ |x| ∧ |better best x| ≤ |best| := by
  unfold better
  split
  · next h => exact ⟨.inl rfl, le_rfl, h.le⟩
  · next h => exact ⟨.inr rfl, not_lt.mp h, le_rfl⟩

/-- Every end is compared. -/
theorem foldl_better_spec (zs : List (ℤ × ℤ)) (best : ℤ) :
    |zs.foldl (fun best z => better (better best z.1) z.2) best| ≤ |best| ∧
      (zs.foldl (fun best z => better (better best z.1) z.2) best = best ∨
        ∃ y ∈ zs, zs.foldl (fun best z => better (better best z.1) z.2) best = y.1 ∨
          zs.foldl (fun best z => better (better best z.1) z.2) best = y.2) ∧
      ∀ y ∈ zs, |zs.foldl (fun best z => better (better best z.1) z.2) best| ≤ |y.1| ∧
        |zs.foldl (fun best z => better (better best z.1) z.2) best| ≤ |y.2| := by
  induction zs generalizing best with
  | nil => exact ⟨le_rfl, .inl rfl, fun y hy => absurd hy List.not_mem_nil⟩
  | cons z zs ih =>
    obtain ⟨hvalue₁, hlower, hbest₁⟩ := better_cases best z.1
    obtain ⟨hvalue₂, hupper, hbest₂⟩ := better_cases (better best z.1) z.2
    rw [List.foldl_cons]
    obtain ⟨hle, hmem, hall⟩ := ih (better (better best z.1) z.2)
    refine ⟨hle.trans (hbest₂.trans hbest₁), ?_, fun y hy => ?_⟩
    · rcases hmem with hmem | ⟨y, hy, hmem⟩
      · rw [hmem]
        rcases hvalue₂ with hvalue₂ | hvalue₂
        · exact .inr ⟨z, List.mem_cons_self, .inr hvalue₂⟩
        · rw [hvalue₂]
          rcases hvalue₁ with hvalue₁ | hvalue₁
          · exact .inr ⟨z, List.mem_cons_self, .inl hvalue₁⟩
          · exact .inl hvalue₁
      · exact .inr ⟨y, List.mem_cons_of_mem z hy, hmem⟩
    · rcases List.mem_cons.mp hy with rfl | hy
      · exact ⟨hle.trans (hbest₂.trans hlower), hle.trans hupper⟩
      · exact hall y hy

theorem bestOf_bestDiff {zs : List (ℤ × ℤ)} (hne : zs ≠ []) : BestOf zs (bestDiff zs) := by
  obtain ⟨hle, hmem, hall⟩ := foldl_better_spec zs (zs.headD (0, 0)).1
  obtain ⟨z, zs, rfl⟩ := List.exists_cons_of_ne_nil hne
  refine ⟨?_, hall⟩
  rcases hmem with hmem | hmem
  · exact ⟨z, List.mem_cons_self, .inl hmem⟩
  · exact hmem

/-! ## The loop -/

variable {s : AvoidSpursData} {used free : List ℕ} {accepted : List (BitVec 32 × BitVec 32)}

/-- The loop goes through the used zones. -/
theorem chooseLoop_spec {fuel : ℕ} {c : Choice} (hlinks : Leads s.next none used) (hfuel : used.length ≤ fuel) :
    ∃ c', chooseLoop s fuel c (first none used) = some c' ∧
      c'.zones = coalesce c.zones (used.map (inSteps s)) ∧
      (c'.bDesiredExcluded = true ↔ c.bDesiredExcluded = true ∨
        ∃ a ∈ used, (s.exclZones a).min < fDesired s ∧ (s.exclZones a).max > fDesired s) ∧
      (c'.bZeroExcluded = true ↔ c.bZeroExcluded = true ∨
        ∃ a ∈ used, (inSteps s a).1 < 0 ∧ (inSteps s a).2 > 0) := by
  induction used generalizing c fuel with
  | nil =>
    have hempty : ∀ {P : ℕ → Prop}, ¬ ∃ a ∈ ([] : List ℕ), P a := fun h => by
      obtain ⟨a, ha, -⟩ := h
      exact absurd ha List.not_mem_nil
    refine ⟨c, ?_, rfl, ⟨.inl, fun h => h.resolve_right hempty⟩, ⟨.inl, fun h => h.resolve_right hempty⟩⟩
    cases fuel <;> rfl
  | cons a used ih =>
    obtain ⟨fuel, rfl⟩ : ∃ n, fuel = n + 1 := ⟨fuel - 1, by rw [List.length_cons] at hfuel; omega⟩
    obtain ⟨c', hloop, hzones, hdesired, hzero⟩ := ih (c := c.visit s a) hlinks.2 (Nat.le_of_succ_le_succ hfuel)
    rw [← hlinks.1] at hloop
    refine ⟨c', hloop, hzones, hdesired.trans ?_, hzero.trans ?_⟩
    · change (c.bDesiredExcluded || decide _) = true ∨ _ ↔ _
      rw [Bool.or_eq_true, decide_eq_true_iff, List.exists_mem_cons_iff, or_assoc]
    · change (c.bZeroExcluded || decide _) = true ∨ _ ↔ _
      rw [Bool.or_eq_true, decide_eq_true_iff, List.exists_mem_cons_iff, or_assoc]

/-! ## What is chosen -/

/-- The zones of the used nodes. -/
def zonesOf (s : AvoidSpursData) (used : List ℕ) : List (ℤ × ℤ) := used.map (zoneAt s.toZoneLists)

/-- The settings are in order: the steps are not zero, and the steps and the center are below `2 ^ 31`. -/
structure InRange (s : AvoidSpursData) : Prop where
  stepPos : s.fLO1Step ≠ 0
  step : (fStep s).toNat < 2 ^ 31
  center : (fCenter s).toNat < 2 ^ 31

theorem InRange.fStep_pos (h : InRange s) : 0 < ((fStep s).toNat : ℤ) := by
  have hne : 0 < s.fLO1Step.toNat := Nat.pos_of_ne_zero fun hz => h.stepPos (BitVec.eq_of_toNat_eq hz)
  unfold fStep
  split
  · exact_mod_cast hne
  · next hle =>
    have hle' : s.fLO1Step.toNat ≤ s.fLO2Step.toNat := Nat.le_of_not_lt hle
    exact_mod_cast hne.trans_le hle'

/-- A zone in steps. -/
theorem inSteps_eq (h : InRange s) {a : ℕ} (hlt : (zoneAt s.toZoneLists a).1 < (zoneAt s.toZoneLists a).2)
    (hbound : (zoneAt s.toZoneLists a).2 < 2 ^ 31) :
    inSteps s a = inStepsFrom (fCenter s).toNat (fStep s).toNat (zoneAt s.toZoneLists a) := by
  have hpos := h.fStep_pos
  have hmax : (s.exclZones a).max.toNat < 2 ^ 31 := by
    have hcast : ((s.exclZones a).max.toNat : ℤ) < 2 ^ 31 := hbound
    exact_mod_cast hcast
  have hmin : (s.exclZones a).min.toNat < 2 ^ 31 := by
    have hcast : ((s.exclZones a).min.toNat : ℤ) < 2 ^ 31 := hlt.trans hbound
    exact_mod_cast hcast
  unfold inSteps
  rw [toInt_sub_of_lt hmin h.center, toInt_sub_of_lt hmax h.center, toInt_of_lt h.step, floorQuot_eq hpos,
    ceilQuot_eq hpos]
  rfl

/-- Whether a frequency is excluded, as the loop finds out. -/
theorem excluded_iff (f : BitVec 32) :
    (∃ a ∈ used, (s.exclZones a).min < f ∧ (s.exclZones a).max > f) ↔ ¬ Outside (zonesOf s used) f.toNat := by
  unfold Outside zonesOf
  rw [List.forall_mem_map]
  push Not
  exact exists_congr fun a => and_congr_right fun _ => and_congr (lt_iff_toNat _ _) (lt_iff_toNat _ _)

theorem ofInt_toNat (x : BitVec 32) : BitVec.ofInt 32 x.toNat = x := by
  rw [BitVec.ofInt_natCast, BitVec.ofNat_toNat, BitVec.setWidth_eq]

/-- The value that is returned for `bestDiff`. -/
theorem ofInt_best (center step : BitVec 32) (best : ℤ) :
    (if best < 0 then center - BitVec.ofInt 32 (-best) * step else center + BitVec.ofInt 32 best * step) =
      BitVec.ofInt 32 (center.toNat + best * step.toNat) := by
  rw [BitVec.ofInt_add, BitVec.ofInt_mul, ofInt_toNat, ofInt_toNat]
  split
  · rw [BitVec.ofInt_neg, BitVec.neg_mul, BitVec.sub_eq_add_neg, BitVec.neg_neg]
  · rfl

/-- **The choice**: the frequency that is wanted, unless it is strictly inside a zone; else the point of the grid that
is nearest to the center, of those strictly inside no zone, as a number of 32 bits. -/
theorem chooseFirstIf_spec (h : InRange s) (hlinked : Linked s.toZoneLists used free)
    (hapart : Apart (zonesOf s used)) (hbound : ∀ z ∈ zonesOf s used, z.2 < 2 ^ 31) :
    (Outside (zonesOf s used) (fDesired s).toNat → chooseFirstIf s = some (fDesired s)) ∧
      (¬ Outside (zonesOf s used) (fDesired s).toNat → ∃ k : ℤ,
        chooseFirstIf s = some (BitVec.ofInt 32 ((fCenter s).toNat + k * (fStep s).toNat)) ∧
        Outside (zonesOf s used) ((fCenter s).toNat + k * (fStep s).toNat) ∧
        ∀ k' : ℤ, Outside (zonesOf s used) ((fCenter s).toNat + k' * (fStep s).toNat) → |k| ≤ |k'|) := by
  have hpos := h.fStep_pos
  have hlength : used.length ≤ MT2063_MAX_ZONES := (Nat.le_add_right _ _).trans hlinked.room
  have hout := fun k : ℤ => outside_inStepsFrom (zonesOf s used) (fCenter s).toNat (k := k) hpos
  unfold chooseFirstIf
  rw [if_neg h.stepPos]
  by_cases hcount : s.nZones = 0
  · have hempty : used = [] := List.eq_nil_of_length_eq_zero (by rw [← hlinked.count, hcount]; rfl)
    rw [hempty]
    exact ⟨fun _ => if_pos hcount, fun hnot => absurd outside_nil hnot⟩
  · rw [if_neg hcount]
    obtain ⟨c, hloop, hzones, hdesired, hzero⟩ := chooseLoop_spec (c := ⟨[], false, false⟩) hlinked.usedLinks hlength
    rw [← hlinked.usedZones] at hloop
    have hmap : used.map (inSteps s) = (zonesOf s used).map (inStepsFrom (fCenter s).toNat (fStep s).toNat) := by
      unfold zonesOf
      rw [List.map_map]
      refine List.map_congr_left fun a ha => ?_
      exact inSteps_eq h (hapart.proper _ (List.mem_map_of_mem ha)) (hbound _ (List.mem_map_of_mem ha))
    have hstairs := staircase_inStepsFrom (fCenter s).toNat hpos hapart
    obtain ⟨hjoined, hcovers⟩ := coalesce_spec [] apart_nil hstairs fun r hr => by cases hr
    rw [hmap] at hzones
    rw [← hzones] at hjoined hcovers
    have hcovers' : ∀ k, Outside c.zones k ↔ Outside (zonesOf s used) ((fCenter s).toNat + k * (fStep s).toNat) :=
      fun k => (hcovers k).trans ((and_iff_right outside_nil).trans (hout k))
    have hdesired' : c.bDesiredExcluded = true ↔ ¬ Outside (zonesOf s used) (fDesired s).toNat :=
      hdesired.trans ((or_iff_right Bool.false_ne_true).trans (excluded_iff _))
    have hzero' : c.bZeroExcluded = true ↔ ¬ Outside c.zones 0 := by
      refine hzero.trans ((or_iff_right Bool.false_ne_true).trans ?_)
      rw [hcovers 0, and_iff_right outside_nil, ← hmap]
      unfold Outside
      rw [List.forall_mem_map]
      push Not
      rfl
    rw [hloop]
    constructor
    · intro hd
      have hfalse : c.bDesiredExcluded = false := Bool.eq_false_of_not_eq_true fun ht => hdesired'.mp ht hd
      exact congrArg some (if_pos hfalse)
    · intro hd
      have htrue := hdesired'.mpr hd
      by_cases hz : c.bZeroExcluded = true
      · have hnot := hzero'.mp hz
        unfold Outside at hnot
        push Not at hnot
        obtain ⟨z, hz', hcovered⟩ := hnot
        have hne : c.zones.reverse ≠ [] := fun hnil => by
          rw [List.reverse_eq_nil_iff.mp hnil] at hz'
          exact absurd hz' List.not_mem_nil
        obtain ⟨hmem, hle⟩ := bestOf_bestDiff hne
        obtain ⟨houtside, hnearest⟩ := nearest_end hjoined (List.mem_reverse.mpr hz') hcovered hmem hle
        have hreverse : ∀ k, Outside c.zones.reverse k ↔ Outside c.zones k :=
          fun k => forall_congr' fun y => by rw [List.mem_reverse]
        refine ⟨bestDiff c.zones.reverse, ?_, (hcovers' _).mp ((hreverse _).mp houtside),
          fun k' hk' => hnearest k' ((hreverse k').mpr ((hcovers' k').mpr hk'))⟩
        refine congrArg some ((if_neg ?_).trans ((if_neg ?_).trans (ofInt_best _ _ _)))
        · rw [htrue]
          exact Bool.noConfusion
        · rw [hz]
          exact Bool.noConfusion
      · refine ⟨0, ?_, (hcovers' 0).mp (not_not.mp fun hnot => hz (hzero'.mpr hnot)), fun k' _ => ?_⟩
        · rw [zero_mul, add_zero]
          refine congrArg some ((if_neg ?_).trans ((if_pos (Bool.eq_false_of_not_eq_true hz)).trans ?_))
          · rw [htrue]
            exact Bool.noConfusion
          · exact (ofInt_toNat _).symm
        · rw [abs_zero]
          exact abs_nonneg k'

/-! ## Sequences of calls -/

/-- A call, or new values for the members that are not part of the zones. -/
inductive ZoneCall
  | set (t : AvoidSpursData)
  | reset
  | add (fMin fMax : BitVec 32)

/-- The structure, with the ranges that were accepted since the last reset. -/
abbrev Noted := AvoidSpursData × List (BitVec 32 × BitVec 32)

/-- A call; `none` when more nodes are needed than there are, or when a reset divides by zero or does not end. -/
def callStep (x : Noted) : ZoneCall → Option Noted
  | .set t => some ({ t with toZoneLists := x.1.toZoneLists }, x.2)
  | .reset => (resetExclZones x.1).map fun s =>
      (s, ((resetCalls x.1).getD []).filter fun r => Accepts (clearZones x.1) r.1 r.2)
  | .add fMin fMax => (addExclZone x.1 fMin fMax).map fun s =>
      (s, if Accepts x.1 fMin fMax then (fMin, fMax) :: x.2 else x.2)

theorem Held.of_mem (h : Held s accepted used free) {accepted' : List (BitVec 32 × BitVec 32)}
    (hmem : ∀ r, r ∈ accepted' ↔ r ∈ accepted) : Held s accepted' used free where
  linked := h.linked
  apart := h.apart
  covered := fun r hr => h.covered r ((hmem r).mp hr)
  ends := fun y hy =>
    ⟨(h.ends y hy).1.imp fun r hr => ⟨(hmem r).mpr hr.1, hr.2⟩,
      (h.ends y hy).2.imp fun r hr => ⟨(hmem r).mpr hr.1, hr.2⟩⟩

/-- Every call keeps the zones in order. -/
theorem held_callStep {x y : Noted} {e : ZoneCall} (hx : ∃ used free, Held x.1 x.2 used free)
    (hstep : callStep x e = some y) : ∃ used free, Held y.1 y.2 used free := by
  obtain ⟨used, free, h⟩ := hx
  cases e with
  | set t =>
    obtain rfl := Option.some.inj hstep
    exact ⟨used, free, h.congr rfl⟩
  | reset =>
    obtain ⟨s', hs', rfl⟩ := Option.map_eq_some_iff.mp hstep
    obtain ⟨calls, hcalls, hrun⟩ := Option.bind_eq_some_iff.mp hs'
    obtain ⟨z, accepted', used', free', -, hheld, hmem⟩ := addRanges_spec (held_clearZones x.1) hrun
    refine ⟨used', free', hheld.of_mem fun r => ?_⟩
    rw [hmem r, hcalls, Option.getD_some, List.mem_filter, decide_eq_true_iff]
    exact (or_iff_right List.not_mem_nil).symm
  | add fMin fMax =>
    obtain ⟨s', hs', rfl⟩ := Option.map_eq_some_iff.mp hstep
    rcases addExclZone_spec h fMin fMax with ⟨hnone, -⟩ | ⟨z, used', free', hadd, hheld, -⟩
    · exact absurd (hnone.symm.trans hs') (Option.some_ne_none s').symm
    · obtain rfl := Option.some.inj (hadd.symm.trans hs')
      exact ⟨used', free', hheld⟩

/-- The frequency that is wanted, unless it is strictly inside a zone; else the point of the grid strictly inside no
zone that is nearest to the center, as a number of 32 bits. -/
structure ChoosesNearest (s : AvoidSpursData) (zones : List (ℤ × ℤ)) : Prop where
  desired : Outside zones (fDesired s).toNat → chooseFirstIf s = some (fDesired s)
  nearest : ¬ Outside zones (fDesired s).toNat → ∃ k : ℤ,
    chooseFirstIf s = some (BitVec.ofInt 32 ((fCenter s).toNat + k * (fStep s).toNat)) ∧
    Outside zones ((fCenter s).toNat + k * (fStep s).toNat) ∧
    ∀ k' : ℤ, Outside zones ((fCenter s).toNat + k' * (fStep s).toNat) → |k| ≤ |k'|

/-- **The zones and the choice behind any sequence of calls** that has nodes for all its zones: the used zones are in
order and apart from each other, the nodes are different entries of the array, every range that was accepted lies
within a zone, and with frequencies below `2 ^ 31` the choice is the nearest one that is free.  A further range finds
no node only when all of them are used. -/
theorem zones_and_choice (s₀ : AvoidSpursData) {calls : List ZoneCall} {y : Noted}
    (hrun : run callStep (clearZones s₀, []) calls = some y) :
    ∃ used free, Held y.1 y.2 used free ∧ (used ++ free).Nodup ∧ (∀ a ∈ used ++ free, a < MT2063_MAX_ZONES) ∧
      (∀ fMin fMax, addExclZone y.1 fMin fMax = none → y.1.nZones.toNat = MT2063_MAX_ZONES) ∧
      (InRange y.1 → (∀ r ∈ y.2, r.2.toNat < 2 ^ 31) → ChoosesNearest y.1 (zonesOf y.1 used)) := by
  obtain ⟨used, free, h⟩ := run_inv (I := fun x : Noted => ∃ used free, Held x.1 x.2 used free)
    (fun x e y hx hstep => held_callStep hx hstep) ⟨[], [], held_clearZones s₀⟩ hrun
  refine ⟨used, free, h, h.linked.nodup, fun a ha => ?_, fun fMin fMax hnone => ?_, fun hrange hbound => ?_⟩
  · have hlt := List.mem_range.mp (h.linked.entries.mem_iff.mp ha)
    exact hlt.trans_le h.linked.room
  · rcases addExclZone_spec h fMin fMax with ⟨-, hfull⟩ | ⟨z, used', free', hadd, -⟩
    · exact h.linked.count.trans hfull
    · exact absurd (hnone.symm.trans hadd).symm (Option.some_ne_none _)
  · obtain ⟨hdesired, hnearest⟩ := chooseFirstIf_spec hrange h.linked h.apart fun z hz => by
      obtain ⟨r, hr, hupper⟩ := (h.ends z hz).2
      rw [hupper]
      exact Int.ofNat_lt.mpr (hbound r hr)
    exact ⟨hdesired, hnearest⟩

/-- Settings with a grid of 60 around 100. -/
def coarseGrid : AvoidSpursData where
  nZones := 0
  freeZones := none
  usedZones := none
  exclZones := fun _ => ⟨0, 0, none⟩
  fRef := 16
  fIn := 20
  fLO1 := 0
  fIf1Center := 100
  fIf1Request := 100
  fIf1Bw := 200
  fLO2 := 0
  fOut := 0
  fOutBw := 0
  fLO1Step := 60
  fLO2Step := 50
  fLO1FracNAvoid := 0
  fLO2FracNAvoid := 0
  fZifBw := 0
  maxH1 := 15
  avoidDECT := 0
  bSpurPresent := 0
  bSpurAvoided := 0
  nSpursFound := 0

theorem isSome_three :
    (run callStep (clearZones coarseGrid, []) [.add 50 90, .add 110 180, .add 80 120]).isSome = true := by
  decide +kernel

/-- Three ranges, of which the last one joins the first two. -/
def joinedRanges : Noted :=
  (run callStep (clearZones coarseGrid, []) [.add 50 90, .add 110 180, .add 80 120]).get isSome_three

theorem run_three :
    run callStep (clearZones coarseGrid, []) [.add 50 90, .add 110 180, .add 80 120] = some joinedRanges := by
  unfold joinedRanges
  rw [Option.some_get]

theorem inRange_joinedRanges : InRange joinedRanges.1 := by
  have hstep : fStep joinedRanges.1 = 60 := by decide +kernel
  have hcenter : fCenter joinedRanges.1 = 100 := by decide +kernel
  refine ⟨by decide +kernel, ?_, ?_⟩
  · rw [hstep]
    decide
  · rw [hcenter]
    decide

theorem zones_and_choice_three :
    ∃ used free, Held joinedRanges.1 joinedRanges.2 used free ∧
      ChoosesNearest joinedRanges.1 (zonesOf joinedRanges.1 used) := by
  have hranges : joinedRanges.2 = [(80, 120), (110, 180), (50, 90)] := by decide +kernel
  obtain ⟨used, free, hheld, -, -, -, hchooses⟩ := zones_and_choice coarseGrid run_three
  refine ⟨used, free, hheld, hchooses inRange_joinedRanges fun r hr => ?_⟩
  rw [hranges] at hr
  simp only [List.mem_cons, List.not_mem_nil, or_false] at hr
  rcases hr with rfl | rfl | rfl
  · decide
  · decide
  · decide

/-- The nearest point of the grid is below zero, and comes back as another number. -/
theorem not_choosesNearest_below :
    (run callStep (clearZones coarseGrid, []) [.add 0 1000]).map
        (fun y => (fCenter y.1, fStep y.1, y.2, chooseFirstIf y.1)) =
      some (100, 60, [(0, 1000)], some 4294967276) ∧ ¬ ∃ k : ℤ, (4294967276 : ℤ) = 100 + k * 60 := by
  refine ⟨by decide +kernel, ?_⟩
  rintro ⟨k, hk⟩
  omega

end Mt2063
end TbsMedia
