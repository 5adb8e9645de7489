import Mathlib

/-!
# Matching under masks

A filter compares bytes with values under masks.  The bits under one mask have to be equal, and of those
under another one some bit has to differ.  Where only some of the bytes are known, they can be enough to
decide the match.

* `MaskMatch.Matches`: the match.
* `MaskMatch.Decided`: the known bytes decide it.
* `MaskMatch.matches_iff_of_decided`, `MaskMatch.exists_of_not_decided`: what that means.
* `MaskMatch.matches_iff_bits`: the match in terms of bits.
-/

namespace TbsMedia
namespace Lib

/-! ## Bits of bytes -/

theorem byte_eq_zero_iff (x : UInt8) : x = 0 ↔ ∀ b < 8, x.toBitVec.getLsbD b = false := by
  rw [← UInt8.toBitVec_inj]
  constructor
  · intro h b _
    rw [h]
    exact BitVec.getLsbD_zero
  · intro h
    refine BitVec.eq_of_getLsbD_eq fun b hb => ?_
    rw [h b hb]
    exact BitVec.getLsbD_zero.symm

/-- Under a mask a difference is nothing if the bits under the mask are the same. -/
theorem and_xor_eq_zero_iff (mask x y : UInt8) :
    mask &&& (x ^^^ y) = 0 ↔
      ∀ b < 8, mask.toBitVec.getLsbD b = true → y.toBitVec.getLsbD b = x.toBitVec.getLsbD b := by
  rw [byte_eq_zero_iff]
  refine forall₂_congr fun b _ => ?_
  rw [UInt8.toBitVec_and, UInt8.toBitVec_xor, BitVec.getLsbD_and, BitVec.getLsbD_xor]
  cases mask.toBitVec.getLsbD b <;> cases x.toBitVec.getLsbD b <;> cases y.toBitVec.getLsbD b <;> decide

/-! ## The match -/

/-- A comparison of bytes: the bits under `positive` have to be equal, and if it is `strict`, one of the bits
under `negative` has to differ. -/
structure MaskMatch (ι : Type*) where
  value : ι → UInt8
  positive : ι → UInt8
  negative : ι → UInt8
  strict : Prop

namespace MaskMatch

variable {ι : Type*} (f : MaskMatch ι) (K : Set ι) (s : ι → UInt8)

def Matches (x : ι → UInt8) : Prop :=
  (∀ i, f.positive i &&& (f.value i ^^^ x i) = 0) ∧
    (f.strict → ∃ i, f.negative i &&& (f.value i ^^^ x i) ≠ 0)

/-- The bytes at `K` decide the match: one of them is wrong, or a difference is missing and no other byte can
be one, or no other byte can be wrong and a difference is there if one is needed. -/
def Decided : Prop :=
  (∃ i ∈ K, f.positive i &&& (f.value i ^^^ s i) ≠ 0) ∨
    (f.strict ∧ (∀ i ∈ K, f.negative i &&& (f.value i ^^^ s i) = 0) ∧ ∀ i ∉ K, f.negative i = 0) ∨
    ((∀ i ∉ K, f.positive i = 0) ∧ (f.strict → ∃ i ∈ K, f.negative i &&& (f.value i ^^^ s i) ≠ 0))

variable {f K s}

/-- Where all bytes are known, the match is decided. -/
theorem decided_of_forall (h : ∀ i, i ∈ K) : f.Decided K s := by
  by_cases hwrong : ∃ i ∈ K, f.positive i &&& (f.value i ^^^ s i) ≠ 0
  · exact Or.inl hwrong
  by_cases hdiffers : f.strict → ∃ i ∈ K, f.negative i &&& (f.value i ^^^ s i) ≠ 0
  · exact Or.inr (Or.inr ⟨fun i hi => absurd (h i) hi, hdiffers⟩)
  · obtain ⟨hstrict, hsame⟩ := Classical.not_imp.mp hdiffers
    push Not at hsame
    exact Or.inr (Or.inl ⟨hstrict, hsame, fun i hi => absurd (h i) hi⟩)

/-- What is decided is the same for all bytes that agree on the known ones. -/
theorem matches_iff_of_decided (h : f.Decided K s) {x y : ι → UInt8} (hx : ∀ i ∈ K, x i = s i)
    (hy : ∀ i ∈ K, y i = s i) : f.Matches x ↔ f.Matches y := by
  -- it is enough to go one way, as the two are alike
  have himp : ∀ {x y : ι → UInt8}, (∀ i ∈ K, x i = s i) → (∀ i ∈ K, y i = s i) → f.Matches x → f.Matches y := by
    intro x y hx hy hmatch
    rcases h with ⟨i, hi, hwrong⟩ | ⟨hstrict, hsame, hrest⟩ | ⟨hrest, hdiffers⟩
    · rw [← hx i hi] at hwrong
      exact absurd (hmatch.1 i) hwrong
    · obtain ⟨i, hdiffer⟩ := hmatch.2 hstrict
      by_cases hi : i ∈ K
      · rw [hx i hi] at hdiffer
        exact absurd (hsame i hi) hdiffer
      · rw [hrest i hi, UInt8.zero_and] at hdiffer
        exact absurd rfl hdiffer
    · refine ⟨fun i => ?_, fun hstrict => ?_⟩
      · by_cases hi : i ∈ K
        · rw [hy i hi, ← hx i hi]
          exact hmatch.1 i
        · rw [hrest i hi, UInt8.zero_and]
      · obtain ⟨i, hi, hdiffer⟩ := hdiffers hstrict
        rw [← hy i hi] at hdiffer
        exact ⟨i, hdiffer⟩
  exact ⟨himp hx hy, himp hy hx⟩

open Classical in
/-- What is not decided can go either way. -/
theorem exists_of_not_decided (hdisjoint : ∀ i, f.positive i &&& f.negative i = 0) (h : ¬ f.Decided K s) :
    ∃ x y : ι → UInt8, (∀ i ∈ K, x i = s i) ∧ (∀ i ∈ K, y i = s i) ∧ f.Matches x ∧ ¬ f.Matches y := by
  unfold Decided at h
  push Not at h
  obtain ⟨hright, hopen, hnot⟩ := h
  have hcancel : ∀ v m : UInt8, v ^^^ (v ^^^ m) = m := fun v m => by
    rw [← UInt8.xor_assoc, UInt8.xor_self, UInt8.zero_xor]
  -- a match: the other bytes differ where they may
  have hmatch : f.Matches (K.piecewise s fun i => f.value i ^^^ f.negative i) := by
    refine ⟨fun i => ?_, fun hstrict => ?_⟩
    · by_cases hi : i ∈ K
      · rw [Set.piecewise_eq_of_mem _ _ _ hi]
        exact hright i hi
      · rw [Set.piecewise_eq_of_notMem _ _ _ hi, hcancel]
        exact hdisjoint i
    · by_cases hdiffers : ∃ i ∈ K, f.negative i &&& (f.value i ^^^ s i) ≠ 0
      · obtain ⟨i, hi, hdiffer⟩ := hdiffers
        refine ⟨i, ?_⟩
        rw [Set.piecewise_eq_of_mem _ _ _ hi]
        exact hdiffer
      · push Not at hdiffers
        obtain ⟨i, hi, hne⟩ := hopen hstrict hdiffers
        refine ⟨i, ?_⟩
        rw [Set.piecewise_eq_of_notMem _ _ _ hi, hcancel, UInt8.and_self]
        exact hne
  -- the other one: no byte differs if none can be wrong, and otherwise one is wrong
  have hother : ∃ r : ι → UInt8, ¬ f.Matches (K.piecewise s r) := by
    by_cases hfree : ∀ i ∉ K, f.positive i = 0
    · obtain ⟨hstrict, hsame⟩ := hnot hfree
      refine ⟨f.value, fun hother => ?_⟩
      obtain ⟨i, hdiffer⟩ := hother.2 hstrict
      by_cases hi : i ∈ K
      · rw [Set.piecewise_eq_of_mem _ _ _ hi] at hdiffer
        exact hdiffer (hsame i hi)
      · rw [Set.piecewise_eq_of_notMem _ _ _ hi, UInt8.xor_self, UInt8.and_zero] at hdiffer
        exact hdiffer rfl
    · push Not at hfree
      obtain ⟨i, hi, hne⟩ := hfree
      refine ⟨fun i => f.value i ^^^ f.positive i, fun hother => hne ?_⟩
      have hzero := hother.1 i
      rwa [Set.piecewise_eq_of_notMem _ _ _ hi, hcancel, UInt8.and_self] at hzero
  obtain ⟨r, hr⟩ := hother
  exact ⟨_, _, fun i hi => Set.piecewise_eq_of_mem _ _ _ hi, fun i hi => Set.piecewise_eq_of_mem _ _ _ hi, hmatch, hr⟩

/-- **The match in bits.** -/
theorem matches_iff_bits (x : ι → UInt8) :
    f.Matches x ↔
      (∀ i, ∀ b < 8, (f.positive i).toBitVec.getLsbD b = true →
          (x i).toBitVec.getLsbD b = (f.value i).toBitVec.getLsbD b) ∧
        (f.strict → ∃ i, ∃ b < 8, (f.negative i).toBitVec.getLsbD b = true ∧
          (x i).toBitVec.getLsbD b ≠ (f.value i).toBitVec.getLsbD b) := by
  unfold Matches
  refine and_congr (forall_congr' fun i => and_xor_eq_zero_iff ..) (imp_congr_right fun _ => exists_congr fun i => ?_)
  rw [Ne, and_xor_eq_zero_iff]
  push Not
  rfl

end MaskMatch

end Lib
end TbsMedia
