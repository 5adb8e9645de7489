import Mathlib
import TbsMedia.Lib.Grid
import TbsMedia.Uvc.BitFields

/-!
# Setting a UVC integer control

`uvc_ctrl_set` brings the value of an integer control onto the grid that the device reports, and into its range.

* `uvcCtrlSetInteger`: the case of the integer controls, with the variables it goes through.
* `setsNearest_iff`: the value is a closest one of the grid, or the maximum, and nothing wraps, exactly for a request
  that is not below the minimum and has room for half a step.
-/

namespace TbsMedia
namespace Uvc

open Lib.Grid

/-! ## The code -/

/-- The data of a control that the case reads. -/
structure UvcControlData where
  min : List UInt8
  max : List UInt8
  res : List UInt8

/-- `UVC_GET_…`. -/
inductive UvcQuery where
  | getMin
  | getMax
  | getRes
  deriving DecidableEq

/-- The values of the variables: the distance from the minimum, half a step above it, the multiple of the step, the
value on the grid, and the clamped value. -/
structure Rounding where
  diff : BitVec 32
  sum : BitVec 32
  multiple : BitVec 32
  total : BitVec 32
  value : BitVec 32
  deriving DecidableEq

/-- A variable of 32 bits, read in the signedness of a mapping. -/
def reading (signed : Bool) (x : BitVec 32) : ℤ := if signed then x.toInt else x.toNat

/-- `clamp`, and `clamp_t` of `u32`. -/
def clampAs (signed : Bool) (x lo hi : BitVec 32) : BitVec 32 :=
  let raised := if reading signed lo < reading signed x then x else lo
  if reading signed raised < reading signed hi then raised else hi

/-- The rounding of a value. -/
def roundValue (signed : Bool) (min max step value : BitVec 32) : Rounding :=
  let step := if step = 0 then 1 else step
  let diff := value - min
  let sum := diff + step / 2
  let multiple := sum / step * step
  let total := min + multiple
  ⟨diff, sum, multiple, total, clampAs signed total min max⟩

/-- `uvc_ctrl_set` for `V4L2_CTRL_TYPE_INTEGER`, with the accessor `mapping->get`. -/
def uvcCtrlSetInteger (get : UvcControlMapping → UvcQuery → List UInt8 → Option (BitVec 32))
    (mapping : UvcControlMapping) (ctrl : UvcControlData) (value : BitVec 32) : Option Rounding := do
  let min ← get mapping .getMin ctrl.min
  let max ← get mapping .getMax ctrl.max
  let step ← get mapping .getRes ctrl.res
  return roundValue (mapping.dataType = .signed) min max step value

/-- The accessor that a mapping has unless it brings its own. -/
def getLeValue (mapping : UvcControlMapping) (_ : UvcQuery) (data : List UInt8) : Option (BitVec 32) :=
  (uvcGetLeValue mapping data).map Prod.fst

/-! ## The condition -/

/-- The resolution in use. -/
def stepOf (step : BitVec 32) : ℤ := if step = 0 then 1 else step.toNat

/-- The largest reading. -/
def top (signed : Bool) : ℤ := if signed then 2 ^ 31 - 1 else 2 ^ 32 - 1

/-- The value on the grid in exact integers. -/
def gridValue (min step value : ℤ) : ℤ := floorTo min step (value + step / 2)

/-- The request is not below the minimum, its distance from there has room for half a step, and the value that it is
rounded to is one of 32 bits. -/
def HasRoom (signed : Bool) (min step value : BitVec 32) : Prop :=
  reading signed min ≤ reading signed value ∧
    reading signed value - reading signed min + stepOf step / 2 < 2 ^ 32 ∧
    gridValue (reading signed min) (stepOf step) (reading signed value) ≤ top signed

instance (signed : Bool) (min step value : BitVec 32) : Decidable (HasRoom signed min step value) :=
  inferInstanceAs (Decidable (_ ∧ _ ∧ _))

/-! ## Rounding to the nearest step -/

/-- The variables have the values of exact integers. -/
structure NoWrap (signed : Bool) (min step value : BitVec 32) (r : Rounding) : Prop where
  diff : (r.diff.toNat : ℤ) = reading signed value - reading signed min
  sum : (r.sum.toNat : ℤ) = r.diff.toNat + stepOf step / 2
  multiple : (r.multiple.toNat : ℤ) = r.sum.toNat / stepOf step * stepOf step
  total : reading signed r.total = reading signed min + r.multiple.toNat

/-- The value is in the range, and is a closest one of the grid to the request clamped to the range, or the maximum
when the request or its closest value is above it. -/
structure SetsNearest (signed : Bool) (min max step value : BitVec 32) (r : Rounding) : Prop where
  noWrap : NoWrap signed min step value r
  mem : reading signed min ≤ reading signed r.value ∧ reading signed r.value ≤ reading signed max
  nearest :
    let clamped := Max.max (reading signed min) (Min.min (reading signed max) (reading signed value))
    Closest (reading signed min) (stepOf step) clamped (reading signed r.value) ∨
      (reading signed r.value = reading signed max ∧ (reading signed max < reading signed value ∨
        ∃ y, Closest (reading signed min) (stepOf step) clamped y ∧ reading signed max < y))

variable {signed : Bool} {min max step value : BitVec 32}

theorem reading_bounds (signed : Bool) (x : BitVec 32) :
    reading signed x ≤ top signed ∧ top signed - 2 ^ 32 < reading signed x := by
  unfold reading top
  cases signed with
  | true =>
    have hlo := BitVec.le_toInt x
    have hhi := BitVec.toInt_lt (x := x)
    refine ⟨?_, ?_⟩ <;> simp only [if_true] <;> omega
  | false =>
    have hhi := x.isLt
    refine ⟨?_, ?_⟩ <;> simp only [Bool.false_eq_true, if_false] <;> omega

/-- A reading stands for the number that the variable has, up to a multiple of the word. -/
theorem reading_emod (signed : Bool) (x : BitVec 32) : reading signed x % 2 ^ 32 = x.toNat := by
  unfold reading
  have hlt := x.isLt
  cases signed with
  | true =>
    have h : ((x.toNat : ℤ).bmod (2 ^ 32)) % (2 ^ 32 : ℕ) = x.toNat % (2 ^ 32 : ℕ) := Int.bmod_emod
    rw [if_pos rfl, BitVec.toInt_eq_toNat_bmod]
    omega
  | false =>
    rw [if_neg (by decide)]
    omega

theorem stepOf_pos (step : BitVec 32) : 0 < stepOf step := by
  unfold stepOf
  split
  · decide
  · rename_i hne
    have : step.toNat ≠ 0 := fun h => hne (BitVec.eq_of_toNat_eq h)
    omega

theorem toNat_stepOf (step : BitVec 32) : (((if step = 0 then 1 else step) : BitVec 32).toNat : ℤ) = stepOf step := by
  unfold stepOf
  split <;> rfl

/-- The variables, as numbers: each is a result modulo the word, and the multiple never wraps. -/
structure Vars (signed : Bool) (min step value : BitVec 32) (r : Rounding) : Prop where
  diff : (r.diff.toNat : ℤ) = (reading signed value - reading signed min) % 2 ^ 32
  sum : (r.sum.toNat : ℤ) = (r.diff.toNat + stepOf step / 2) % 2 ^ 32
  multiple : (r.multiple.toNat : ℤ) = r.sum.toNat / stepOf step * stepOf step
  total : reading signed r.total % 2 ^ 32 = (reading signed min + r.multiple.toNat) % 2 ^ 32

theorem roundValue_vars (signed : Bool) (min max step value : BitVec 32) :
    Vars signed min step value (roundValue signed min max step value) := by
  have hstep := toNat_stepOf step
  refine ⟨?_, ?_, ?_, ?_⟩
  · unfold roundValue
    dsimp only
    rw [Int.sub_emod, reading_emod, reading_emod, BitVec.toNat_sub]
    have hmin := min.isLt
    have hvalue := value.isLt
    omega
  · unfold roundValue
    dsimp only
    rw [BitVec.toNat_add, BitVec.toNat_udiv, ← hstep]
    push_cast
    rfl
  · unfold roundValue
    dsimp only
    generalize value - min + (if step = 0 then 1 else step) / 2 = sum
    rw [BitVec.toNat_mul, BitVec.toNat_udiv, ← hstep, Nat.mod_eq_of_lt]
    · push_cast
      rfl
    · exact lt_of_le_of_lt (Nat.div_mul_le_self _ _) sum.isLt
  · unfold roundValue
    dsimp only
    rw [reading_emod, Int.add_emod, reading_emod, BitVec.toNat_add]
    push_cast
    omega

/-- **Nothing wraps** exactly when there is room. -/
theorem noWrap_iff {r : Rounding} (hr : Vars signed min step value r) :
    NoWrap signed min step value r ↔ HasRoom signed min step value := by
  obtain ⟨hminTop, hminLo⟩ := reading_bounds signed min
  obtain ⟨hvalueTop, hvalueLo⟩ := reading_bounds signed value
  obtain ⟨htotalTop, htotalLo⟩ := reading_bounds signed r.total
  have hstep := stepOf_pos step
  have hdiff := hr.diff
  have hsum := hr.sum
  have hmultiple := hr.multiple
  have htotal := hr.total
  have hdiffLt := r.diff.isLt
  have hsumLt := r.sum.isLt
  constructor
  · intro h
    have hd := h.diff
    have hs := h.sum
    have ht := h.total
    refine ⟨by omega, by omega, ?_⟩
    have hgrid : gridValue (reading signed min) (stepOf step) (reading signed value) = reading signed r.total := by
      have harg : reading signed value + stepOf step / 2 - reading signed min = r.sum.toNat := by omega
      unfold gridValue floorTo
      rw [harg, ht, hmultiple]
    omega
  · rintro ⟨hle, hroom, htop⟩
    have hd : (r.diff.toNat : ℤ) = reading signed value - reading signed min := by omega
    have hs : (r.sum.toNat : ℤ) = r.diff.toNat + stepOf step / 2 := by omega
    refine ⟨hd, hs, hmultiple, ?_⟩
    have hgrid : gridValue (reading signed min) (stepOf step) (reading signed value) =
        reading signed min + r.multiple.toNat := by
      have harg : reading signed value + stepOf step / 2 - reading signed min = r.sum.toNat := by omega
      unfold gridValue floorTo
      rw [harg, hmultiple]
    rw [hgrid] at htop
    omega

/-! ## The clamp -/

theorem reading_clampAs (signed : Bool) (x lo hi : BitVec 32) :
    reading signed (clampAs signed x lo hi) =
      Min.min (Max.max (reading signed x) (reading signed lo)) (reading signed hi) := by
  unfold clampAs
  dsimp only
  by_cases hlo : reading signed lo < reading signed x
  · rw [if_pos hlo]
    split <;> omega
  · rw [if_neg hlo]
    split <;> omega

/-- **Exactly when the value that is set is a closest one**, without a wrap: the request has room. -/
theorem setsNearest_iff (get : UvcControlMapping → UvcQuery → List UInt8 → Option (BitVec 32))
    (mapping : UvcControlMapping) (ctrl : UvcControlData) (min max step value : BitVec 32)
    (hmin : get mapping .getMin ctrl.min = some min) (hmax : get mapping .getMax ctrl.max = some max)
    (hstep : get mapping .getRes ctrl.res = some step)
    (hle : reading (mapping.dataType = .signed) min ≤ reading (mapping.dataType = .signed) max) :
    (∃ r, uvcCtrlSetInteger get mapping ctrl value = some r ∧
      SetsNearest (mapping.dataType = .signed) min max step value r) ↔
      HasRoom (mapping.dataType = .signed) min step value := by
  have hset : uvcCtrlSetInteger get mapping ctrl value =
      some (roundValue (mapping.dataType = .signed) min max step value) := by
    unfold uvcCtrlSetInteger
    rw [hmin, hmax, hstep]
    rfl
  have hvars := roundValue_vars (mapping.dataType = .signed) min max step value
  have hresult : (roundValue (mapping.dataType = .signed) min max step value).value =
      clampAs (mapping.dataType = .signed) (roundValue (mapping.dataType = .signed) min max step value).total min max :=
    rfl
  generalize roundValue (mapping.dataType = .signed) min max step value = r at hset hvars hresult
  generalize decide (mapping.dataType = .signed) = signed at hle hvars hresult
  constructor
  · rintro ⟨r', hr', h⟩
    obtain rfl : r = r' := Option.some.inj (hset.symm.trans hr')
    exact (noWrap_iff hvars).mp h.noWrap
  · intro hroom
    have hno := (noWrap_iff hvars).mpr hroom
    obtain ⟨hbelow, -, -⟩ := hroom
    have hclamp := reading_clampAs signed r.total min max
    rw [← hresult] at hclamp
    refine ⟨r, hset, hno, by omega, ?_⟩
    -- the value on the grid is a closest one to the request
    obtain ⟨k, hk⟩ : ∃ k : ℕ, reading signed r.total = reading signed min + k * stepOf step := by
      refine ⟨((r.sum.toNat : ℤ) / stepOf step).toNat, ?_⟩
      rw [Int.toNat_of_nonneg (Int.ediv_nonneg (by omega) (stepOf_pos step).le), hno.total, hno.multiple]
    have hgrid : reading signed r.total = floorTo (reading signed min) (stepOf step)
        (reading signed value + stepOf step / 2) := by
      have harg : reading signed value + stepOf step / 2 - reading signed min = r.sum.toNat := by
        have := hno.diff
        have := hno.sum
        omega
      unfold floorTo
      rw [harg, hno.total, hno.multiple]
    have hclose := two_mul_abs_floorTo_le (reading signed min) (reading signed value) (stepOf_pos step)
    rw [← hgrid] at hclose
    have hclosest {c : ℤ} (h : 2 * |reading signed r.total - c| ≤ stepOf step) :
        Closest (reading signed min) (stepOf step) c (reading signed r.total) := by
      rw [hk] at h ⊢
      exact closest_of_two_mul_le (stepOf_pos step) k h
    have hgridLe : reading signed min ≤ reading signed r.total := by
      have := hno.total
      omega
    dsimp only
    by_cases hover : reading signed max < reading signed r.total
    · refine .inr ⟨by omega, ?_⟩
      by_cases hrequest : reading signed max < reading signed value
      · exact .inl hrequest
      · refine .inr ⟨_, hclosest ?_, hover⟩
        have hsame : Max.max (reading signed min) (Min.min (reading signed max) (reading signed value)) =
            reading signed value := by omega
        rw [hsame]
        exact hclose
    · have hvalue : reading signed r.value = reading signed r.total := by omega
      rw [hvalue]
      refine .inl (hclosest ?_)
      rcases abs_cases (reading signed r.total - reading signed value) with ⟨hv, hsign⟩ | ⟨hv, hsign⟩
      · rcases abs_cases (reading signed r.total -
          Max.max (reading signed min) (Min.min (reading signed max) (reading signed value))) with ⟨hc, hsign'⟩ | ⟨hc, hsign'⟩
        · omega
        · omega
      · rcases abs_cases (reading signed r.total -
          Max.max (reading signed min) (Min.min (reading signed max) (reading signed value))) with ⟨hc, hsign'⟩ | ⟨hc, hsign'⟩
        · omega
        · omega

/-- A signed control from -10 to 10 in steps of three, set to 5. -/
theorem setsNearest_five : ∃ r, uvcCtrlSetInteger getLeValue ⟨16, 0, .signed, false⟩ ⟨[246, 255], [10, 0], [3, 0]⟩ 5 =
    some r ∧ SetsNearest true (-10) 10 3 5 r :=
  (setsNearest_iff getLeValue ⟨16, 0, .signed, false⟩ ⟨[246, 255], [10, 0], [3, 0]⟩ (-10) 10 3 5 (by decide +kernel)
    (by decide +kernel) (by decide +kernel) (by decide +kernel)).mpr (by decide +kernel)

/-- A control from 10 to 100 in steps of seven goes to its maximum when it is set to 0. -/
theorem not_setsNearest_below : ∃ r, uvcCtrlSetInteger getLeValue ⟨8, 0, .unsigned, false⟩ ⟨[10], [100], [7]⟩ 0 =
    some r ∧ r.value = 100 ∧ ¬ SetsNearest false 10 100 7 0 r := by
  refine ⟨roundValue false 10 100 7 0, by decide +kernel, by decide +kernel, fun h => ?_⟩
  have hvalue : reading false (roundValue false 10 100 7 0).value = 100 := by decide +kernel
  have hmin : reading false 10 = 10 := by decide
  have hmax : reading false 100 = 100 := by decide
  have hrequest : reading false 0 = 0 := by decide
  have hstep : stepOf 7 = 7 := by decide
  have hnearest := h.nearest
  dsimp only at hnearest
  rw [hvalue, hmin, hmax, hrequest, hstep] at hnearest
  rcases hnearest with ⟨⟨k, hk⟩, -⟩ | ⟨-, hlt | ⟨y, ⟨-, hclose⟩, hy⟩⟩
  · omega
  · omega
  · have hzero := hclose 0
    rw [abs_of_nonneg (by omega)] at hzero
    norm_num at hzero
    omega

end Uvc
end TbsMedia
