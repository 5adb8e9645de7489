import TbsMedia.Lib.Grid
import TbsMedia.Lib.Wrapping

/-!
# Integer controls are rounded

`std_validate` of `v4l2-ctrls.c` takes a value of an integer control to a legal one.

* `stdValidate`: its cases of the integer types, over the registers they compute in.
* `rounds_iff`: the value is the closest legal one, and nothing wraps, except where half a step above the value is
  beyond the type and the maximum is negative, and for steps of 33 bits and more.
-/

namespace TbsMedia
namespace V4l2

open Lib.Wrapping Lib.Grid

/-! ## The code -/

/-- The types of the integer controls. -/
inductive IntegerType where
  | integer
  | integer64
  | u8
  | u16
  | u32
  deriving DecidableEq

namespace IntegerType

def width : IntegerType → ℕ
  | integer => 32
  | integer64 => 64
  | u8 => 8
  | u16 => 16
  | u32 => 32

def signed : IntegerType → Bool
  | integer => true
  | integer64 => true
  | _ => false

/-- A result is put in a variable of the type. -/
def conv (A : ℕ → Arith) (t : IntegerType) (x : ℤ) : ℤ :=
  if t.signed then (A t.width).s x else (A t.width).u x

end IntegerType

/-- The limits of a control. -/
structure CtrlRange where
  minimum : ℤ
  maximum : ℤ
  step : ℤ

/-- The values of the variables: the value after the half step and after the clamp, the divisor and the offset before
and after it is divided, and the value that is left. -/
structure RoundVars where
  sum : ℤ
  val : ℤ
  offset : ℤ
  divisor : ℤ
  multiple : ℤ
  result : ℤ
  deriving DecidableEq

/-- `clamp_t`, of values that are in variables of the type. -/
def clampT (val lo hi : ℤ) : ℤ := min (max val lo) hi

/-- `ROUND_TO_RANGE`; there is no result where it divides by zero. -/
def roundToRange (A : ℕ → Arith) (t : IntegerType) (ctrl : CtrlRange) (val : ℤ) : Option RoundVars :=
  let half := (A 32).s (ctrl.step / 2)
  let sum :=
    if 0 ≤ ctrl.maximum ∧ (A 64).s (ctrl.maximum - half) ≤ val then t.conv A ctrl.maximum else t.conv A (val + half)
  let val := clampT sum (t.conv A ctrl.minimum) (t.conv A ctrl.maximum)
  let offset := (A t.width).u ((A 64).s (val - ctrl.minimum))
  let divisor := (A 32).u ctrl.step
  if divisor = 0 then none
  else
    let multiple := (A t.width).u ((A 64).u (ctrl.step * (offset / divisor)))
    some ⟨sum, val, offset, divisor, multiple, t.conv A ((A 64).s (ctrl.minimum + multiple))⟩

/-- The case of a 64-bit value, where `do_div` takes a divisor of 32 bits. -/
def roundInteger64 (A : ℕ → Arith) (ctrl : CtrlRange) (val : ℤ) : Option RoundVars :=
  let half := (A 64).s (ctrl.step / 2)
  let sum :=
    if 0 ≤ ctrl.maximum ∧ (A 64).s (ctrl.maximum - half) ≤ val then ctrl.maximum else (A 64).s (val + half)
  let val := clampT sum ctrl.minimum ctrl.maximum
  let offset := (A 64).u (val - ctrl.minimum)
  let divisor := (A 32).u ctrl.step
  if divisor = 0 then none
  else
    let multiple := (A 64).u (offset / divisor * ctrl.step)
    some ⟨sum, val, offset, divisor, multiple, (A 64).s (ctrl.minimum + multiple)⟩

/-- `std_validate` for the integer types. -/
def stdValidate (A : ℕ → Arith) (t : IntegerType) (ctrl : CtrlRange) (val : ℤ) : Option RoundVars :=
  match t with
  | .integer64 => roundInteger64 A ctrl val
  | t => roundToRange A t ctrl val

/-! ## The condition -/

namespace IntegerType

def lo (t : IntegerType) : ℤ := if t.signed then -2 ^ (t.width - 1) else 0

def hi (t : IntegerType) : ℤ := if t.signed then 2 ^ (t.width - 1) - 1 else 2 ^ t.width - 1

/-- A value of the type. -/
def Has (t : IntegerType) (x : ℤ) : Prop := t.lo ≤ x ∧ x ≤ t.hi

instance (t : IntegerType) (x : ℤ) : Decidable (t.Has x) := inferInstanceAs (Decidable (_ ∧ _))

end IntegerType

open IntegerType

/-- A control whose limits are values of its type. -/
structure CtrlRange.Valid (t : IntegerType) (ctrl : CtrlRange) : Prop where
  minimum : t.Has ctrl.minimum
  maximum : t.Has ctrl.maximum
  lt : ctrl.minimum < ctrl.maximum
  step_pos : 1 ≤ ctrl.step
  step_le : ctrl.step ≤ ctrl.maximum - ctrl.minimum

/-- Half a step above the value is in the type unless the maximum keeps it from being taken, and the step fits into
the divisor of `do_div`. -/
def Fits (t : IntegerType) (ctrl : CtrlRange) (val : ℤ) : Prop :=
  (0 ≤ ctrl.maximum ∨ val + ctrl.step / 2 ≤ t.hi) ∧ (t = .integer64 → ctrl.step < 2 ^ 32)

variable {A : ℕ → Arith} {t : IntegerType} {ctrl : CtrlRange} {val : ℤ}

theorem conv_eq (hA : ∀ w, Agrees (A w) w) {x : ℤ} (h : t.Has x) : t.conv A x = x := by
  obtain ⟨hlo, hhi⟩ := h
  cases t with
  | integer => exact (hA 32).s_eq (by change -2 ^ 31 ≤ x at hlo; omega) (by change x ≤ 2 ^ 31 - 1 at hhi; omega)
  | integer64 => exact (hA 64).s_eq (by change -2 ^ 63 ≤ x at hlo; omega) (by change x ≤ 2 ^ 63 - 1 at hhi; omega)
  | u8 => exact (hA 8).u_eq hlo (by change x ≤ 2 ^ 8 - 1 at hhi; omega)
  | u16 => exact (hA 16).u_eq hlo (by change x ≤ 2 ^ 16 - 1 at hhi; omega)
  | u32 => exact (hA 32).u_eq hlo (by change x ≤ 2 ^ 32 - 1 at hhi; omega)

/-- The variables in exact integers. -/
def roundVars (ctrl : CtrlRange) (val : ℤ) : RoundVars :=
  let sum := if 0 ≤ ctrl.maximum ∧ ctrl.maximum - ctrl.step / 2 ≤ val then ctrl.maximum else val + ctrl.step / 2
  let val := clampT sum ctrl.minimum ctrl.maximum
  let offset := val - ctrl.minimum
  ⟨sum, val, offset, ctrl.step, offset / ctrl.step * ctrl.step, ctrl.minimum + offset / ctrl.step * ctrl.step⟩

/-! ## Without a wrap -/

theorem IntegerType.hi_sub_lo (t : IntegerType) : t.hi - t.lo + 1 = 2 ^ t.width := by cases t <;> rfl

/-- The types of the macro have 32 bits at the most. -/
theorem IntegerType.bounds (ht : t ≠ .integer64) : -2 ^ 31 ≤ t.lo ∧ t.hi < 2 ^ 32 ∧ (2 : ℤ) ^ t.width ≤ 2 ^ 32 := by
  cases t with
  | integer => decide
  | integer64 => exact absurd rfl ht
  | u8 => decide
  | u16 => decide
  | u32 => decide

theorem clampT_mem (sum : ℤ) {lo hi : ℤ} (h : lo ≤ hi) : lo ≤ clampT sum lo hi ∧ clampT sum lo hi ≤ hi := by
  unfold clampT
  omega

/-- A sum that is taken is a value of the type. -/
theorem has_sum (hc : ctrl.Valid t) (hv : t.Has val) (hf : Fits t ctrl val)
    (h : ¬ (0 ≤ ctrl.maximum ∧ ctrl.maximum - ctrl.step / 2 ≤ val)) : t.Has (val + ctrl.step / 2) := by
  obtain ⟨hlo, hhi⟩ := hv
  have hstep := hc.step_pos
  have hmax := hc.maximum.2
  refine ⟨by omega, ?_⟩
  rcases hf.1 with hpos | hle
  · have : ¬ ctrl.maximum - ctrl.step / 2 ≤ val := fun hle => h ⟨hpos, hle⟩
    omega
  · exact hle

/-- The multiple of the step below an offset. -/
theorem multiple_bounds {x step : ℤ} (h0 : 0 ≤ x) (hstep : 1 ≤ step) :
    0 ≤ x / step * step ∧ x / step * step ≤ x :=
  ⟨Int.mul_nonneg (Int.ediv_nonneg h0 (by omega)) (by omega), Int.ediv_mul_le _ (by omega)⟩

theorem roundToRange_eq (hA : ∀ w, Agrees (A w) w) (ht : t ≠ .integer64) (hc : ctrl.Valid t) (hv : t.Has val)
    (hf : Fits t ctrl val) : roundToRange A t ctrl val = some (roundVars ctrl val) := by
  obtain ⟨hlo, hhi, hwidth⟩ := IntegerType.bounds ht
  have hrange := t.hi_sub_lo
  obtain ⟨hminLo, hminHi⟩ := hc.minimum
  obtain ⟨hmaxLo, hmaxHi⟩ := hc.maximum
  have hlt := hc.lt
  have hpos := hc.step_pos
  have hle := hc.step_le
  have hhalf : (A 32).s (ctrl.step / 2) = ctrl.step / 2 := (hA 32).s_eq (by omega) (by omega)
  have hbelow : (A 64).s (ctrl.maximum - ctrl.step / 2) = ctrl.maximum - ctrl.step / 2 :=
    (hA 64).s_eq (by omega) (by omega)
  have hsum : (if 0 ≤ ctrl.maximum ∧ ctrl.maximum - ctrl.step / 2 ≤ val then t.conv A ctrl.maximum
      else t.conv A (val + ctrl.step / 2)) =
      if 0 ≤ ctrl.maximum ∧ ctrl.maximum - ctrl.step / 2 ≤ val then ctrl.maximum else val + ctrl.step / 2 := by
    split
    · exact conv_eq hA hc.maximum
    · exact conv_eq hA (has_sum hc hv hf ‹_›)
  have hdivisor : (A 32).u ctrl.step = ctrl.step := (hA 32).u_eq (by omega) (by omega)
  unfold roundToRange roundVars
  dsimp only
  rw [hhalf, hbelow, hsum, conv_eq hA hc.minimum, conv_eq hA hc.maximum, hdivisor]
  generalize (if 0 ≤ ctrl.maximum ∧ ctrl.maximum - ctrl.step / 2 ≤ val then ctrl.maximum
    else val + ctrl.step / 2) = sum
  obtain ⟨hclampLo, hclampHi⟩ := clampT_mem sum hlt.le
  generalize clampT sum ctrl.minimum ctrl.maximum = v at hclampLo hclampHi
  obtain ⟨hm0, hm⟩ := multiple_bounds (x := v - ctrl.minimum) (by omega) hpos
  have hoffset : (A t.width).u ((A 64).s (v - ctrl.minimum)) = v - ctrl.minimum := by
    rw [(hA 64).s_eq (by omega) (by omega)]
    exact (hA t.width).u_eq (by omega) (by omega)
  have hmultiple : (A t.width).u ((A 64).u (ctrl.step * ((v - ctrl.minimum) / ctrl.step))) =
      (v - ctrl.minimum) / ctrl.step * ctrl.step := by
    rw [mul_comm ctrl.step, (hA 64).u_eq hm0 (by omega)]
    exact (hA t.width).u_eq hm0 (by omega)
  have hresult : t.conv A ((A 64).s (ctrl.minimum + (v - ctrl.minimum) / ctrl.step * ctrl.step)) =
      ctrl.minimum + (v - ctrl.minimum) / ctrl.step * ctrl.step := by
    rw [(hA 64).s_eq (by omega) (by omega)]
    exact conv_eq hA ⟨by omega, by omega⟩
  rw [if_neg (by omega), hoffset, hmultiple, hresult]

theorem roundInteger64_eq (hA : ∀ w, Agrees (A w) w) (hc : ctrl.Valid .integer64) (hv : IntegerType.integer64.Has val)
    (hf : Fits .integer64 ctrl val) : roundInteger64 A ctrl val = some (roundVars ctrl val) := by
  have hlo : IntegerType.integer64.lo = -2 ^ 63 := rfl
  have hhi : IntegerType.integer64.hi = 2 ^ 63 - 1 := rfl
  have hconv {x : ℤ} (h : IntegerType.integer64.Has x) : (A 64).s x = x := conv_eq hA h
  obtain ⟨hminLo, hminHi⟩ := hc.minimum
  obtain ⟨hmaxLo, hmaxHi⟩ := hc.maximum
  have hlt := hc.lt
  have hpos := hc.step_pos
  have hle := hc.step_le
  have hstep := hf.2 rfl
  have hhalf : (A 64).s (ctrl.step / 2) = ctrl.step / 2 := (hA 64).s_eq (by omega) (by omega)
  have hbelow : 0 ≤ ctrl.maximum → (A 64).s (ctrl.maximum - ctrl.step / 2) = ctrl.maximum - ctrl.step / 2 :=
    fun h => (hA 64).s_eq (by omega) (by omega)
  have hsum : (if 0 ≤ ctrl.maximum ∧ (A 64).s (ctrl.maximum - ctrl.step / 2) ≤ val then ctrl.maximum
      else (A 64).s (val + ctrl.step / 2)) =
      if 0 ≤ ctrl.maximum ∧ ctrl.maximum - ctrl.step / 2 ≤ val then ctrl.maximum else val + ctrl.step / 2 := by
    by_cases hmax : 0 ≤ ctrl.maximum
    · rw [hbelow hmax]
      split
      · rfl
      · exact hconv (has_sum hc hv hf ‹_›)
    · rw [if_neg fun h => hmax h.1, if_neg fun h => hmax h.1]
      exact hconv (has_sum hc hv hf fun h => hmax h.1)
  have hdivisor : (A 32).u ctrl.step = ctrl.step := (hA 32).u_eq (by omega) (by omega)
  unfold roundInteger64 roundVars
  dsimp only
  rw [hhalf, hsum, hdivisor]
  generalize (if 0 ≤ ctrl.maximum ∧ ctrl.maximum - ctrl.step / 2 ≤ val then ctrl.maximum
    else val + ctrl.step / 2) = sum
  obtain ⟨hclampLo, hclampHi⟩ := clampT_mem sum hlt.le
  generalize clampT sum ctrl.minimum ctrl.maximum = v at hclampLo hclampHi
  obtain ⟨hm0, hm⟩ := multiple_bounds (x := v - ctrl.minimum) (by omega) hpos
  have hoffset : (A 64).u (v - ctrl.minimum) = v - ctrl.minimum := (hA 64).u_eq (by omega) (by omega)
  have hmultiple : (A 64).u ((v - ctrl.minimum) / ctrl.step * ctrl.step) =
      (v - ctrl.minimum) / ctrl.step * ctrl.step := (hA 64).u_eq hm0 (by omega)
  have hresult : (A 64).s (ctrl.minimum + (v - ctrl.minimum) / ctrl.step * ctrl.step) =
      ctrl.minimum + (v - ctrl.minimum) / ctrl.step * ctrl.step := hconv ⟨by omega, by omega⟩
  rw [if_neg (by omega), hoffset, hmultiple, hresult]

/-- Both have the variables of the exact integers. -/
theorem stdValidate_eq (hA : ∀ w, Agrees (A w) w) (hc : ctrl.Valid t) (hv : t.Has val) (hf : Fits t ctrl val) :
    stdValidate A t ctrl val = some (roundVars ctrl val) := by
  unfold stdValidate
  split
  · exact roundInteger64_eq hA hc hv hf
  · rename_i ht
    exact roundToRange_eq hA (fun h => ht h) hc hv hf

/-- In exact integers nothing depends on the range. -/
theorem stdValidate_exact (hstep : 1 ≤ ctrl.step) (t : IntegerType) (val : ℤ) :
    stdValidate (fun _ => exact) t ctrl val = some (roundVars ctrl val) := by
  have hconv (t : IntegerType) (x : ℤ) : t.conv (fun _ => exact) x = x := by
    unfold IntegerType.conv
    split <;> rfl
  have hne : ctrl.step ≠ 0 := by omega
  unfold stdValidate
  split
  · exact if_neg hne
  · unfold roundToRange
    simp only [hconv]
    refine (if_neg hne).trans ?_
    unfold roundVars exact
    dsimp only
    rw [mul_comm ctrl.step]

/-- A variable of the type has a value of it. -/
theorem conv_machine_le (t : IntegerType) (x : ℤ) : t.conv machine x ≤ t.hi := by
  have hs (w : ℕ) (hw : 0 < 2 ^ w) : (machine w).s x < ((2 ^ w : ℕ) + 1 : ℤ) / 2 := Int.bmod_lt (x := x) hw
  have hu (w : ℕ) : (machine w).u x < 2 ^ w := Int.emod_lt_of_pos x (by positivity)
  cases t with
  | integer => exact Int.le_sub_one_of_lt (hs 32 (by decide))
  | integer64 => exact Int.le_sub_one_of_lt (hs 64 (by decide))
  | u8 => exact Int.le_sub_one_of_lt (hu 8)
  | u16 => exact Int.le_sub_one_of_lt (hu 16)
  | u32 => exact Int.le_sub_one_of_lt (hu 32)

/-- The divisor has 32 bits, and with a negative maximum the sum is the one of the type. -/
theorem stdValidate_vars (hc : ctrl.Valid t) {v : RoundVars} (h : stdValidate machine t ctrl val = some v) :
    v.divisor = (machine 32).u ctrl.step ∧
      (ctrl.maximum < 0 → v.sum = t.conv machine (val + ctrl.step / 2)) := by
  have hpos := hc.step_pos
  have hle := hc.step_le
  obtain ⟨hminLo, -⟩ := hc.minimum
  obtain ⟨-, hmaxHi⟩ := hc.maximum
  by_cases ht : t = .integer64
  · subst ht
    have hlo : IntegerType.integer64.lo = -2 ^ 63 := rfl
    have hhi : IntegerType.integer64.hi = 2 ^ 63 - 1 := rfl
    have hhalf : (machine 64).s (ctrl.step / 2) = ctrl.step / 2 :=
      (machine_agrees 64).s_eq (by omega) (by omega)
    unfold stdValidate roundInteger64 at h
    dsimp only at h
    rw [hhalf] at h
    split at h
    · cases h
    · obtain rfl := Option.some.inj h
      exact ⟨rfl, fun hneg => if_neg fun hand => not_le.mpr hneg hand.1⟩
  · obtain ⟨hlo, hhi, hwidth⟩ := IntegerType.bounds ht
    have hrange := t.hi_sub_lo
    have hhalf : (machine 32).s (ctrl.step / 2) = ctrl.step / 2 :=
      (machine_agrees 32).s_eq (by omega) (by omega)
    have hround : stdValidate machine t ctrl val = roundToRange machine t ctrl val := by
      cases t <;> first | rfl | exact absurd rfl ht
    rw [hround] at h
    unfold roundToRange at h
    dsimp only at h
    rw [hhalf] at h
    split at h
    · cases h
    · obtain rfl := Option.some.inj h
      exact ⟨rfl, fun hneg => if_neg fun hand => not_le.mpr hneg hand.1⟩

/-! ## The closest legal value -/

theorem roundVars_result (hc : ctrl.Valid t) (val : ℤ) :
    (roundVars ctrl val).result = rounded ctrl.minimum ctrl.maximum ctrl.step val := by
  have hlt := hc.lt
  have hclamp : clampT (if 0 ≤ ctrl.maximum ∧ ctrl.maximum - ctrl.step / 2 ≤ val then ctrl.maximum
      else val + ctrl.step / 2) ctrl.minimum ctrl.maximum =
      max ctrl.minimum (min ctrl.maximum (val + ctrl.step / 2)) := by
    unfold clampT
    split <;> omega
  unfold roundVars rounded floorTo
  dsimp only
  rw [hclamp]

/-- A control rounds a value: the variables are those of exact integers, the result is legal and the closest legal
value, it is left alone when it is validated again, and it keeps the order. -/
structure Rounds (t : IntegerType) (ctrl : CtrlRange) (val : ℤ) : Prop where
  noWrap : stdValidate machine t ctrl val = stdValidate (fun _ => exact) t ctrl val
  nearest : ∃ v, stdValidate machine t ctrl val = some v ∧ Legal ctrl.minimum ctrl.maximum ctrl.step v.result ∧
    Nearest ctrl.minimum ctrl.maximum ctrl.step val v.result
  idempotent : ∀ v, stdValidate machine t ctrl val = some v →
    ∃ v', stdValidate machine t ctrl v.result = some v' ∧ v'.result = v.result
  monotone : ∀ val' ≤ val, t.Has val' → ∀ v v', stdValidate machine t ctrl val = some v →
    stdValidate machine t ctrl val' = some v' → v'.result ≤ v.result

/-- A legal value has room for half a step. -/
theorem fits_of_legal (hc : ctrl.Valid t) {x : ℤ} (hf : Fits t ctrl val) (hle : x ≤ ctrl.maximum) :
    Fits t ctrl x := by
  obtain ⟨hminLo, -⟩ := hc.minimum
  obtain ⟨-, hmaxHi⟩ := hc.maximum
  have hstep := hc.step_le
  refine ⟨?_, hf.2⟩
  by_cases hmax : 0 ≤ ctrl.maximum
  · exact .inl hmax
  · refine .inr ?_
    have hsym : -t.lo ≤ t.hi + 1 := by cases t <;> decide
    omega

/-- **A control rounds a value** to the closest legal one exactly when the half step does not leave the type and the
step fits into the divisor. -/
theorem rounds_iff (hc : ctrl.Valid t) (hv : t.Has val) : Rounds t ctrl val ↔ Fits t ctrl val := by
  have hA := machine_agrees
  have hpos : 0 < ctrl.step := hc.step_pos
  constructor
  · intro hr
    have hsome := hr.noWrap.trans (stdValidate_exact hc.step_pos t val)
    obtain ⟨hdivisor, hsum⟩ := stdValidate_vars hc hsome
    refine ⟨?_, fun _ => ?_⟩
    · by_cases hmax : 0 ≤ ctrl.maximum
      · exact .inl hmax
      · have hexact : (roundVars ctrl val).sum = val + ctrl.step / 2 := if_neg fun hand => hmax hand.1
        have hle := conv_machine_le t (val + ctrl.step / 2)
        rw [← hsum (not_le.mp hmax), hexact] at hle
        exact .inr hle
    · have hlt : (machine 32).u ctrl.step < 2 ^ 32 := Int.emod_lt_of_pos _ (by decide)
      rw [← hdivisor] at hlt
      exact hlt
  · intro hf
    have hsome := stdValidate_eq hA hc hv hf
    have hresult := roundVars_result hc val
    have hlegal := rounded_legal hpos hc.lt.le val
    have hhas : t.Has (roundVars ctrl val).result := by
      rw [hresult]
      have hge := hlegal.ge hpos
      obtain ⟨_, -, hle⟩ := hlegal
      exact ⟨hc.minimum.1.trans hge, hle.trans hc.maximum.2⟩
    refine ⟨hsome.trans (stdValidate_exact hc.step_pos t val).symm, ⟨_, hsome, ?_, ?_⟩, fun v h => ?_,
      fun val' hle hv' v v' h h' => ?_⟩
    · rw [hresult]
      exact hlegal
    · rw [hresult]
      exact rounded_nearest hpos hc.lt.le val
    · obtain rfl := Option.some.inj (hsome.symm.trans h)
      have hle : (roundVars ctrl val).result ≤ ctrl.maximum := by
        rw [hresult]
        obtain ⟨_, -, hle⟩ := hlegal
        exact hle
      refine ⟨_, stdValidate_eq hA hc hhas (fits_of_legal hc hf hle), ?_⟩
      rw [roundVars_result hc, hresult]
      exact rounded_of_legal hpos hlegal
    · have hf' : Fits t ctrl val' := ⟨hf.1.imp_right fun h => by omega, hf.2⟩
      obtain rfl := Option.some.inj (hsome.symm.trans h)
      obtain rfl := Option.some.inj ((stdValidate_eq hA hc hv' hf').symm.trans h')
      rw [hresult, roundVars_result hc]
      exact rounded_mono hpos hle

/-- A volume in hundredths of a decibel. -/
def volume : CtrlRange := ⟨-6000, -50, 100⟩

theorem rounds_iff_volume : Rounds .integer volume (-1234) ↔ Fits .integer volume (-1234) :=
  rounds_iff ⟨by decide, by decide, by decide, by decide, by decide⟩ (by decide)

/-- The largest value is taken to the smallest legal one. -/
theorem not_rounds :
    ¬ ∀ (t : IntegerType) (ctrl : CtrlRange) (val : ℤ), ctrl.Valid t → t.Has val → Rounds t ctrl val := by
  intro hall
  have hr := hall .integer volume (2 ^ 31 - 1) ⟨by decide, by decide, by decide, by decide, by decide⟩ (by decide)
  obtain ⟨v, hv, -, hnearest⟩ := hr.nearest
  have hmin : v.result = -6000 := by
    have hrun : (stdValidate machine .integer volume (2 ^ 31 - 1)).map RoundVars.result = some (-6000) := by
      decide +kernel
    rw [hv] at hrun
    exact Option.some.inj hrun
  have hclose := hnearest (-100) ⟨59, by decide, by decide⟩
  rw [hmin] at hclose
  revert hclose
  decide

end V4l2
end TbsMedia
