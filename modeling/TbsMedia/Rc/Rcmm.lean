import TbsMedia.Lib.BitFields
import TbsMedia.Rc.BitReceiver

/-!
# RC-MM

Every pulse is followed by one of four spaces, which stands for two bits.  A frame has 12, 24 or 32 bits;
the decoder finds the short ones by the long space behind them, and the long one by its length.  One bit of
a long frame is a toggle, unless the mode says otherwise.

* `irRcmmDecode`, `irRcmmEncode`: the two halves of `ir-rcmm-decoder.c`.
* `rcmmReported`: the scancode and the toggle of a frame.
* `irRcmmDecode_irRcmmEncode`: how what is encoded is decoded.
* `not_irRcmmDecode_toggle`: a scancode that is not found again.
-/

namespace TbsMedia
namespace Rc

open Lib

def RCMM_UNIT : ℕ := 166667
def RCMM_PREFIX_PULSE : ℕ := 416666
def RCMM_PULSE_0 : ℕ := 277777
def RCMM_PULSE_1 : ℕ := 444444
def RCMM_PULSE_2 : ℕ := 611111
def RCMM_PULSE_3 : ℕ := 777778

/-! ## The decoder -/

/-- `enum rcmm_state`. -/
inductive RcmmState where
  | inactive | low | bump | value | finished
  deriving DecidableEq, Repr

/-- `struct rcmm_dec`. -/
structure RcmmDec where
  state : RcmmState
  count : ℕ
  bits : ℕ
  deriving DecidableEq, Repr

/-- What the decoder does with an event. -/
abbrev RcmmResult := RcmmDec × Except Errno (List Report)

/-- The end of the function, where no case has returned. -/
def rcmmFailed (data : RcmmDec) : RcmmResult := ({ data with state := .inactive }, .error .EINVAL)

/-- `rcmm_mode`. -/
def rcmmMode (bits : ℕ) : Bool := !(0x000c0000 &&& bits == 0x000c0000)

/-- `rcmm_miscmode`: the key of a short frame, unless it returns `-1`. -/
def rcmmMiscmode (enabled : RcProto → Bool) (data : RcmmDec) : Option Keydown :=
  match data.count with
  | 24 => if enabled .rcmm24 then some ⟨.rcmm24, data.bits, 0⟩ else none
  | 12 => if enabled .rcmm12 then some ⟨.rcmm12, data.bits, 0⟩ else none
  | _ => none

/-- The value that a space stands for. -/
def rcmmValue (duration : ℕ) : Option ℕ :=
  if eqMargin duration RCMM_PULSE_0 (RCMM_UNIT / 2) then some 0
  else if eqMargin duration RCMM_PULSE_1 (RCMM_UNIT / 2) then some 1
  else if eqMargin duration RCMM_PULSE_2 (RCMM_UNIT / 2) then some 2
  else if eqMargin duration RCMM_PULSE_3 (RCMM_UNIT / 2) then some 3
  else none

/-- `STATE_VALUE`. -/
def rcmmStateValue (enabled : RcProto → Bool) (data : RcmmDec) (ev : IrRawEvent) : RcmmResult :=
  if ev.pulse then rcmmFailed data
  else
    match rcmmValue ev.duration with
    | none =>
      match rcmmMiscmode enabled data with
      | some k => ({ data with state := .inactive }, .ok [.keydown k])
      | none => rcmmFailed data
    | some value =>
      ({ state := if data.count + 2 < 32 then .bump else .finished
         count := data.count + 2
         bits := (data.bits <<< 2) % 2 ^ 32 ||| value }, .ok [])

/-- The scancode and the toggle of a frame of 32 bits. -/
def rcmmReported (bits : ℕ) : ℕ × ℕ :=
  if rcmmMode bits then (bits &&& (0x8000 ^^^ 0xffffffff), if 0x8000 &&& bits ≠ 0 then 1 else 0)
  else (bits, 0)

/-- `STATE_FINISHED`. -/
def rcmmFinished (enabled : RcProto → Bool) (data : RcmmDec) (ev : IrRawEvent) : RcmmResult :=
  if ev.pulse = false then rcmmFailed data
  else if ¬ eqMargin ev.duration RCMM_UNIT (RCMM_UNIT / 2) then rcmmFailed data
  else if enabled .rcmm32 then
    ({ data with state := .inactive },
      .ok [.keydown ⟨.rcmm32, (rcmmReported data.bits).1, (rcmmReported data.bits).2⟩])
  else rcmmFailed data

/-- The `switch` over the state. -/
def rcmmSwitch (enabled : RcProto → Bool) (data : RcmmDec) (ev : IrRawEvent) : RcmmResult :=
  match data.state with
  | .inactive =>
    if ev.pulse = false then rcmmFailed data
    else if ¬ eqMargin ev.duration RCMM_PREFIX_PULSE (RCMM_UNIT / 2) then rcmmFailed data
    else (⟨.low, 0, 0⟩, .ok [])
  | .low =>
    if ev.pulse then rcmmFailed data
    else if ¬ eqMargin ev.duration RCMM_PULSE_0 (RCMM_UNIT / 2) then rcmmFailed data
    else ({ data with state := .bump }, .ok [])
  | .bump =>
    if ev.pulse = false then rcmmFailed data
    else if ¬ eqMargin ev.duration RCMM_UNIT (RCMM_UNIT / 2) then rcmmFailed data
    else ({ data with state := .value }, .ok [])
  | .value => rcmmStateValue enabled data ev
  | .finished => rcmmFinished enabled data ev

/-- `ir_rcmm_decode`. -/
def irRcmmDecode (enabled : RcProto → Bool) (data : RcmmDec) (ev : IrRawEvent) : RcmmResult :=
  if !(enabled .rcmm32 || enabled .rcmm24 || enabled .rcmm12) then (data, .ok [])
  else if isTimingEvent ev = false then
    (if ev.reset then { data with state := .inactive } else data, .ok [])
  else rcmmSwitch enabled data ev

/-! ## The encoder -/

/-- `rcmmspace`. -/
def rcmmspace : ℕ → ℕ
  | 0 => RCMM_PULSE_0
  | 1 => RCMM_PULSE_1
  | 2 => RCMM_PULSE_2
  | _ => RCMM_PULSE_3

/-- The loop of `ir_rcmm_rawencoder` over the `n` low pairs of bits. -/
def rcmmPairs (data : ℕ) : ℕ → Fill
  | 0 => .done
  | n + 1 => (irRawGenPulseSpace RCMM_UNIT (rcmmspace ((data >>> (2 * n)) &&& 3))).andThen (rcmmPairs data n)

/-- `ir_rcmm_rawencoder` for `2 * n` bits. -/
def irRcmmRawencoder (n data : ℕ) : Fill :=
  (irRawGenPulseSpace RCMM_PREFIX_PULSE RCMM_PULSE_0).andThen
    ((rcmmPairs data n).andThen (irRawGenPulseSpace RCMM_UNIT (RCMM_PULSE_3 * 2)))

/-- `ir_rcmm_encode`. -/
def irRcmmEncode (protocol : RcProto) (scancode max : ℕ) : Encoding :=
  match protocol with
  | .rcmm32 => encodeWith (irRcmmRawencoder 16 scancode) max
  | .rcmm24 => encodeWith (irRcmmRawencoder 12 scancode) max
  | .rcmm12 => encodeWith (irRcmmRawencoder 6 scancode) max
  | _ => ⟨[], .error .EINVAL⟩

/-! ## Frames -/

variable {enabled : RcProto → Bool}

/-- The pairs of bits of a frame. -/
def rcmmPairEvents (data : ℕ) : ℕ → List IrRawEvent
  | 0 => []
  | n + 1 => pulseSpace RCMM_UNIT (rcmmspace ((data >>> (2 * n)) &&& 3)) ++ rcmmPairEvents data n

/-- A frame of `2 * n` bits. -/
def rcmmFrame (n data : ℕ) : List IrRawEvent :=
  pulseSpace RCMM_PREFIX_PULSE RCMM_PULSE_0 ++
    (rcmmPairEvents data n ++ pulseSpace RCMM_UNIT (RCMM_PULSE_3 * 2))

theorem emits_rcmmPairs (data n : ℕ) : Emits (rcmmPairs data n) (rcmmPairEvents data n) := by
  induction n with
  | zero => exact emits_done
  | succ n ih => exact (emits_pulseSpace _ _).andThen ih

theorem emits_rcmmFrame (n data : ℕ) : Emits (irRcmmRawencoder n data) (rcmmFrame n data) :=
  (emits_pulseSpace _ _).andThen ((emits_rcmmPairs data n).andThen (emits_pulseSpace _ _))

/-- The decoder behind `m` pairs of bits. -/
def rcmmOpened (m v : ℕ) : RcmmDec := ⟨if 2 * m < 32 then .bump else .finished, 2 * m, v⟩

/-- A register with two more bits. -/
theorem rcmm_shift {v m value : ℕ} (hv : v < 4 ^ m) (hm : m < 16) (hvalue : value < 4) :
    (v <<< 2) % 2 ^ 32 ||| value = v * 4 + value := by
  have hpow : 4 ^ m * 4 ≤ 2 ^ 32 := by
    rw [← pow_succ]
    exact (Nat.pow_le_pow_right (by decide) (by omega : m + 1 ≤ 16)).trans (by decide)
  have hmod : (v <<< 2) % 2 ^ 32 = v <<< 2 := Nat.mod_eq_of_lt (by
    rw [Nat.shiftLeft_eq]
    omega)
  rw [hmod]
  exact shiftLeft_lor hvalue v

/-- The value of a space is the one it has been sent for. -/
theorem rcmmValue_rcmmspace {value : ℕ} (h : value < 4) : rcmmValue (rcmmspace value) = some value := by
  obtain rfl | rfl | rfl | rfl : value = 0 ∨ value = 1 ∨ value = 2 ∨ value = 3 := by omega
  all_goals decide

/-- The events are for the decoder. -/
theorem irRcmmDecode_timing (henabled : enabled .rcmm32 || enabled .rcmm24 || enabled .rcmm12)
    (data : RcmmDec) (pulse : Bool) (duration : ℕ) :
    irRcmmDecode enabled data (initIrRawEventDuration pulse duration) =
      rcmmSwitch enabled data (initIrRawEventDuration pulse duration) := by
  unfold irRcmmDecode
  rw [henabled, if_neg (by decide)]
  exact if_neg (isTimingEvent_init pulse duration)

/-- Two bits. -/
theorem rcmmPair_taken (henabled : enabled .rcmm32 || enabled .rcmm24 || enabled .rcmm12) {v m value : ℕ}
    (hv : v < 4 ^ m) (hm : m < 16) (hvalue : value < 4) :
    Takes (irRcmmDecode enabled) (rcmmOpened m v) (pulseSpace RCMM_UNIT (rcmmspace value))
      (rcmmOpened (m + 1) (v * 4 + value)) [] := by
  have hstate : rcmmOpened m v = ⟨.bump, 2 * m, v⟩ := by
    unfold rcmmOpened
    rw [if_pos (by omega)]
  have hpulse : irRcmmDecode enabled ⟨.bump, 2 * m, v⟩ (initIrRawEventDuration true RCMM_UNIT) =
      (⟨.value, 2 * m, v⟩, .ok []) :=
    (irRcmmDecode_timing henabled _ _ _).trans rfl
  have hspace : irRcmmDecode enabled ⟨.value, 2 * m, v⟩ (initIrRawEventDuration false (rcmmspace value)) =
      (rcmmOpened (m + 1) (v * 4 + value), .ok []) := by
    rw [irRcmmDecode_timing henabled]
    change rcmmStateValue enabled _ _ = _
    unfold rcmmStateValue
    rw [if_neg (show ¬(initIrRawEventDuration false (rcmmspace value)).pulse = true from Bool.noConfusion)]
    change (match rcmmValue (rcmmspace value) with
      | none => _
      | some value => _) = _
    rw [rcmmValue_rcmmspace hvalue]
    dsimp only
    rw [rcmm_shift hv hm hvalue]
    rfl
  rw [hstate]
  exact (takes_single hpulse).append (takes_single hspace)

/-- **The pairs of a frame.** -/
theorem rcmmPairs_taken (henabled : enabled .rcmm32 || enabled .rcmm24 || enabled .rcmm12) (data k : ℕ)
    {v m : ℕ} (hv : v < 4 ^ m) (hm : m + k ≤ 16) :
    Takes (irRcmmDecode enabled) (rcmmOpened m v) (rcmmPairEvents data k)
      (rcmmOpened (m + k) (v * 4 ^ k + data % 4 ^ k)) [] := by
  induction k generalizing v m with
  | zero =>
    rw [pow_zero, Nat.mod_one, Nat.mul_one]
    exact takes_nil _
  | succ k ih =>
    have hpair : (data >>> (2 * k)) &&& 3 = data / 4 ^ k % 4 := by
      rw [show (3 : ℕ) = 2 ^ 2 - 1 from rfl, Nat.and_two_pow_sub_one_eq_mod, Nat.shiftRight_eq_div_pow,
        pow_mul, show (2 : ℕ) ^ 2 = 4 from rfl]
    have hlt : data / 4 ^ k % 4 < 4 := Nat.mod_lt _ (by decide)
    have hfirst := rcmmPair_taken henabled hv (by omega) hlt
    have hrest := ih (v := v * 4 + data / 4 ^ k % 4) (m := m + 1) (by rw [pow_succ]; omega) (by omega)
    have hvalue : (v * 4 + data / 4 ^ k % 4) * 4 ^ k + data % 4 ^ k =
        v * 4 ^ (k + 1) + data % 4 ^ (k + 1) := by
      rw [pow_succ, Nat.mod_mul]
      ring
    rw [hvalue, show m + 1 + k = m + (k + 1) by omega] at hrest
    rw [rcmmPairEvents, hpair]
    exact hfirst.append hrest

/-- The prefix of a frame. -/
theorem rcmmPrefix_taken (henabled : enabled .rcmm32 || enabled .rcmm24 || enabled .rcmm12) {data : RcmmDec}
    (hdata : data.state = .inactive) :
    Takes (irRcmmDecode enabled) data (pulseSpace RCMM_PREFIX_PULSE RCMM_PULSE_0) (rcmmOpened 0 0) [] := by
  obtain ⟨_, count, bits⟩ := data
  obtain rfl : _ = RcmmState.inactive := hdata
  have hpulse : irRcmmDecode enabled ⟨.inactive, count, bits⟩
      (initIrRawEventDuration true RCMM_PREFIX_PULSE) = (⟨.low, 0, 0⟩, .ok []) :=
    (irRcmmDecode_timing henabled _ _ _).trans rfl
  have hspace : irRcmmDecode enabled ⟨.low, 0, 0⟩ (initIrRawEventDuration false RCMM_PULSE_0) =
      (rcmmOpened 0 0, .ok []) :=
    (irRcmmDecode_timing henabled _ _ _).trans rfl
  exact (takes_single hpulse).append (takes_single hspace)

/-! ## The round trip -/

/-- The frame of a word of `2 * n` bits, up to its trailer. -/
theorem rcmmBits_taken (henabled : enabled .rcmm32 || enabled .rcmm24 || enabled .rcmm12) {data : RcmmDec}
    (hdata : data.state = .inactive) {n : ℕ} (hn : n ≤ 16) {scancode : ℕ} (hlt : scancode < 4 ^ n) :
    Takes (irRcmmDecode enabled) data (pulseSpace RCMM_PREFIX_PULSE RCMM_PULSE_0 ++ rcmmPairEvents scancode n)
      (rcmmOpened n scancode) [] := by
  have hpairs := rcmmPairs_taken henabled scancode n (v := 0) (m := 0) (by decide) (by omega)
  rw [Nat.zero_mul, Nat.zero_add, Nat.zero_add, Nat.mod_eq_of_lt hlt] at hpairs
  exact (rcmmPrefix_taken henabled hdata).append hpairs

/-- What follows a frame is not part of one. -/
theorem irRcmmDecode_space_inactive (henabled : enabled .rcmm32 || enabled .rcmm24 || enabled .rcmm12)
    (count bits gap : ℕ) : Takes (irRcmmDecode enabled) ⟨.inactive, count, bits⟩
      [initIrRawEventDuration false gap] ⟨.inactive, count, bits⟩ [] :=
  takes_error ((irRcmmDecode_timing henabled _ _ _).trans rfl)

/-- A short frame is reported at the space behind it. -/
theorem rcmmTrailer_short (henabled : enabled .rcmm32 || enabled .rcmm24 || enabled .rcmm12) {n v : ℕ}
    (hn : n < 16) {k : Keydown} (hk : rcmmMiscmode enabled ⟨.value, 2 * n, v⟩ = some k) (gap : ℕ) :
    Takes (irRcmmDecode enabled) (rcmmOpened n v)
      (pulseSpace RCMM_UNIT (RCMM_PULSE_3 * 2) ++ [initIrRawEventDuration false gap])
      ⟨.inactive, 2 * n, v⟩ [.keydown k] := by
  have hstate : rcmmOpened n v = ⟨.bump, 2 * n, v⟩ := by
    unfold rcmmOpened
    rw [if_pos (by omega)]
  have hpulse : irRcmmDecode enabled ⟨.bump, 2 * n, v⟩ (initIrRawEventDuration true RCMM_UNIT) =
      (⟨.value, 2 * n, v⟩, .ok []) :=
    (irRcmmDecode_timing henabled _ _ _).trans rfl
  have hspace : irRcmmDecode enabled ⟨.value, 2 * n, v⟩
      (initIrRawEventDuration false (RCMM_PULSE_3 * 2)) = (⟨.inactive, 2 * n, v⟩, .ok [.keydown k]) := by
    rw [irRcmmDecode_timing henabled]
    change (match rcmmMiscmode enabled ⟨.value, 2 * n, v⟩ with
      | some k => _
      | none => _) = _
    rw [hk]
  rw [hstate]
  exact ((takes_single hpulse).append (takes_single hspace)).append
    (irRcmmDecode_space_inactive henabled _ _ gap)

/-- A long frame is reported at the pulse behind its bits. -/
theorem rcmmTrailer_long (h32 : enabled .rcmm32 = true) (v gap : ℕ) :
    Takes (irRcmmDecode enabled) (rcmmOpened 16 v)
      (pulseSpace RCMM_UNIT (RCMM_PULSE_3 * 2) ++ [initIrRawEventDuration false gap])
      ⟨.inactive, 32, v⟩ [.keydown ⟨.rcmm32, (rcmmReported v).1, (rcmmReported v).2⟩] := by
  have henabled : enabled .rcmm32 || enabled .rcmm24 || enabled .rcmm12 := by
    rw [h32]
    rfl
  have hpulse : irRcmmDecode enabled ⟨.finished, 32, v⟩ (initIrRawEventDuration true RCMM_UNIT) =
      (⟨.inactive, 32, v⟩, .ok [.keydown ⟨.rcmm32, (rcmmReported v).1, (rcmmReported v).2⟩]) := by
    rw [irRcmmDecode_timing henabled]
    exact if_pos h32
  exact ((takes_single hpulse).append (irRcmmDecode_space_inactive henabled _ _ _)).append
    (irRcmmDecode_space_inactive henabled _ _ gap)

/-- The variants of RC-MM. -/
def RcmmProtocol (protocol : RcProto) : Prop := protocol = .rcmm12 ∨ protocol = .rcmm24 ∨ protocol = .rcmm32

/-- The pairs of bits of a variant. -/
def rcmmNPairs : RcProto → ℕ
  | .rcmm12 => 6
  | .rcmm24 => 12
  | _ => 16

/-- The frames that have a toggle: those of 32 bits, unless bits 18 and 19 say that their mode has none. -/
def HasToggle (protocol : RcProto) (scancode : ℕ) : Prop :=
  protocol = .rcmm32 ∧ ¬(scancode.testBit 18 = true ∧ scancode.testBit 19 = true)

instance (protocol : RcProto) (scancode : ℕ) : Decidable (HasToggle protocol scancode) :=
  inferInstanceAs (Decidable (_ ∧ ¬(_ ∧ _)))

/-- The key that a frame stands for; where there is a toggle, it is bit 15. -/
def rcmmKey (protocol : RcProto) (scancode : ℕ) : Keydown :=
  if HasToggle protocol scancode then
    ⟨protocol, scancode - 2 ^ 15 * (scancode.testBit 15).toNat, (scancode.testBit 15).toNat⟩
  else ⟨protocol, scancode, 0⟩

theorem rcmmMode_iff (bits : ℕ) : rcmmMode bits = true ↔ HasToggle .rcmm32 bits := by
  have hfield : 0x000c0000 &&& bits = (bits / 2 ^ 18 % 2 ^ 2) <<< 18 := by
    rw [Nat.land_comm]
    exact land_eq_shiftLeft (by decide) bits
  have hiff : 0x000c0000 &&& bits = 0x000c0000 ↔ bits.testBit 18 = true ∧ bits.testBit 19 = true := by
    rw [hfield, Nat.shiftLeft_eq, Nat.testBit_eq_decide_div_mod_eq, Nat.testBit_eq_decide_div_mod_eq,
      decide_eq_true_eq, decide_eq_true_eq]
    omega
  unfold rcmmMode HasToggle
  rw [Bool.not_eq_true', beq_eq_false_iff_ne, Ne, hiff]
  exact ⟨fun h => ⟨rfl, h⟩, fun h => h.2⟩

theorem land_toggle (bits : ℕ) : 0x8000 &&& bits ≠ 0 ↔ bits.testBit 15 = true := by
  rw [Nat.land_comm, Ne, land_eq_zero_iff (by decide : 0x8000 = 2 ^ 15), Nat.testBit_eq_decide_div_mod_eq,
    decide_eq_true_eq]
  omega

/-- Clearing bit 15 takes it away. -/
theorem land_not_toggle {bits : ℕ} (h : bits < 2 ^ 32) :
    bits &&& (0x8000 ^^^ 0xffffffff) = bits - 2 ^ 15 * (bits.testBit 15).toNat := by
  have hmask : (0x8000 : ℕ) ^^^ 0xffffffff = 0xffff0000 ||| 0x7fff := by decide
  rw [hmask, Nat.and_or_distrib_left, land_eq_shiftLeft (by decide : 0xffff0000 = (2 ^ 16 - 1) <<< 16) bits,
    show (0x7fff : ℕ) = 2 ^ 15 - 1 from rfl, Nat.and_two_pow_sub_one_eq_mod, shiftLeft_lor (by omega),
    Nat.toNat_testBit]
  omega

/-- **What a long frame is reported as.** -/
theorem rcmmReported_eq {bits : ℕ} (h : bits < 2 ^ 32) :
    (⟨.rcmm32, (rcmmReported bits).1, (rcmmReported bits).2⟩ : Keydown) = rcmmKey .rcmm32 bits := by
  unfold rcmmReported rcmmKey
  by_cases hmode : rcmmMode bits = true
  · rw [if_pos hmode, if_pos ((rcmmMode_iff bits).1 hmode), land_not_toggle h]
    refine congrArg (Keydown.mk _ _) ?_
    by_cases htoggle : bits.testBit 15 = true
    · rw [htoggle]
      exact if_pos ((land_toggle bits).2 htoggle)
    · rw [Bool.not_eq_true] at htoggle
      rw [htoggle]
      refine if_neg fun hne => ?_
      rw [(land_toggle bits).1 hne] at htoggle
      exact absurd htoggle (by decide)
  · rw [if_neg hmode, if_neg fun h => hmode ((rcmmMode_iff bits).2 h)]

/-- A short frame has no toggle. -/
theorem rcmmKey_short {protocol : RcProto} (h : protocol ≠ .rcmm32) (scancode : ℕ) :
    rcmmKey protocol scancode = ⟨protocol, scancode, 0⟩ :=
  if_neg fun htoggle => h htoggle.1

theorem irRcmmEncode_eq {protocol : RcProto} (h : RcmmProtocol protocol) (scancode max : ℕ) :
    irRcmmEncode protocol scancode max =
      encodeWith (irRcmmRawencoder (rcmmNPairs protocol) scancode) max := by
  rcases h with rfl | rfl | rfl <;> rfl

/-- A frame of a variant that is enabled is reported once. -/
theorem rcmmFrame_taken {protocol : RcProto} (hprotocol : RcmmProtocol protocol) (henabled : enabled protocol = true)
    {scancode : ℕ} (hlt : scancode < 4 ^ rcmmNPairs protocol) {data : RcmmDec}
    (hdata : data.state = .inactive) (gap : ℕ) :
    (reportAll (irRcmmDecode enabled) data
      (rcmmFrame (rcmmNPairs protocol) scancode ++ [initIrRawEventDuration false gap])).2 =
        [.keydown (rcmmKey protocol scancode)] := by
  have hsome : enabled .rcmm32 || enabled .rcmm24 || enabled .rcmm12 := by
    rcases hprotocol with rfl | rfl | rfl
    · rw [henabled, Bool.or_true]
    · rw [henabled, Bool.or_true, Bool.true_or]
    · rw [henabled, Bool.true_or, Bool.true_or]
  have hframe : ∃ data', Takes (irRcmmDecode enabled) (rcmmOpened (rcmmNPairs protocol) scancode)
      (pulseSpace RCMM_UNIT (RCMM_PULSE_3 * 2) ++ [initIrRawEventDuration false gap]) data'
      [.keydown (rcmmKey protocol scancode)] := by
    rcases hprotocol with rfl | rfl | rfl
    · have hk : rcmmMiscmode enabled ⟨.value, 2 * 6, scancode⟩ = some ⟨.rcmm12, scancode, 0⟩ :=
        if_pos henabled
      rw [rcmmKey_short (by decide)]
      exact ⟨_, rcmmTrailer_short hsome (by decide) hk gap⟩
    · have hk : rcmmMiscmode enabled ⟨.value, 2 * 12, scancode⟩ = some ⟨.rcmm24, scancode, 0⟩ :=
        if_pos henabled
      rw [rcmmKey_short (by decide)]
      exact ⟨_, rcmmTrailer_short hsome (by decide) hk gap⟩
    · rw [← rcmmReported_eq (hlt.trans_le (by decide))]
      exact ⟨_, rcmmTrailer_long henabled scancode gap⟩
  obtain ⟨data', htrailer⟩ := hframe
  have hn : rcmmNPairs protocol ≤ 16 := by
    rcases hprotocol with rfl | rfl | rfl <;> decide
  have hall := (rcmmBits_taken hsome hdata hn hlt).append htrailer
  unfold rcmmFrame
  rw [List.append_assoc, List.append_assoc, ← List.append_assoc, hall]
  rfl

/-- A scancode that has only bits of its variant is a word of them. -/
theorem rcmm_lt {protocol : RcProto} (hprotocol : RcmmProtocol protocol) {scancode : ℕ}
    (hbits : InScancodeBits protocol scancode) : scancode < 4 ^ rcmmNPairs protocol := by
  have hle : scancode ≤ (protocols protocol).scancodeBits := hbits.symm.le.trans Nat.and_le_right
  refine hle.trans_lt ?_
  rcases hprotocol with rfl | rfl | rfl <;> decide

/-- **RC-MM**: a scancode is encoded where there is room, and where its variant is enabled its frame is decoded as the
key that it stands for, from whatever the decoder has left of earlier frames. -/
theorem irRcmmDecode_irRcmmEncode {protocol : RcProto} (hprotocol : RcmmProtocol protocol)
    (henabled : enabled protocol = true) {scancode : ℕ} (hbits : InScancodeBits protocol scancode) {data : RcmmDec}
    (hdata : data.state = .inactive) (gap : ℕ) :
    (∃ room, ∀ max, room ≤ max → ∃ events, (irRcmmEncode protocol scancode max).events = .ok events) ∧
      ∀ max events, (irRcmmEncode protocol scancode max).events = .ok events →
        (reportAll (irRcmmDecode enabled) data (events ++ [initIrRawEventDuration false gap])).2 =
          [.keydown (rcmmKey protocol scancode)] := by
  have hemits := emits_rcmmFrame (rcmmNPairs protocol) scancode
  have hencode := irRcmmEncode_eq hprotocol scancode
  constructor
  · refine ⟨(rcmmFrame (rcmmNPairs protocol) scancode).length, fun max hmax =>
      ⟨rcmmFrame (rcmmNPairs protocol) scancode, ?_⟩⟩
    rw [hencode]
    exact (encodeWith_of_emits hemits).2 hmax
  · intro max events hevents
    rw [hencode] at hevents
    rw [(encodeWith_of_emits hemits).1 events hevents]
    exact rcmmFrame_taken hprotocol henabled (rcmm_lt hprotocol hbits) hdata gap

/-- A long frame with its toggle set, where no other variant is enabled. -/
theorem irRcmmDecode_irRcmmEncode_toggle : ∃ room, ∀ max, room ≤ max → ∃ events,
    (irRcmmEncode .rcmm32 0x2003a001 max).events = .ok events ∧
      (reportAll (irRcmmDecode (· == .rcmm32)) ⟨.inactive, 4, 9⟩
        (events ++ [initIrRawEventDuration false 20000000])).2 = [.keydown ⟨.rcmm32, 0x20032001, 1⟩] := by
  obtain ⟨⟨room, hroom⟩, hdecode⟩ := @irRcmmDecode_irRcmmEncode (· == .rcmm32) _
    (Or.inr (Or.inr rfl) : RcmmProtocol .rcmm32) rfl _
    (by decide : InScancodeBits .rcmm32 0x2003a001) ⟨.inactive, 4, 9⟩ rfl 20000000
  refine ⟨room, fun max hmax => ?_⟩
  obtain ⟨events, hevents⟩ := hroom max hmax
  exact ⟨events, hevents, (hdecode max events hevents).trans (by decide)⟩

/-- The scancode that has only the toggle is not found again. -/
theorem not_irRcmmDecode_toggle : InScancodeBits .rcmm32 0x8000 ∧ ∃ events,
    (irRcmmEncode .rcmm32 0x8000 100).events = .ok events ∧
      (reportAll (irRcmmDecode fun _ => true) ⟨.inactive, 0, 0⟩
        (events ++ [initIrRawEventDuration false 20000000])).2 = [.keydown ⟨.rcmm32, 0, 1⟩] := by
  refine ⟨by decide, _, (encodeWith_of_emits (emits_rcmmFrame 16 0x8000)).2 (by decide), ?_⟩
  decide +kernel

end Rc
end TbsMedia
