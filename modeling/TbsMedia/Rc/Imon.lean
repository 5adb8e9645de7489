import TbsMedia.Lib.BitFields
import TbsMedia.Rc.BitReceiver

/-!
# iMON

A frame is a pulse of one unit and two units for each of its 31 bits: a check field and the bit itself, where
a zero is a pulse.  Units of one level run together into one event, and the decoder cuts them again.

* `irImonDecode`, `irImonEncode`: the two halves of `ir-imon-decoder.c`.
* `unitsAll`: the decoder as a machine over units.
* `irImonDecode_irImonEncode`: what is encoded is decoded as soon as the last bit can be told from silence.
-/

namespace TbsMedia
namespace Rc

open Lib

def IMON_UNIT : ℕ := 415662
def IMON_BITS : ℕ := 30
def IMON_CHKBITS : ℕ :=
  2 ^ 30 ||| 2 ^ 25 ||| 2 ^ 24 ||| 2 ^ 22 ||| 2 ^ 21 ||| 2 ^ 20 ||| 2 ^ 19 ||| 2 ^ 18 |||
    2 ^ 17 ||| 2 ^ 16 ||| 2 ^ 14 ||| 2 ^ 13 ||| 2 ^ 12 ||| 2 ^ 11 ||| 2 ^ 10 ||| 2 ^ 9

/-! ## The decoder -/

/-- `enum imon_state`. -/
inductive ImonState where
  | inactive | bitChk | bitStart | finished | error
  deriving DecidableEq, Repr

/-- `struct imon_dec`. -/
structure ImonDec where
  state : ImonState
  count : ℤ
  lastChk : Bool
  bits : ℕ
  stickKeyboard : Bool
  deriving DecidableEq, Repr

/-- What the decoder tells the input layer and the core. -/
inductive ImonReport where
  | relX (value : ℤ)
  | relY (value : ℤ)
  | btnLeft (down : Bool)
  | btnRight (down : Bool)
  | keydown (k : Keydown)
  deriving DecidableEq, Repr

/-- A coordinate of the stick: four bits in reverse order, and a sign. -/
def imonRel (buf : ℕ) (sign : Bool) : ℤ :=
  let rel := (buf &&& 0x08) ||| (buf &&& 0x10) >>> 2 ||| (buf &&& 0x20) >>> 4 ||| (buf &&& 0x40) >>> 6
  if sign then (rel : ℤ) - 0x10 else rel

/-- A word that the stick of the pad sends. -/
def imonPad (bits : ℕ) : Prop := bits &&& 0xfc0000ff = 0x680000b7

instance (bits : ℕ) : Decidable (imonPad bits) := inferInstanceAs (Decidable (_ = _))

def imonRelX (bits : ℕ) : ℤ := imonRel (bits >>> 16 % 2 ^ 8) (bits &&& 0x02000000 != 0)
def imonRelY (bits : ℕ) : ℤ := imonRel (bits >>> 8 % 2 ^ 8) (bits &&& 0x01000000 != 0)

/-- The key that a movement of the stick stands for. -/
def imonStickKey (relX relY : ℤ) : ℕ :=
  if |relX| < |relY| then if 0 < relY then 0x289515b7 else 0x2aa515b7
  else if 0 < relX then 0x2ba515b7 else 0x29a515b7

/-- `ir_imon_decode_scancode`. -/
def irImonDecodeScancode (imon : ImonDec) : ImonDec × List ImonReport :=
  let imon := if imon.bits = 0x299115b7 then { imon with stickKeyboard := !imon.stickKeyboard } else imon
  if imonPad imon.bits then
    let relX := imonRelX imon.bits
    let relY := imonRelY imon.bits
    let imon := if relX ≠ 0 ∧ relY ≠ 0 ∧ imon.stickKeyboard then
      { imon with bits := imonStickKey relX relY } else imon
    if imon.stickKeyboard = false then
      (imon, [.relX relX, .relY relY, .btnLeft (imon.bits &&& 0x00010000 != 0),
        .btnRight (imon.bits &&& 0x00040000 != 0), .keydown ⟨.imon, imon.bits, 0⟩])
    else (imon, [.keydown ⟨.imon, imon.bits, 0⟩])
  else (imon, [.keydown ⟨.imon, imon.bits, 0⟩])

/-- What the decoder makes of an event: its state, the reports and the return value. -/
abbrev ImonResult := ImonDec × List ImonReport × Except Errno Unit

/-- The label `err_out`. -/
def imonErrOut (data : ImonDec) : ImonResult := ({ data with state := .error }, [], .error .EINVAL)

/-- `IMON_CHKBITS & BIT(data->count)`. -/
def imonChkbit (count : ℤ) : Bool := IMON_CHKBITS.testBit count.toNat

/-- `STATE_BIT_START`. -/
def imonBitStart (data : ImonDec) (pulse : Bool) : ImonResult :=
  let bits := (data.bits <<< 1) % 2 ^ 32 ||| (!pulse).toNat
  if imonChkbit data.count = true ∧ data.lastChk ≠ decide (bits &&& 3 = 0) then imonErrOut { data with bits }
  else
    let state : ImonState := if data.count = 0 then .finished else .bitChk
    ({ data with bits, count := data.count - 1, state }, [], .ok ())

/-- The `switch` over the state, for one unit of an event. -/
def imonUnit (data : ImonDec) (pulse : Bool) : ImonResult :=
  match data.state with
  | .inactive =>
    (if pulse then { data with state := .bitChk, bits := 0, count := IMON_BITS } else data, [], .ok ())
  | .bitChk =>
    if imonChkbit data.count then ({ data with lastChk := pulse, state := .bitStart }, [], .ok ())
    else if pulse then imonErrOut data
    else ({ data with state := .bitStart }, [], .ok ())
  | .bitStart => imonBitStart data pulse
  | .finished =>
    if pulse then imonErrOut data
    else
      let (data, reports) := irImonDecodeScancode data
      ({ data with state := .inactive }, reports, .ok ())
  | .error => (data, [], .ok ())

/-- The loop of `ir_imon_decode`, for at most `n` units. -/
def imonLoop : ℕ → ImonDec → IrRawEvent → ImonResult
  | 0, data, _ => (data, [], .ok ())
  | n + 1, data, ev =>
    if ¬ geqMargin ev.duration IMON_UNIT (IMON_UNIT / 2) then (data, [], .ok ())
    else
      match imonUnit data ev.pulse with
      | (data, reports, .ok ()) =>
        let (data', reports', ret) := imonLoop n data (decreaseDuration ev IMON_UNIT)
        (data', reports ++ reports', ret)
      | (data, reports, .error e) => (data, reports, .error e)

/-- `ir_imon_decode`. -/
def irImonDecode (data : ImonDec) (ev : IrRawEvent) : ImonResult :=
  if isTimingEvent ev = false then
    (if ev.reset then { data with state := .inactive } else data, [], .ok ())
  else if data.state = .error then
    (if ev.pulse = false ∧ 10000000 < ev.duration then { data with state := .inactive } else data, [], .ok ())
  else imonLoop (ev.duration / IMON_UNIT + 1) data ev

/-- The decoder over an array of events. -/
def imonAll : ImonDec → List IrRawEvent → ImonDec × List ImonReport
  | data, [] => (data, [])
  | data, ev :: evs =>
    ((imonAll (irImonDecode data ev).1 evs).1,
      (irImonDecode data ev).2.1 ++ (imonAll (irImonDecode data ev).1 evs).2)

/-! ## The encoder -/

/-- The check field of bit `i`. -/
def imonCheck (scancode i : ℕ) : Bool :=
  if IMON_CHKBITS.testBit i then decide (scancode &&& (2 ^ i ||| 2 ^ (i + 1)) = 0) else false

/-- The loop of `ir_imon_encode` over the `n` low bits. -/
def imonBits (scancode : ℕ) : ℕ → Fill
  | 0 => .done
  | i + 1 => (fillHalf (imonCheck scancode i) IMON_UNIT).andThen
      ((fillHalf (decide (scancode &&& 2 ^ i = 0)) IMON_UNIT).andThen (imonBits scancode i))

/-- `ir_imon_encode`.  A space at the end is not part of what is returned. -/
def irImonEncode (scancode max : ℕ) : Encoding :=
  let (s, ret) := ((Fill.push true IMON_UNIT).andThen (imonBits scancode (IMON_BITS + 1))) ⟨[], max⟩
  { written := s.ev.reverse, ret := ret.map fun _ => if lastPulse s.ev then s.ev.length else s.ev.length - 1 }

/-! ## Units -/

/-- How many units the decoder takes a duration for. -/
def unitsIn (duration : ℕ) : ℕ := (duration + (IMON_UNIT / 2 - 1)) / IMON_UNIT

/-- The units of an array of events. -/
def expand (evs : List IrRawEvent) : List Bool := evs.flatMap fun ev => List.replicate (unitsIn ev.duration) ev.pulse

/-- The decoder over a sequence of units. -/
def unitsAll : ImonDec → List Bool → ImonDec × List ImonReport
  | data, [] => (data, [])
  | data, u :: us =>
    ((unitsAll (imonUnit data u).1 us).1, (imonUnit data u).2.1 ++ (unitsAll (imonUnit data u).1 us).2)

theorem unitsAll_append (data : ImonDec) (us us' : List Bool) :
    unitsAll data (us ++ us') = ((unitsAll (unitsAll data us).1 us').1,
      (unitsAll data us).2 ++ (unitsAll (unitsAll data us).1 us').2) := by
  induction us generalizing data with
  | nil => rfl
  | cons u us ih =>
    rw [List.cons_append, unitsAll, unitsAll, ih]
    dsimp only
    rw [List.append_assoc]

/-- A decoder that has failed takes no units. -/
theorem unitsAll_error {data : ImonDec} (h : data.state = .error) (us : List Bool) :
    unitsAll data us = (data, []) := by
  have hunit : ∀ u, imonUnit data u = (data, [], .ok ()) := fun u => by
    unfold imonUnit
    rw [h]
  induction us with
  | nil => rfl
  | cons u us ih =>
    rw [unitsAll, hunit]
    dsimp only
    rw [ih]
    rfl

/-- A unit that does not fit makes no report, and the decoder waits for a pause. -/
theorem imonUnit_error {data data' : ImonDec} {pulse : Bool} {reports : List ImonReport} {e : Errno}
    (h : imonUnit data pulse = (data', reports, .error e)) : data'.state = .error := by
  revert h
  unfold imonUnit imonBitStart
  dsimp only
  split
  · split_ifs <;> exact nofun
  · split_ifs
    · exact nofun
    · intro h
      cases h
      rfl
    · exact nofun
  · split_ifs
    · intro h
      cases h
      rfl
    all_goals exact nofun
  · split_ifs
    · intro h
      cases h
      rfl
    · exact nofun
  · exact nofun

theorem duration_decreaseDuration (ev : IrRawEvent) (d : ℕ) :
    (decreaseDuration ev d).duration = ev.duration - d := rfl

theorem pulse_decreaseDuration (ev : IrRawEvent) (d : ℕ) : (decreaseDuration ev d).pulse = ev.pulse := rfl

/-- What is left of a duration behind one unit. -/
theorem unitsIn_decrease {d : ℕ} (h : geqMargin d IMON_UNIT (IMON_UNIT / 2)) :
    unitsIn d = unitsIn (d - IMON_UNIT) + 1 := by
  unfold geqMargin at h
  unfold unitsIn
  unfold IMON_UNIT at *
  omega

/-- **The loop takes an event unit by unit**, and ends when they are used up. -/
theorem imonLoop_units {n : ℕ} {ev : IrRawEvent} (hn : unitsIn ev.duration ≤ n) (data : ImonDec) :
    ((imonLoop n data ev).1, (imonLoop n data ev).2.1) =
      unitsAll data (List.replicate (unitsIn ev.duration) ev.pulse) := by
  induction n generalizing data ev with
  | zero =>
    rw [Nat.le_zero.1 hn]
    rfl
  | succ n ih =>
    by_cases h : geqMargin ev.duration IMON_UNIT (IMON_UNIT / 2)
    · have hunits := unitsIn_decrease h
      rw [hunits, List.replicate_succ, unitsAll, imonLoop, if_neg (not_not.2 h)]
      have hrest := @ih (decreaseDuration ev IMON_UNIT)
        (by rw [duration_decreaseDuration]; omega)
      rcases hunit : imonUnit data ev.pulse with ⟨data', reports, e | _⟩
      · dsimp only
        rw [unitsAll_error (imonUnit_error hunit), List.append_nil]
      · have hdata' := hrest data'
        rw [duration_decreaseDuration, pulse_decreaseDuration] at hdata'
        dsimp only
        rw [← hdata']
    · have hunits : unitsIn ev.duration = 0 := by
        unfold geqMargin IMON_UNIT at h
        unfold unitsIn IMON_UNIT
        omega
      rw [hunits, imonLoop, if_pos h]
      rfl

/-- A decoder that has not failed behind some units has not failed within them. -/
theorem state_of_append {data : ImonDec} {us us' : List Bool}
    (h : (unitsAll data (us ++ us')).1.state ≠ .error) : (unitsAll data us).1.state ≠ .error := by
  rw [unitsAll_append] at h
  intro herror
  rw [unitsAll_error herror] at h
  exact h herror

theorem unitsIn_le (duration : ℕ) : unitsIn duration ≤ duration / IMON_UNIT + 1 := by
  unfold unitsIn IMON_UNIT
  omega

/-- An event is its units for a decoder that has not failed. -/
theorem irImonDecode_units {ev : IrRawEvent} (hev : isTimingEvent ev = true) {data : ImonDec}
    (hstate : data.state ≠ .error) : ((irImonDecode data ev).1, (irImonDecode data ev).2.1) =
      unitsAll data (List.replicate (unitsIn ev.duration) ev.pulse) := by
  have hdecode : irImonDecode data ev = imonLoop (ev.duration / IMON_UNIT + 1) data ev := by
    unfold irImonDecode
    rw [if_neg (by rw [hev]; exact nofun), if_neg hstate]
  rw [hdecode]
  exact imonLoop_units (unitsIn_le ev.duration) data

/-- **The decoder over events is the decoder over their units**, unless it fails. -/
theorem imonAll_expand {evs : List IrRawEvent} (htiming : ∀ ev ∈ evs, isTimingEvent ev = true) {data : ImonDec}
    (h : (unitsAll data (expand evs)).1.state ≠ .error) : imonAll data evs = unitsAll data (expand evs) := by
  induction evs generalizing data with
  | nil => rfl
  | cons ev evs ih =>
    obtain ⟨hev, hevs⟩ := List.forall_mem_cons.1 htiming
    have hsplit : expand (ev :: evs) = List.replicate (unitsIn ev.duration) ev.pulse ++ expand evs :=
      List.flatMap_cons
    have hstate : data.state ≠ .error := fun herror => h (by rw [unitsAll_error herror]; exact herror)
    have hunits := irImonDecode_units hev hstate
    rw [imonAll]
    generalize irImonDecode data ev = result at hunits ⊢
    rw [hsplit, unitsAll_append, ← hunits] at h ⊢
    dsimp only at h ⊢
    rw [ih hevs h]

/-! ## The units of a frame -/

/-- The units of the `k` bits from bit `t` up. -/
def imonUnits (scancode t : ℕ) : ℕ → List Bool
  | 0 => []
  | k + 1 => imonCheck scancode (t + k) :: decide (scancode &&& 2 ^ (t + k) = 0) :: imonUnits scancode t k

theorem imonUnits_append (scancode t k : ℕ) :
    imonUnits scancode t k ++ imonUnits scancode 0 t = imonUnits scancode 0 (k + t) := by
  induction k with
  | zero => rw [imonUnits, List.nil_append, Nat.zero_add]
  | succ k ih =>
    rw [imonUnits, List.cons_append, List.cons_append, ih, Nat.add_right_comm, imonUnits, Nat.zero_add,
      Nat.add_comm t k]

/-- The loop of the encoder writes these units. -/
theorem fills_imonBits (scancode n : ℕ) (s : RawEvents) :
    Fills (imonBits scancode n) s ((imonUnits scancode 0 n).foldl (withHalf IMON_UNIT) s.ev) := by
  induction n generalizing s with
  | zero => exact fills_done s
  | succ n ih =>
    rw [imonUnits, Nat.zero_add]
    exact (fills_half _ _ s).andThen fun max => (fills_half _ _ ⟨_, max⟩).andThen fun max => ih ⟨_, max⟩

theorem withHalf_ne_nil {ev : List IrRawEvent} (h : ev ≠ []) (clock : ℕ) (pulse : Bool) :
    withHalf clock ev pulse ≠ [] := by
  unfold withHalf
  split_ifs
  · cases ev with
    | nil => exact absurd rfl h
    | cons e ev => exact List.cons_ne_nil _ _
  · exact List.cons_ne_nil _ _

/-- One more unit in the events is one more when they are cut. -/
theorem expand_withHalf {ev : List IrRawEvent} (h : ev ≠ []) (pulse : Bool) :
    expand (withHalf IMON_UNIT ev pulse).reverse = expand ev.reverse ++ [pulse] := by
  unfold withHalf expand
  split_ifs with hpulse
  · cases ev with
    | nil => exact absurd rfl h
    | cons e ev =>
      have hunits : unitsIn (e.duration + IMON_UNIT) = unitsIn e.duration + 1 := by
        unfold unitsIn
        rw [Nat.add_right_comm, Nat.add_div_right _ (by decide)]
      change List.flatMap _ (List.reverse (_ :: ev)) = _
      rw [List.reverse_cons, List.reverse_cons, List.flatMap_append, List.flatMap_append, List.append_assoc]
      refine congrArg _ ?_
      rw [List.flatMap_singleton, List.flatMap_singleton]
      dsimp only
      rw [hunits, List.replicate_succ', hpulse]
      rfl
  · have hunit : unitsIn IMON_UNIT = 1 := by decide
    rw [List.reverse_cons, List.flatMap_append, List.flatMap_singleton]
    change _ ++ List.replicate (unitsIn IMON_UNIT) pulse = _
    rw [hunit]
    rfl

/-- **The events are cut into the units** that they have been written from. -/
theorem expand_foldl {ev : List IrRawEvent} (h : ev ≠ []) (us : List Bool) :
    us.foldl (withHalf IMON_UNIT) ev ≠ [] ∧
      expand (us.foldl (withHalf IMON_UNIT) ev).reverse = expand ev.reverse ++ us := by
  induction us generalizing ev with
  | nil => exact ⟨h, (List.append_nil _).symm⟩
  | cons u us ih =>
    obtain ⟨hne, heq⟩ := ih (withHalf_ne_nil h IMON_UNIT u)
    refine ⟨hne, heq.trans ?_⟩
    rw [expand_withHalf h, List.append_assoc]
    rfl

/-! ## Taking a frame -/

/-- The decoder with `m` bits of a frame to come. -/
def imonOpened (scancode : ℕ) (stickKeyboard : Bool) (m : ℕ) (lastChk : Bool) : ImonDec :=
  ⟨if m = 0 then .finished else .bitChk, (m : ℤ) - 1, lastChk, scancode >>> m, stickKeyboard⟩

theorem shiftRight_succ_eq (x m : ℕ) : x >>> (m + 1) = x / 2 ^ m / 2 := by
  rw [Nat.shiftRight_eq_div_pow, pow_succ, Nat.div_div_eq_div_mul]

/-- The bits of a scancode above bit `m`, and that bit. -/
theorem shiftRight_step {scancode : ℕ} (hlt : scancode < 2 ^ 31) (m : ℕ) :
    ((scancode >>> (m + 1)) <<< 1) % 2 ^ 32 ||| (!decide (scancode &&& 2 ^ m = 0)).toNat = scancode >>> m := by
  have hbit : (!decide (scancode &&& 2 ^ m = 0)).toNat = scancode / 2 ^ m % 2 := by
    by_cases h : scancode &&& 2 ^ m = 0
    · rw [decide_eq_true h, (land_eq_zero_iff rfl scancode).1 h]
      rfl
    · have hne := mt (land_eq_zero_iff rfl scancode).2 h
      rw [decide_eq_false h]
      change 1 = _
      omega
  have hle : scancode / 2 ^ m ≤ scancode := Nat.div_le_self _ _
  rw [shiftRight_succ_eq, shiftLeft_one_lor (by omega), hbit, Nat.shiftRight_eq_div_pow]
  omega

/-- The check field says whether two bits are zero. -/
theorem imonCheck_eq {i : ℕ} (hi : IMON_CHKBITS.testBit i = true) (scancode : ℕ) :
    imonCheck scancode i = decide (scancode >>> i &&& 3 = 0) := by
  unfold imonCheck
  rw [if_pos hi]
  refine decide_eq_decide.2 ?_
  rw [Nat.and_or_distrib_left, Nat.or_eq_zero_iff, land_eq_zero_iff rfl, land_eq_zero_iff rfl,
    Nat.and_two_pow_sub_one_eq_mod _ 2, Nat.shiftRight_eq_div_pow, pow_succ, ← Nat.div_div_eq_div_mul]
  omega

/-- **The decoder takes the two units of a bit.** -/
theorem imonBit_taken {scancode : ℕ} (hlt : scancode < 2 ^ 31) (stickKeyboard : Bool) (m : ℕ) (lastChk : Bool) :
    ∃ lastChk', unitsAll (imonOpened scancode stickKeyboard (m + 1) lastChk)
      [imonCheck scancode m, decide (scancode &&& 2 ^ m = 0)] =
        (imonOpened scancode stickKeyboard m lastChk', []) := by
  have hcount : ((m + 1 : ℕ) : ℤ) - 1 = m := by omega
  have hstart : imonOpened scancode stickKeyboard (m + 1) lastChk =
      ⟨.bitChk, m, lastChk, scancode >>> (m + 1), stickKeyboard⟩ := by
    unfold imonOpened
    rw [if_neg (Nat.succ_ne_zero m), hcount]
  have hchkbit : imonChkbit m = IMON_CHKBITS.testBit m := rfl
  have hbit : ∀ chk, (IMON_CHKBITS.testBit m = true → chk = imonCheck scancode m) →
      imonUnit ⟨.bitStart, m, chk, scancode >>> (m + 1), stickKeyboard⟩ (decide (scancode &&& 2 ^ m = 0)) =
        (imonOpened scancode stickKeyboard m chk, [], .ok ()) := fun chk hchk => by
    change imonBitStart _ _ = _
    unfold imonBitStart imonOpened
    dsimp only
    rw [hchkbit, shiftRight_step hlt, if_neg]
    · have hzero : ((m : ℤ) = 0) ↔ m = 0 := Int.natCast_eq_zero
      rw [if_congr hzero rfl rfl]
    · rintro ⟨h, hne⟩
      exact hne ((hchk h).trans (imonCheck_eq h scancode))
  rw [hstart]
  by_cases h : IMON_CHKBITS.testBit m = true
  · have hunit : imonUnit ⟨.bitChk, m, lastChk, scancode >>> (m + 1), stickKeyboard⟩ (imonCheck scancode m) =
        (⟨.bitStart, m, imonCheck scancode m, scancode >>> (m + 1), stickKeyboard⟩, [], .ok ()) := if_pos h
    refine ⟨imonCheck scancode m, ?_⟩
    rw [unitsAll, hunit, unitsAll, hbit _ fun _ => rfl]
    rfl
  · have hspace : imonCheck scancode m = false := if_neg h
    have hunit : imonUnit ⟨.bitChk, m, lastChk, scancode >>> (m + 1), stickKeyboard⟩ false =
        (⟨.bitStart, m, lastChk, scancode >>> (m + 1), stickKeyboard⟩, [], .ok ()) := if_neg h
    refine ⟨lastChk, ?_⟩
    rw [hspace, unitsAll, hunit, unitsAll, hbit _ fun h' => absurd h' h]
    rfl

/-- **The decoder takes the units** of a frame. -/
theorem imonUnits_taken {scancode : ℕ} (hlt : scancode < 2 ^ 31) (stickKeyboard : Bool) (t k : ℕ) (lastChk : Bool) :
    ∃ lastChk', unitsAll (imonOpened scancode stickKeyboard (t + k) lastChk) (imonUnits scancode t k) =
      (imonOpened scancode stickKeyboard t lastChk', []) := by
  induction k generalizing lastChk with
  | zero => exact ⟨lastChk, rfl⟩
  | succ k ih =>
    obtain ⟨chk, hbit⟩ := imonBit_taken hlt stickKeyboard (t + k) lastChk
    obtain ⟨chk', hrest⟩ := ih chk
    refine ⟨chk', ?_⟩
    rw [imonUnits]
    change unitsAll _ ([_, _] ++ _) = _
    rw [unitsAll_append, ← Nat.add_assoc, hbit]
    dsimp only
    rw [hrest]
    rfl

/-! ## The end of a frame -/

/-- How many of the low bits are ones: their units cannot be told from silence. -/
def trailingOnes (scancode : ℕ) : ℕ :=
  Nat.find (⟨IMON_BITS + 1, Or.inr rfl⟩ : ∃ i, scancode.testBit i = false ∨ i = IMON_BITS + 1)

theorem trailingOnes_le (scancode : ℕ) : trailingOnes scancode ≤ IMON_BITS + 1 := Nat.find_min' _ (Or.inr rfl)

theorem testBit_trailingOnes {scancode : ℕ} (h : trailingOnes scancode ≠ IMON_BITS + 1) :
    scancode.testBit (trailingOnes scancode) = false :=
  (Nat.find_spec (⟨IMON_BITS + 1, Or.inr rfl⟩ : ∃ i, scancode.testBit i = false ∨ i = IMON_BITS + 1)).resolve_right h

theorem testBit_of_lt_trailingOnes {scancode i : ℕ} (h : i < trailingOnes scancode) :
    scancode.testBit i = true := by
  have hmin := Nat.find_min _ h
  rw [← Bool.not_eq_false]
  exact fun hfalse => hmin (Or.inl hfalse)

/-- The unit of a bit is a pulse if the bit is zero. -/
theorem land_two_pow_eq_zero (scancode i : ℕ) : decide (scancode &&& 2 ^ i = 0) = !scancode.testBit i := by
  rw [Nat.and_two_pow]
  cases scancode.testBit i with
  | true => exact decide_eq_false (by rw [Bool.toNat_true, Nat.one_mul]; exact (Nat.two_pow_pos i).ne')
  | false => exact decide_eq_true (by rw [Bool.toNat_false, Nat.zero_mul])

/-- A bit that is one is two units of space. -/
theorem imonUnits_ones {scancode t : ℕ} (h : ∀ i < t, scancode.testBit i = true) :
    imonUnits scancode 0 t = List.replicate (2 * t) false := by
  induction t with
  | zero => rfl
  | succ t ih =>
    have hone := h t (Nat.lt_succ_self t)
    have hcheck : imonCheck scancode t = false := by
      unfold imonCheck
      split_ifs
      · refine decide_eq_false ?_
        rw [Nat.and_or_distrib_left, Nat.or_eq_zero_iff, Nat.and_two_pow, hone, Bool.toNat_true, Nat.one_mul]
        exact fun h => (Nat.two_pow_pos t).ne' h.1
      · rfl
    rw [imonUnits, Nat.zero_add, hcheck, land_two_pow_eq_zero, hone, ih fun i hi => h i (Nat.lt_succ_of_lt hi),
      Nat.mul_succ, List.replicate_succ, List.replicate_succ]
    rfl

/-- The lowest of some bits comes last. -/
theorem imonUnits_last (scancode t k : ℕ) : imonUnits scancode t (k + 1) =
    imonUnits scancode (t + 1) k ++ [imonCheck scancode t, decide (scancode &&& 2 ^ t = 0)] := by
  induction k with
  | zero => rfl
  | succ k ih =>
    rw [imonUnits, ih, imonUnits, Nat.add_right_comm t 1 k, Nat.add_assoc t k 1]
    rfl

theorem lastPulse_withHalf {ev : List IrRawEvent} (h : ev ≠ []) (clock : ℕ) (pulse : Bool) :
    lastPulse (withHalf clock ev pulse) = pulse := by
  unfold withHalf
  split_ifs with hpulse
  · cases ev with
    | nil => exact absurd rfl h
    | cons e ev => exact hpulse.symm
  · rfl

/-- The events up to the last pulse. -/
def imonFront (scancode : ℕ) : List IrRawEvent :=
  (imonUnits scancode (trailingOnes scancode) (IMON_BITS + 1 - trailingOnes scancode)).foldl
    (withHalf IMON_UNIT) [initIrRawEventDuration true IMON_UNIT]

theorem expand_imonFront (scancode : ℕ) : expand (imonFront scancode).reverse =
    true :: imonUnits scancode (trailingOnes scancode) (IMON_BITS + 1 - trailingOnes scancode) := by
  have hunit : unitsIn IMON_UNIT = 1 := by decide
  have hheader : expand [initIrRawEventDuration true IMON_UNIT] = [true] := by
    unfold expand
    rw [List.flatMap_singleton]
    change List.replicate (unitsIn IMON_UNIT) true = _
    rw [hunit]
    rfl
  refine (expand_foldl (List.cons_ne_nil _ _) _).2.trans ?_
  rw [List.reverse_singleton, hheader]
  rfl

theorem lastPulse_imonFront (scancode : ℕ) : lastPulse (imonFront scancode) = true := by
  unfold imonFront
  rcases hk : IMON_BITS + 1 - trailingOnes scancode with _ | k
  · rfl
  · have hne : trailingOnes scancode ≠ IMON_BITS + 1 := by omega
    rw [imonUnits_last, List.append_cons, List.foldl_append]
    refine (lastPulse_withHalf ?_ IMON_UNIT _).trans ?_
    · exact (expand_foldl (List.cons_ne_nil _ _) _).1
    · rw [land_two_pow_eq_zero, testBit_trailingOnes hne]
      rfl

/-- Spaces behind a pulse run together into one event. -/
theorem foldl_spaces {ev : List IrRawEvent} (h : lastPulse ev = true) (n : ℕ) :
    ∃ e, e.pulse = false ∧ (List.replicate (n + 1) false).foldl (withHalf IMON_UNIT) ev = e :: ev := by
  induction n with
  | zero => exact ⟨_, rfl, if_neg (by rw [h]; exact nofun)⟩
  | succ n ih =>
    obtain ⟨e, he, hev⟩ := ih
    rw [List.replicate_succ', List.foldl_append, hev]
    exact ⟨{ e with duration := e.duration + IMON_UNIT }, he,
      if_pos (c := false = e.pulse) (t := prolong IMON_UNIT (e :: ev)) he.symm⟩

/-- **What the encoder writes**: the events up to the last pulse, and a space behind them if the lowest bit
is one. -/
theorem fills_imon (scancode max : ℕ) : ∃ spaces : List IrRawEvent,
    Fills ((Fill.push true IMON_UNIT).andThen (imonBits scancode (IMON_BITS + 1))) ⟨[], max⟩
      (spaces ++ imonFront scancode) ∧
    (spaces = [] ∧ trailingOnes scancode = 0 ∨ ∃ e, e.pulse = false ∧ spaces = [e] ∧ trailingOnes scancode ≠ 0) := by
  have hbits := fun max => fills_imonBits scancode (IMON_BITS + 1) ⟨[initIrRawEventDuration true IMON_UNIT], max⟩
  have hfills : Fills ((Fill.push true IMON_UNIT).andThen (imonBits scancode (IMON_BITS + 1))) ⟨[], max⟩
      ((imonUnits scancode 0 (IMON_BITS + 1)).foldl (withHalf IMON_UNIT)
        [initIrRawEventDuration true IMON_UNIT]) := (fills_push true IMON_UNIT ⟨[], max⟩).andThen hbits
  have hle := trailingOnes_le scancode
  have hsplit := imonUnits_append scancode (trailingOnes scancode) (IMON_BITS + 1 - trailingOnes scancode)
  rw [Nat.sub_add_cancel hle, imonUnits_ones fun i => testBit_of_lt_trailingOnes] at hsplit
  rw [← hsplit, List.foldl_append] at hfills
  rcases ht : trailingOnes scancode with _ | t
  · rw [ht] at hfills
    refine ⟨[], ?_, Or.inl ⟨rfl, rfl⟩⟩
    unfold imonFront
    rw [ht]
    exact hfills
  · obtain ⟨e, he, hev⟩ := foldl_spaces (lastPulse_imonFront scancode) (2 * t + 1)
    refine ⟨[e], ?_, Or.inr ⟨e, he, rfl, Nat.succ_ne_zero t⟩⟩
    have hend : (List.replicate (2 * trailingOnes scancode) false).foldl (withHalf IMON_UNIT)
        (imonFront scancode) = e :: imonFront scancode := by
      rw [ht]
      exact hev
    unfold imonFront at hend
    rw [hend] at hfills
    exact hfills

/-- The array up to the last pulse is what is returned. -/
theorem irImonEncode_events (scancode max : ℕ) :
    (∀ events, (irImonEncode scancode max).events = .ok events → events = (imonFront scancode).reverse) ∧
      ((imonFront scancode).length + 1 ≤ max →
        (irImonEncode scancode max).events = .ok (imonFront scancode).reverse) := by
  obtain ⟨spaces, ⟨-, hfit, hfull⟩, hspaces⟩ := fills_imon scancode max
  rw [List.length_nil, Nat.zero_add] at hfit hfull
  have hlength : spaces.length ≤ 1 := by
    rcases hspaces with ⟨rfl, -⟩ | ⟨e, -, rfl, -⟩
    · exact Nat.zero_le 1
    · exact Nat.le_refl 1
  have hevents : (spaces ++ imonFront scancode).length ≤ max →
      (irImonEncode scancode max).events = .ok (imonFront scancode).reverse := fun h => by
    unfold irImonEncode Encoding.events
    rw [hfit h]
    refine congrArg Except.ok ?_
    dsimp only
    rcases hspaces with ⟨rfl, -⟩ | ⟨e, he, rfl, -⟩
    · rw [List.nil_append, if_pos (lastPulse_imonFront scancode), ← List.length_reverse, List.take_length]
    · rw [if_neg (by rw [List.singleton_append, lastPulse, he]; exact nofun), List.singleton_append,
        List.length_cons, List.reverse_cons, Nat.add_sub_cancel, ← List.length_reverse, List.take_left]
  constructor
  · intro events hev
    rcases Nat.lt_or_ge max (spaces ++ imonFront scancode).length with hlt | hge
    · obtain ⟨ev', hev', -⟩ := hfull hlt
      unfold irImonEncode Encoding.events at hev
      rw [hev'] at hev
      exact nomatch hev
    · exact Except.ok.inj (hev.symm.trans (hevents hge))
  · intro h
    rw [List.length_append] at hevents
    exact hevents (by omega)

/-! ## The round trip -/

/-- The reports of a frame where the pad is a mouse: a word of the stick moves the pointer. -/
def imonReports (scancode : ℕ) : List ImonReport :=
  (if imonPad scancode then [.relX (imonRelX scancode), .relY (imonRelY scancode),
    .btnLeft (scancode &&& 0x00010000 != 0), .btnRight (scancode &&& 0x00040000 != 0)] else []) ++
    [.keydown ⟨.imon, scancode, 0⟩]

theorem irImonDecodeScancode_reports {imon : ImonDec} (h : imon.stickKeyboard = false) :
    (irImonDecodeScancode imon).2 = imonReports imon.bits := by
  obtain ⟨state, count, lastChk, bits, _⟩ := imon
  obtain rfl : _ = false := h
  unfold irImonDecodeScancode imonReports
  dsimp only
  by_cases htoggle : bits = 0x299115b7
  · subst htoggle
    rw [if_pos rfl, if_neg (by decide : ¬imonPad 0x299115b7), if_neg (by decide : ¬imonPad 0x299115b7)]
    rfl
  · rw [if_neg htoggle]
    by_cases hpad : imonPad bits
    · rw [if_pos hpad, if_pos hpad]
      dsimp only
      rw [if_neg (c := imonRelX bits ≠ 0 ∧ imonRelY bits ≠ 0 ∧ false = true) fun h => nomatch h.2.2]
      rfl
    · rw [if_neg hpad, if_neg hpad]
      rfl

/-- A decoder that waits for a frame takes silence. -/
theorem unitsAll_silence {data : ImonDec} (h : data.state = .inactive) (n : ℕ) :
    unitsAll data (List.replicate n false) = (data, []) := by
  have hunit : imonUnit data false = (data, [], .ok ()) := by
    unfold imonUnit
    rw [h]
    rfl
  induction n with
  | zero => rfl
  | succ n ih =>
    rw [List.replicate_succ, unitsAll, hunit]
    dsimp only
    rw [ih]
    rfl

/-- **The units of a frame and some silence**: it takes one unit to end the frame. -/
theorem unitsAll_frame {scancode : ℕ} (hlt : scancode < 2 ^ 31) {data : ImonDec} (hdata : data.state = .inactive)
    (hpad : data.stickKeyboard = false) (n : ℕ) :
    (unitsAll data (true :: imonUnits scancode 0 (IMON_BITS + 1) ++ List.replicate n false)).1.state ≠ .error ∧
      (unitsAll data (true :: imonUnits scancode 0 (IMON_BITS + 1) ++ List.replicate n false)).2 =
        if n = 0 then [] else imonReports scancode := by
  obtain ⟨_, count, lastChk, bits, _⟩ := data
  obtain rfl : _ = ImonState.inactive := hdata
  obtain rfl : _ = false := hpad
  have hheader : imonUnit ⟨.inactive, count, lastChk, bits, false⟩ true =
      (imonOpened scancode false (0 + (IMON_BITS + 1)) lastChk, [], .ok ()) := by
    have hzero : scancode >>> (0 + (IMON_BITS + 1)) = 0 := by
      rw [Nat.shiftRight_eq_div_pow]
      exact Nat.div_eq_of_lt hlt
    unfold imonOpened
    rw [hzero]
    rfl
  obtain ⟨lastChk', hunits⟩ := imonUnits_taken hlt false 0 (IMON_BITS + 1) lastChk
  rw [unitsAll_append, unitsAll, hheader]
  dsimp only
  rw [hunits]
  dsimp only
  cases n with
  | zero => exact ⟨ImonState.noConfusion, rfl⟩
  | succ n =>
    have hreports : (irImonDecodeScancode (imonOpened scancode false 0 lastChk')).2 =
        imonReports (scancode >>> 0) := irImonDecodeScancode_reports rfl
    have hfinished : imonUnit (imonOpened scancode false 0 lastChk') false =
        ({ (irImonDecodeScancode (imonOpened scancode false 0 lastChk')).1 with state := .inactive },
          (irImonDecodeScancode (imonOpened scancode false 0 lastChk')).2, .ok ()) := rfl
    rw [List.replicate_succ, unitsAll, hfinished]
    dsimp only
    rw [unitsAll_silence rfl, hreports, Nat.shiftRight_zero, if_neg (Nat.succ_ne_zero n)]
    exact ⟨ImonState.noConfusion, List.append_nil _⟩

/-- How long a silence has to be for so many units. -/
theorem geqMargin_units_iff (duration n : ℕ) :
    geqMargin duration ((n + 1) * IMON_UNIT) (IMON_UNIT / 2) ↔ n < unitsIn duration := by
  unfold geqMargin unitsIn IMON_UNIT
  omega

/-- The silence behind a frame begins with the spaces of its last bits. -/
theorem unitsAll_front {scancode : ℕ} (hlt : scancode < 2 ^ 31) {data : ImonDec} (hdata : data.state = .inactive)
    (hpad : data.stickKeyboard = false) (n : ℕ) :
    (unitsAll data (expand (imonFront scancode).reverse ++ List.replicate n false)).1.state ≠ .error ∧
      (unitsAll data (expand (imonFront scancode).reverse ++ List.replicate n false)).2 =
        if 2 * trailingOnes scancode < n then imonReports scancode else [] := by
  have hsplit := imonUnits_append scancode (trailingOnes scancode) (IMON_BITS + 1 - trailingOnes scancode)
  rw [Nat.sub_add_cancel (trailingOnes_le scancode), imonUnits_ones fun i => testBit_of_lt_trailingOnes]
    at hsplit
  have hframe := fun n => unitsAll_frame hlt hdata hpad n
  rw [← hsplit, ← List.cons_append, ← expand_imonFront] at hframe
  generalize expand (imonFront scancode).reverse = front at *
  rcases Nat.lt_or_ge (2 * trailingOnes scancode) n with hn | hn
  · obtain ⟨hstate, hreports⟩ := hframe (n - 2 * trailingOnes scancode)
    rw [List.append_assoc, List.replicate_append_replicate, Nat.add_sub_cancel' hn.le] at hstate hreports
    rw [if_neg (by omega)] at hreports
    rw [if_pos hn]
    exact ⟨hstate, hreports⟩
  · obtain ⟨hstate, hreports⟩ := hframe 0
    have hmore : front ++ List.replicate (2 * trailingOnes scancode) false ++ List.replicate 0 false =
        front ++ List.replicate n false ++ List.replicate (2 * trailingOnes scancode - n) false := by
      rw [List.append_assoc, List.append_assoc, List.replicate_append_replicate,
        List.replicate_append_replicate, Nat.add_sub_cancel' hn, Nat.add_zero]
    rw [hmore] at hstate hreports
    rw [if_neg (Nat.not_lt.2 hn)]
    refine ⟨state_of_append hstate, ?_⟩
    rw [unitsAll_append, if_pos rfl] at hreports
    exact (List.append_eq_nil_iff.1 hreports).1

theorem isTimingEvent_foldl (us : List Bool) {ev : List IrRawEvent} (h : ∀ e ∈ ev, isTimingEvent e = true) :
    ∀ e ∈ us.foldl (withHalf IMON_UNIT) ev, isTimingEvent e = true := by
  induction us generalizing ev with
  | nil => exact h
  | cons u us ih =>
    refine ih ?_
    unfold withHalf
    split_ifs
    · cases ev with
      | nil => exact h
      | cons e ev =>
        obtain ⟨he, hev⟩ := List.forall_mem_cons.1 h
        exact List.forall_mem_cons.2 ⟨he, hev⟩
    · exact List.forall_mem_cons.2 ⟨rfl, h⟩

theorem isTimingEvent_imonFront (scancode gap : ℕ) :
    ∀ ev ∈ (imonFront scancode).reverse ++ [initIrRawEventDuration false gap], isTimingEvent ev = true := by
  intro ev hev
  rcases List.mem_append.1 hev with h | h
  · exact isTimingEvent_foldl _ (List.forall_mem_singleton.2 rfl) ev (List.mem_reverse.1 h)
  · rw [List.mem_singleton.1 h]
    rfl

/-- **What the decoder reports** on the events of a scancode with a silence behind them. -/
theorem imonAll_imonFront {scancode : ℕ} (hbits : InScancodeBits .imon scancode) {data : ImonDec}
    (hdata : data.state = .inactive) (hpad : data.stickKeyboard = false) (gap : ℕ) :
    (imonAll data ((imonFront scancode).reverse ++ [initIrRawEventDuration false gap])).2 =
      if geqMargin gap ((2 * trailingOnes scancode + 1) * IMON_UNIT) (IMON_UNIT / 2) then
        imonReports scancode else [] := by
  have hlt : scancode < 2 ^ 31 := by
    rw [← hbits]
    exact Nat.and_lt_two_pow scancode (by decide)
  have hexpand : expand ((imonFront scancode).reverse ++ [initIrRawEventDuration false gap]) =
      expand (imonFront scancode).reverse ++ List.replicate (unitsIn gap) false := by
    unfold expand
    rw [List.flatMap_append, List.flatMap_singleton]
    rfl
  obtain ⟨hstate, hreports⟩ := unitsAll_front hlt hdata hpad (unitsIn gap)
  rw [← hexpand] at hstate hreports
  rw [imonAll_expand (isTimingEvent_imonFront scancode gap) hstate, hreports]
  exact if_congr (geqMargin_units_iff gap _).symm rfl rfl

/-- A silence that is long enough for every scancode. -/
theorem geqMargin_trailingOnes (scancode : ℕ) {gap : ℕ} (hgap : 63 * IMON_UNIT ≤ gap) :
    geqMargin gap ((2 * trailingOnes scancode + 1) * IMON_UNIT) (IMON_UNIT / 2) := by
  have hle := trailingOnes_le scancode
  unfold geqMargin
  unfold IMON_UNIT IMON_BITS at *
  omega

/-- **iMON**: what is encoded is decoded once a silence is longer than the ones at the end of the scancode,
and before it is reported the stick of the pad moves the pointer, where the scancode is one of its words. -/
theorem irImonDecode_irImonEncode {scancode : ℕ} (hbits : InScancodeBits .imon scancode) {data : ImonDec}
    (hdata : data.state = .inactive) (hpad : data.stickKeyboard = false) (gap : ℕ) :
    (∃ room, ∀ max, room ≤ max → ∃ events, (irImonEncode scancode max).events = .ok events) ∧
      ∀ max events, (irImonEncode scancode max).events = .ok events →
        (imonAll data (events ++ [initIrRawEventDuration false gap])).2 =
          if geqMargin gap ((2 * trailingOnes scancode + 1) * IMON_UNIT) (IMON_UNIT / 2) then
            imonReports scancode else [] := by
  refine ⟨⟨_, fun max hmax => ⟨_, (irImonEncode_events scancode max).2 hmax⟩⟩, fun max events hevents => ?_⟩
  rw [(irImonEncode_events scancode max).1 events hevents]
  exact imonAll_imonFront hbits hdata hpad gap

/-- The key that switches the pad over, from whatever an earlier frame has left. -/
theorem irImonDecode_irImonEncode_toggle : ∃ room, ∀ max, room ≤ max → ∃ events,
    (irImonEncode 0x299115b7 max).events = .ok events ∧
      (imonAll ⟨.inactive, 3, true, 5, false⟩ (events ++ [initIrRawEventDuration false 30000000])).2 =
        [.keydown ⟨.imon, 0x299115b7, 0⟩] := by
  obtain ⟨⟨room, hroom⟩, hdecode⟩ := irImonDecode_irImonEncode (by decide : InScancodeBits .imon 0x299115b7)
    (rfl : (⟨.inactive, 3, true, 5, false⟩ : ImonDec).state = .inactive) rfl 30000000
  refine ⟨room, fun max hmax => ?_⟩
  obtain ⟨events, hevents⟩ := hroom max hmax
  refine ⟨events, hevents, (hdecode max events hevents).trans ?_⟩
  rw [if_pos (geqMargin_trailingOnes _ (by decide))]
  rfl

/-- A word of the stick moves the pointer before it is reported. -/
theorem not_irImonDecode_pad : ∃ max events, (irImonEncode 0x680a05b7 max).events = .ok events ∧
    (imonAll ⟨.inactive, 0, false, 0, false⟩ (events ++ [initIrRawEventDuration false 30000000])).2 ≠
      [.keydown ⟨.imon, 0x680a05b7, 0⟩] ∧
    (imonAll ⟨.inactive, 0, false, 0, false⟩ (events ++ [initIrRawEventDuration false 30000000])).2 =
      [.relX 8, .relY 0, .btnLeft false, .btnRight false, .keydown ⟨.imon, 0x680a05b7, 0⟩] := by
  have hreports := imonAll_imonFront (by decide : InScancodeBits .imon 0x680a05b7)
    (rfl : (⟨.inactive, 0, false, 0, false⟩ : ImonDec).state = .inactive) rfl 30000000
  rw [if_pos (geqMargin_trailingOnes _ (by decide))] at hreports
  refine ⟨_, _, (irImonEncode_events 0x680a05b7 _).2 (Nat.le_refl _), ?_, ?_⟩
  · rw [hreports]
    decide
  · rw [hreports]
    decide

end Rc
end TbsMedia
