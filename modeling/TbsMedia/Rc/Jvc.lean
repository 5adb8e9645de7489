import TbsMedia.Lib.BitFields
import TbsMedia.Rc.BitReceiver

/-!
# JVC

A frame has a header, 16 bits in pulse distance code, the highest first, and a trailer.  A frame that is
sent again has no header; the decoder compares it with the first one.

* `irJvcDecode`, `irJvcEncode`: the two halves of `ir-jvc-decoder.c`.
* `irJvc_roundTrips`: what is encoded is decoded.
-/

namespace TbsMedia
namespace Rc

open Lib

def JVC_NBITS : ℕ := 16
def JVC_UNIT : ℕ := 525000
def JVC_HEADER_PULSE : ℕ := 16 * JVC_UNIT
def JVC_HEADER_SPACE : ℕ := 8 * JVC_UNIT
def JVC_BIT_PULSE : ℕ := 1 * JVC_UNIT
def JVC_BIT_0_SPACE : ℕ := 1 * JVC_UNIT
def JVC_BIT_1_SPACE : ℕ := 3 * JVC_UNIT
def JVC_TRAILER_PULSE : ℕ := 1 * JVC_UNIT
def JVC_TRAILER_SPACE : ℕ := 35 * JVC_UNIT

/-! ## The decoder -/

/-- `enum jvc_state`. -/
inductive JvcState where
  | inactive | headerSpace | bitPulse | bitSpace | trailerPulse | trailerSpace | checkRepeat
  deriving DecidableEq, Repr

/-- `struct jvc_dec`. -/
structure JvcDec where
  state : JvcState
  bits : ℕ
  oldBits : ℕ
  count : ℕ
  first : Bool
  toggle : Bool
  deriving DecidableEq, Repr

/-- What the decoder does with an event. -/
abbrev JvcResult := JvcDec × Except Errno (List Report)

/-- The label `out`. -/
def jvcOut (data : JvcDec) : JvcResult := ({ data with state := .inactive }, .error .EINVAL)

/-- `STATE_INACTIVE`. -/
def jvcInactive (data : JvcDec) (ev : IrRawEvent) : JvcResult :=
  if ev.pulse = false then jvcOut data
  else if ¬ eqMargin ev.duration JVC_HEADER_PULSE (JVC_UNIT / 2) then jvcOut data
  else ({ data with count := 0, first := true, toggle := !data.toggle, state := .headerSpace }, .ok [])

/-- `STATE_BIT_PULSE`. -/
def jvcBitPulse (data : JvcDec) (ev : IrRawEvent) : JvcResult :=
  if ev.pulse = false then jvcOut data
  else if ¬ eqMargin ev.duration JVC_BIT_PULSE (JVC_UNIT / 2) then jvcOut data
  else ({ data with state := .bitSpace }, .ok [])

/-- `STATE_BIT_SPACE`. -/
def jvcBitSpace (data : JvcDec) (ev : IrRawEvent) : JvcResult :=
  if ev.pulse then jvcOut data
  else
    let bits := (data.bits <<< 1) % 2 ^ 16
    let state : JvcState := if data.count + 1 = JVC_NBITS then .trailerPulse else .bitPulse
    if eqMargin ev.duration JVC_BIT_1_SPACE (JVC_UNIT / 2) then
      ({ data with bits := bits ||| 1, count := data.count + 1, state }, .ok [])
    else if eqMargin ev.duration JVC_BIT_0_SPACE (JVC_UNIT / 2) then
      ({ data with bits, count := data.count + 1, state }, .ok [])
    else jvcOut { data with bits }

/-- The scancode of a register. -/
def jvcScancode (bits : ℕ) : ℕ :=
  bitrev8 ((bits >>> 8) &&& 0xff) <<< 8 ||| bitrev8 ((bits >>> 0) &&& 0xff) <<< 0

/-- `STATE_TRAILER_SPACE`. -/
def jvcTrailerSpace (data : JvcDec) (ev : IrRawEvent) : JvcResult :=
  if ev.pulse then jvcOut data
  else if ¬ geqMargin ev.duration JVC_TRAILER_SPACE (JVC_UNIT / 2) then jvcOut data
  else if data.first then
    ({ data with first := false, oldBits := data.bits, count := 0, state := .checkRepeat },
      .ok [.keydown ⟨.jvc, jvcScancode data.bits, data.toggle.toNat⟩])
  else if data.bits = data.oldBits then ({ data with count := 0, state := .checkRepeat }, .ok [.again])
  else jvcOut data

/-- `STATE_CHECK_REPEAT`, with the jump back to `again`. -/
def jvcCheckRepeat (data : JvcDec) (ev : IrRawEvent) : JvcResult :=
  if ev.pulse = false then jvcOut data
  else if eqMargin ev.duration JVC_HEADER_PULSE (JVC_UNIT / 2) then
    jvcInactive { data with state := .inactive } ev
  else jvcBitPulse { data with state := .bitPulse } ev

/-- The `switch` over the state. -/
def jvcSwitch (data : JvcDec) (ev : IrRawEvent) : JvcResult :=
  match data.state with
  | .inactive => jvcInactive data ev
  | .headerSpace =>
    if ev.pulse then jvcOut data
    else if ¬ eqMargin ev.duration JVC_HEADER_SPACE (JVC_UNIT / 2) then jvcOut data
    else ({ data with state := .bitPulse }, .ok [])
  | .bitPulse => jvcBitPulse data ev
  | .bitSpace => jvcBitSpace data ev
  | .trailerPulse =>
    if ev.pulse = false then jvcOut data
    else if ¬ eqMargin ev.duration JVC_TRAILER_PULSE (JVC_UNIT / 2) then jvcOut data
    else ({ data with state := .trailerSpace }, .ok [])
  | .trailerSpace => jvcTrailerSpace data ev
  | .checkRepeat => jvcCheckRepeat data ev

/-- `ir_jvc_decode`. -/
def irJvcDecode (data : JvcDec) (ev : IrRawEvent) : JvcResult :=
  if isTimingEvent ev = false then
    (if ev.reset then { data with state := .inactive } else data, .ok [])
  else if ¬ geqMargin ev.duration JVC_UNIT (JVC_UNIT / 2) then jvcOut data
  else jvcSwitch data ev

/-! ## The encoder -/

/-- `ir_jvc_timings`. -/
def irJvcTimings : TimingsPd where
  headerPulse := JVC_HEADER_PULSE
  headerSpace := JVC_HEADER_SPACE
  bitPulse := JVC_BIT_PULSE
  bitSpace := fun b => if b then JVC_BIT_1_SPACE else JVC_BIT_0_SPACE
  trailerPulse := JVC_TRAILER_PULSE
  trailerSpace := JVC_TRAILER_SPACE
  msbFirst := true

/-- The word that is sent. -/
def jvcRaw (scancode : ℕ) : ℕ :=
  bitrev8 ((scancode >>> 8) &&& 0xff) <<< 8 ||| bitrev8 ((scancode >>> 0) &&& 0xff) <<< 0

/-- `ir_jvc_encode`. -/
def irJvcEncode (scancode max : ℕ) : Encoding :=
  encodeWith (irRawGenPd irJvcTimings JVC_NBITS (jvcRaw scancode)) max

/-! ## Taking a frame -/

/-- The decoder behind `m` bits of a first frame. -/
def jvcOpened (oldBits : ℕ) (toggle : Bool) (m v : ℕ) : JvcDec :=
  ⟨if m = JVC_NBITS then .trailerPulse else .bitPulse, v, oldBits, m, true, toggle⟩

/-- How the decoder takes the bits of a frame. -/
theorem jvcReceiver (oldBits : ℕ) (toggle : Bool) : BitReceiver irJvcDecode
    (fun b => pulseSpace irJvcTimings.bitPulse (irJvcTimings.bitSpace b)) 16 JVC_NBITS
    (jvcOpened oldBits toggle) := by
  refine ⟨fun m v b hm => ?_⟩
  have hstate : jvcOpened oldBits toggle m v = ⟨.bitPulse, v, oldBits, m, true, toggle⟩ := by
    unfold jvcOpened
    rw [if_neg hm.ne]
  have hpulse : irJvcDecode ⟨.bitPulse, v, oldBits, m, true, toggle⟩
      (initIrRawEventDuration true JVC_BIT_PULSE) = (⟨.bitSpace, v, oldBits, m, true, toggle⟩, .ok []) := rfl
  have hspace : irJvcDecode ⟨.bitSpace, v, oldBits, m, true, toggle⟩
      (initIrRawEventDuration false (irJvcTimings.bitSpace b)) =
      (jvcOpened oldBits toggle (m + 1) (shiftIn 16 v b), .ok []) := by
    cases b with
    | true => rfl
    | false =>
      unfold shiftIn
      rw [Bool.toNat_false, Nat.or_zero]
      rfl
  rw [hstate]
  exact (takes_single hpulse).append (takes_single hspace)

/-- A frame is reported once, and what follows it is not part of one. -/
theorem jvcFrame_taken (raw : ℕ) {data : JvcDec} (hdata : data.state = .inactive) (gap : ℕ) :
    ∃ data', Takes irJvcDecode data
      (pdFrame irJvcTimings JVC_NBITS raw ++ [initIrRawEventDuration false gap]) data'
      [.keydown ⟨.jvc, jvcScancode (shiftAll 16 data.bits (msbBits raw JVC_NBITS)), (!data.toggle).toNat⟩] := by
  obtain ⟨_, bits, oldBits, count, first, toggle⟩ := data
  obtain rfl : _ = JvcState.inactive := hdata
  have hheader : Takes irJvcDecode ⟨.inactive, bits, oldBits, count, first, toggle⟩
      (pulseSpace JVC_HEADER_PULSE JVC_HEADER_SPACE) (jvcOpened oldBits (!toggle) 0 bits) [] := rfl
  have htrailer : ∀ v, Takes irJvcDecode (jvcOpened oldBits (!toggle) JVC_NBITS v)
      (pulseSpace JVC_TRAILER_PULSE JVC_TRAILER_SPACE) ⟨.checkRepeat, v, v, 0, false, !toggle⟩
      [.keydown ⟨.jvc, jvcScancode v, (!toggle).toNat⟩] := fun v => rfl
  have hgap : ∀ v, irJvcDecode ⟨.checkRepeat, v, v, 0, false, !toggle⟩ (initIrRawEventDuration false gap) =
      (⟨.inactive, v, v, 0, false, !toggle⟩, .error .EINVAL) := fun v => by
    unfold irJvcDecode
    rw [if_neg (isTimingEvent_init false gap)]
    split_ifs <;> rfl
  exact ⟨_, ((jvcReceiver oldBits (!toggle)).pdFrame hheader htrailer raw).append (takes_error (hgap _))⟩

/-! ## The round trip -/

/-- **The decoder finds the scancode** whose bytes the encoder has reversed. -/
theorem jvcScancode_raw {scancode : ℕ} (hbits : InScancodeBits .jvc scancode) (v : ℕ) :
    jvcScancode (shiftAll 16 v (msbBits (jvcRaw scancode) JVC_NBITS)) = scancode := by
  have hmod : scancode % 2 ^ 16 = scancode := (Nat.and_two_pow_sub_one_eq_mod scancode 16).symm.trans hbits
  have hlow := bitrev_lt 8 (scancode % 2 ^ 8)
  have hhigh := bitrev_lt 8 (scancode / 2 ^ 8 % 2 ^ 8)
  have hraw : jvcRaw scancode = bitrev 8 (scancode / 2 ^ 8 % 2 ^ 8) * 2 ^ 8 + bitrev 8 (scancode % 2 ^ 8) := by
    unfold jvcRaw
    rw [land_byte, land_byte, Nat.shiftRight_eq_div_pow, Nat.shiftLeft_zero, Nat.shiftRight_zero]
    exact shiftLeft_lor hlow _
  have hfield : ∀ {s : ℕ}, s + 8 ≤ JVC_NBITS →
      (shiftAll 16 v (msbBits (jvcRaw scancode) JVC_NBITS) >>> s) &&& 0xff =
        jvcRaw scancode / 2 ^ s % 2 ^ 8 := fun {s} hs => by
    rw [land_byte, shiftAll_msb_field v _ hs (Nat.le_refl 16), Nat.shiftRight_eq_div_pow]
  unfold jvcScancode
  rw [hfield (Nat.le_refl 16), hfield (show 0 + 8 ≤ 16 by decide), hraw]
  have hfirst : (bitrev 8 (scancode / 2 ^ 8 % 2 ^ 8) * 2 ^ 8 + bitrev 8 (scancode % 2 ^ 8)) / 2 ^ 8 % 2 ^ 8 =
      bitrev 8 (scancode / 2 ^ 8 % 2 ^ 8) := by omega
  have hsecond : (bitrev 8 (scancode / 2 ^ 8 % 2 ^ 8) * 2 ^ 8 + bitrev 8 (scancode % 2 ^ 8)) / 2 ^ 0 % 2 ^ 8 =
      bitrev 8 (scancode % 2 ^ 8) := by omega
  unfold bitrev8
  rw [hfirst, hsecond, bitrev_bitrev, bitrev_bitrev, Nat.shiftLeft_zero, shiftLeft_lor (by omega)]
  omega

/-- **JVC**: what is encoded is decoded. -/
theorem irJvc_roundTrips {scancode : ℕ} (hbits : InScancodeBits .jvc scancode) :
    RoundTrips irJvcDecode (fun data => data.state = .inactive) (irJvcEncode scancode) .jvc scancode := by
  refine roundTrips_of_emits (emits_pdFrame _ _ _) fun data hdata gap => ?_
  obtain ⟨data', hframe⟩ := jvcFrame_taken (jvcRaw scancode) hdata gap
  rw [jvcScancode_raw hbits] at hframe
  exact ⟨data', _, hframe⟩

end Rc
end TbsMedia
