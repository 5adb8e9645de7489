import TbsMedia.Lib.BitFields
import TbsMedia.Rc.BitReceiver

/-!
# SANYO

A frame has a header, an address of 13 bits with its complement and a command of eight bits with its
complement, the highest bit first, and a trailer.  The decoder checks the complement of the command.

* `irSanyoDecode`, `irSanyoEncode`: the two halves of `ir-sanyo-decoder.c`.
* `irSanyo_roundTrips`: what is encoded is decoded.
-/

namespace TbsMedia
namespace Rc

open Lib

def SANYO_NBITS : ℕ := 13 + 13 + 8 + 8
def SANYO_UNIT : ℕ := 562500
def SANYO_HEADER_PULSE : ℕ := 16 * SANYO_UNIT
def SANYO_HEADER_SPACE : ℕ := 8 * SANYO_UNIT
def SANYO_BIT_PULSE : ℕ := 1 * SANYO_UNIT
def SANYO_BIT_0_SPACE : ℕ := 1 * SANYO_UNIT
def SANYO_BIT_1_SPACE : ℕ := 3 * SANYO_UNIT
def SANYO_REPEAT_SPACE : ℕ := 150 * SANYO_UNIT
def SANYO_TRAILER_PULSE : ℕ := 1 * SANYO_UNIT
def SANYO_TRAILER_SPACE : ℕ := 10 * SANYO_UNIT

/-! ## The decoder -/

/-- `enum sanyo_state`. -/
inductive SanyoState where
  | inactive | headerSpace | bitPulse | bitSpace | trailerPulse | trailerSpace
  deriving DecidableEq, Repr

/-- `struct sanyo_dec`. -/
structure SanyoDec where
  state : SanyoState
  count : ℕ
  bits : ℕ
  deriving DecidableEq, Repr

/-- What the decoder does with an event. -/
abbrev SanyoResult := SanyoDec × Except Errno (List Report)

/-- The end of the function, where the `switch` is left. -/
def sanyoOut (data : SanyoDec) : SanyoResult := ({ data with state := .inactive }, .error .EINVAL)

/-- `STATE_BIT_SPACE`. -/
def sanyoBitSpace (data : SanyoDec) (ev : IrRawEvent) : SanyoResult :=
  if ev.pulse then sanyoOut data
  else if data.count = 0 ∧ geqMargin ev.duration SANYO_REPEAT_SPACE (SANYO_UNIT / 2) then
    ({ data with state := .inactive }, .ok [.again])
  else
    let bits := (data.bits <<< 1) % 2 ^ 64
    let state : SanyoState := if data.count + 1 = SANYO_NBITS then .trailerPulse else .bitPulse
    if eqMargin ev.duration SANYO_BIT_1_SPACE (SANYO_UNIT / 2) then
      (⟨state, data.count + 1, bits ||| 1⟩, .ok [])
    else if ¬ eqMargin ev.duration SANYO_BIT_0_SPACE (SANYO_UNIT / 2) then sanyoOut { data with bits }
    else (⟨state, data.count + 1, bits⟩, .ok [])

/-- The address of a register. -/
def sanyoAddress (bits : ℕ) : ℕ := bitrev16 ((bits >>> 29) &&& 0x1fff) >>> 3

/-- The command of a register. -/
def sanyoCommand (bits : ℕ) : ℕ := bitrev8 ((bits >>> 8) &&& 0xff)

/-- The complement of the command in a register. -/
def sanyoNotCommand (bits : ℕ) : ℕ := bitrev8 ((bits >>> 0) &&& 0xff)

/-- `STATE_TRAILER_SPACE`. -/
def sanyoTrailerSpace (data : SanyoDec) (ev : IrRawEvent) : SanyoResult :=
  if ev.pulse then sanyoOut data
  else if ¬ geqMargin ev.duration SANYO_TRAILER_SPACE (SANYO_UNIT / 2) then sanyoOut data
  else if sanyoCommand data.bits ^^^ sanyoNotCommand data.bits ≠ 0xff then
    ({ data with state := .inactive }, .ok [])
  else
    ({ data with state := .inactive },
      .ok [.keydown ⟨.sanyo, sanyoAddress data.bits <<< 8 ||| sanyoCommand data.bits, 0⟩])

/-- The `switch` over the state. -/
def sanyoSwitch (data : SanyoDec) (ev : IrRawEvent) : SanyoResult :=
  match data.state with
  | .inactive =>
    if ev.pulse = false then sanyoOut data
    else if eqMargin ev.duration SANYO_HEADER_PULSE (SANYO_UNIT / 2) then
      ({ data with count := 0, state := .headerSpace }, .ok [])
    else sanyoOut data
  | .headerSpace =>
    if ev.pulse then sanyoOut data
    else if eqMargin ev.duration SANYO_HEADER_SPACE (SANYO_UNIT / 2) then
      ({ data with state := .bitPulse }, .ok [])
    else sanyoOut data
  | .bitPulse =>
    if ev.pulse = false then sanyoOut data
    else if ¬ eqMargin ev.duration SANYO_BIT_PULSE (SANYO_UNIT / 2) then sanyoOut data
    else ({ data with state := .bitSpace }, .ok [])
  | .bitSpace => sanyoBitSpace data ev
  | .trailerPulse =>
    if ev.pulse = false then sanyoOut data
    else if ¬ eqMargin ev.duration SANYO_TRAILER_PULSE (SANYO_UNIT / 2) then sanyoOut data
    else ({ data with state := .trailerSpace }, .ok [])
  | .trailerSpace => sanyoTrailerSpace data ev

/-- `ir_sanyo_decode`. -/
def irSanyoDecode (data : SanyoDec) (ev : IrRawEvent) : SanyoResult :=
  if isTimingEvent ev = false then
    (if ev.reset then { data with state := .inactive } else data, .ok [])
  else sanyoSwitch data ev

/-! ## The encoder -/

/-- `ir_sanyo_timings`. -/
def irSanyoTimings : TimingsPd where
  headerPulse := SANYO_HEADER_PULSE
  headerSpace := SANYO_HEADER_SPACE
  bitPulse := SANYO_BIT_PULSE
  bitSpace := fun b => if b then SANYO_BIT_1_SPACE else SANYO_BIT_0_SPACE
  trailerPulse := SANYO_TRAILER_PULSE
  trailerSpace := SANYO_TRAILER_SPACE
  msbFirst := true

/-- The word that is sent. -/
def sanyoRaw (scancode : ℕ) : ℕ :=
  (bitrev16 (scancode >>> 8) &&& 0xfff8) <<< (8 + 8 + 13 - 3) |||
    (bitrev16 ((scancode ^^^ 0xffffffff) >>> 8) &&& 0xfff8) <<< (8 + 8 + 0 - 3) |||
    (bitrev8 scancode &&& 0xff) <<< 8 |||
    bitrev8 (scancode ^^^ 0xffffffff) &&& 0xff

/-- `ir_sanyo_encode`. -/
def irSanyoEncode (scancode max : ℕ) : Encoding :=
  encodeWith (irRawGenPd irSanyoTimings SANYO_NBITS (sanyoRaw scancode)) max

/-! ## Taking a frame -/

/-- The decoder behind `m` bits of a frame. -/
def sanyoOpened (m v : ℕ) : SanyoDec := ⟨if m = SANYO_NBITS then .trailerPulse else .bitPulse, m, v⟩

/-- How the decoder takes the bits of a frame. -/
theorem sanyoReceiver : BitReceiver irSanyoDecode
    (fun b => pulseSpace irSanyoTimings.bitPulse (irSanyoTimings.bitSpace b)) 64 SANYO_NBITS sanyoOpened := by
  refine ⟨fun m v b hm => ?_⟩
  have hstate : sanyoOpened m v = ⟨.bitPulse, m, v⟩ := by
    unfold sanyoOpened
    rw [if_neg hm.ne]
  have hpulse : irSanyoDecode ⟨.bitPulse, m, v⟩ (initIrRawEventDuration true SANYO_BIT_PULSE) =
      (⟨.bitSpace, m, v⟩, .ok []) := rfl
  have hspace : irSanyoDecode ⟨.bitSpace, m, v⟩
      (initIrRawEventDuration false (irSanyoTimings.bitSpace b)) =
      (sanyoOpened (m + 1) (shiftIn 64 v b), .ok []) := by
    have hrepeat : ¬ (m = 0 ∧ geqMargin (irSanyoTimings.bitSpace b) SANYO_REPEAT_SPACE (SANYO_UNIT / 2)) := by
      rintro ⟨-, h⟩
      revert h
      cases b <;> decide
    refine (if_neg hrepeat).trans ?_
    cases b with
    | true => rfl
    | false =>
      unfold shiftIn
      rw [Bool.toNat_false, Nat.or_zero]
      rfl
  rw [hstate]
  exact (takes_single hpulse).append (takes_single hspace)

/-- A frame with a command and its complement is reported once, and what follows it is not part of one. -/
theorem sanyoFrame_taken {raw : ℕ} {data : SanyoDec} (hdata : data.state = .inactive)
    (hcheck : sanyoCommand (shiftAll 64 data.bits (msbBits raw SANYO_NBITS)) ^^^
      sanyoNotCommand (shiftAll 64 data.bits (msbBits raw SANYO_NBITS)) = 0xff) (gap : ℕ) :
    ∃ data', Takes irSanyoDecode data
      (pdFrame irSanyoTimings SANYO_NBITS raw ++ [initIrRawEventDuration false gap]) data'
      [.keydown ⟨.sanyo, sanyoAddress (shiftAll 64 data.bits (msbBits raw SANYO_NBITS)) <<< 8 |||
        sanyoCommand (shiftAll 64 data.bits (msbBits raw SANYO_NBITS)), 0⟩] := by
  obtain ⟨_, count, bits⟩ := data
  obtain rfl : _ = SanyoState.inactive := hdata
  have hheader : Takes irSanyoDecode ⟨.inactive, count, bits⟩
      (pulseSpace SANYO_HEADER_PULSE SANYO_HEADER_SPACE) (sanyoOpened 0 bits) [] := rfl
  have htrailer : ∀ v, Takes irSanyoDecode (sanyoOpened SANYO_NBITS v)
      (pulseSpace SANYO_TRAILER_PULSE SANYO_TRAILER_SPACE) ⟨.inactive, SANYO_NBITS, v⟩
      (if sanyoCommand v ^^^ sanyoNotCommand v ≠ 0xff then []
        else [.keydown ⟨.sanyo, sanyoAddress v <<< 8 ||| sanyoCommand v, 0⟩]) := fun v => by
    have hpulse : irSanyoDecode (sanyoOpened SANYO_NBITS v)
        (initIrRawEventDuration true SANYO_TRAILER_PULSE) = (⟨.trailerSpace, SANYO_NBITS, v⟩, .ok []) := rfl
    refine Takes.cons hpulse (takes_single ?_)
    change (if sanyoCommand v ^^^ sanyoNotCommand v ≠ 0xff then _ else _) = _
    split_ifs <;> rfl
  have hgap : ∀ v, irSanyoDecode ⟨.inactive, SANYO_NBITS, v⟩ (initIrRawEventDuration false gap) =
      (⟨.inactive, SANYO_NBITS, v⟩, .error .EINVAL) := fun v => rfl
  have hframe := (sanyoReceiver.pdFrame hheader htrailer raw).append (takes_error (hgap _))
  rw [show bitOrder irSanyoTimings.msbFirst raw SANYO_NBITS = msbBits raw SANYO_NBITS from rfl,
    if_neg (not_not.2 hcheck), List.append_nil] at hframe
  exact ⟨_, hframe⟩

/-! ## The round trip -/

/-- The word that is sent, as a sum of its fields. -/
theorem sanyoRaw_eq {scancode : ℕ} (hlt : scancode < 2 ^ 21) :
    ∃ notAddress < 2 ^ 13, sanyoRaw scancode = bitrev 13 (scancode / 2 ^ 8) * 2 ^ 29 +
      (notAddress * 2 ^ 16 + (bitrev 8 scancode * 2 ^ 8 + bitrev 8 (scancode ^^^ 0xffffffff))) := by
  have hfield : ∀ x : ℕ, x &&& 0xfff8 = (x / 2 ^ 3 % 2 ^ 13) <<< 3 :=
    land_eq_shiftLeft (by decide)
  have hbyte : ∀ x : ℕ, bitrev8 x &&& 0xff = bitrev 8 x := fun x => by
    rw [land_byte]
    exact Nat.mod_eq_of_lt (bitrev_lt 8 x)
  have haddress : bitrev16 (scancode >>> 8) / 2 ^ 3 % 2 ^ 13 = bitrev 13 (scancode / 2 ^ 8) := by
    have hlt' : scancode / 2 ^ 8 < 2 ^ 13 := by omega
    rw [Nat.shiftRight_eq_div_pow, ← Nat.shiftRight_eq_div_pow _ 3]
    unfold bitrev16
    rw [bitrev_of_lt 3 hlt', Nat.shiftLeft_shiftRight]
    exact Nat.mod_eq_of_lt (bitrev_lt 13 _)
  refine ⟨bitrev16 ((scancode ^^^ 0xffffffff) >>> 8) / 2 ^ 3 % 2 ^ 13, Nat.mod_lt _ (by decide), ?_⟩
  have hcommand := bitrev_lt 8 scancode
  have hnotCommand := bitrev_lt 8 (scancode ^^^ 0xffffffff)
  have hnotAddress : bitrev16 ((scancode ^^^ 0xffffffff) >>> 8) / 2 ^ 3 % 2 ^ 13 < 2 ^ 13 :=
    Nat.mod_lt _ (by decide)
  unfold sanyoRaw
  rw [hfield, hfield, hbyte, hbyte, haddress, ← Nat.shiftLeft_add, ← Nat.shiftLeft_add, Nat.lor_assoc,
    Nat.lor_assoc]
  generalize bitrev 13 (scancode / 2 ^ 8) = a at *
  generalize bitrev16 ((scancode ^^^ 0xffffffff) >>> 8) / 2 ^ 3 % 2 ^ 13 = b at *
  generalize bitrev 8 scancode = c at *
  generalize bitrev 8 (scancode ^^^ 0xffffffff) = d at *
  rw [shiftLeft_lor hnotCommand]
  have hinner : c * 2 ^ 8 + d < 2 ^ 16 := mul_add_lt_two_pow hcommand hnotCommand
  rw [shiftLeft_lor (s := 3 + (8 + 8 + 0 - 3)) hinner]
  exact shiftLeft_lor (mul_add_lt_two_pow hnotAddress hinner) a

/-- **The decoder finds the address and the command**, and the command and its complement agree. -/
theorem sanyoFields_raw {scancode : ℕ} (hbits : InScancodeBits .sanyo scancode) (v : ℕ) :
    sanyoAddress (shiftAll 64 v (msbBits (sanyoRaw scancode) SANYO_NBITS)) = scancode / 2 ^ 8 ∧
      sanyoCommand (shiftAll 64 v (msbBits (sanyoRaw scancode) SANYO_NBITS)) = scancode % 2 ^ 8 ∧
      sanyoNotCommand (shiftAll 64 v (msbBits (sanyoRaw scancode) SANYO_NBITS)) =
        (scancode % 2 ^ 8) ^^^ 0xff := by
  have hmod : scancode % 2 ^ 21 = scancode := (Nat.and_two_pow_sub_one_eq_mod scancode 21).symm.trans hbits
  have hlt : scancode < 2 ^ 21 := by omega
  obtain ⟨notAddress, hnotAddress, hraw⟩ := sanyoRaw_eq hlt
  have haddress := bitrev_lt 13 (scancode / 2 ^ 8)
  have hcommand := bitrev_lt 8 scancode
  have hnotCommand := bitrev_lt 8 (scancode ^^^ 0xffffffff)
  have hfield : ∀ {s k : ℕ}, s + k ≤ SANYO_NBITS →
      (shiftAll 64 v (msbBits (sanyoRaw scancode) SANYO_NBITS) >>> s) % 2 ^ k =
        sanyoRaw scancode / 2 ^ s % 2 ^ k := fun {s k} hs => by
    rw [shiftAll_msb_field v _ hs (by decide), Nat.shiftRight_eq_div_pow]
  refine ⟨?_, ?_, ?_⟩
  · unfold sanyoAddress bitrev16
    rw [Nat.and_two_pow_sub_one_eq_mod _ 13, hfield (by decide), hraw,
      bitrev_of_lt 3 (Nat.mod_lt _ (by decide)), Nat.shiftLeft_shiftRight]
    have hsame : (bitrev 13 (scancode / 2 ^ 8) * 2 ^ 29 + (notAddress * 2 ^ 16 + (bitrev 8 scancode * 2 ^ 8 +
        bitrev 8 (scancode ^^^ 0xffffffff)))) / 2 ^ 29 % 2 ^ 13 = bitrev 13 (scancode / 2 ^ 8) := by omega
    rw [hsame, bitrev_bitrev]
    omega
  · unfold sanyoCommand bitrev8
    rw [land_byte, hfield (by decide), hraw]
    have hsame : (bitrev 13 (scancode / 2 ^ 8) * 2 ^ 29 + (notAddress * 2 ^ 16 + (bitrev 8 scancode * 2 ^ 8 +
        bitrev 8 (scancode ^^^ 0xffffffff)))) / 2 ^ 8 % 2 ^ 8 = bitrev 8 scancode := by omega
    rw [hsame, bitrev_bitrev]
  · unfold sanyoNotCommand bitrev8
    rw [land_byte, hfield (by decide), hraw]
    have hsame : (bitrev 13 (scancode / 2 ^ 8) * 2 ^ 29 + (notAddress * 2 ^ 16 + (bitrev 8 scancode * 2 ^ 8 +
        bitrev 8 (scancode ^^^ 0xffffffff)))) / 2 ^ 0 % 2 ^ 8 = bitrev 8 (scancode ^^^ 0xffffffff) := by omega
    rw [hsame, bitrev_bitrev]
    exact Nat.xor_mod_two_pow

/-- **SANYO**: what is encoded is decoded. -/
theorem irSanyo_roundTrips {scancode : ℕ} (hbits : InScancodeBits .sanyo scancode) :
    RoundTrips irSanyoDecode (fun data => data.state = .inactive) (irSanyoEncode scancode) .sanyo scancode := by
  refine roundTrips_of_emits (emits_pdFrame _ _ _) fun data hdata gap => ?_
  obtain ⟨haddress, hcommand, hnotCommand⟩ := sanyoFields_raw hbits data.bits
  have hcheck : (scancode % 2 ^ 8) ^^^ ((scancode % 2 ^ 8) ^^^ 0xff) = 0xff := by
    rw [← Nat.xor_assoc, Nat.xor_self, Nat.zero_xor]
  obtain ⟨data', hframe⟩ := sanyoFrame_taken hdata (by rw [hcommand, hnotCommand, hcheck]) gap
  have hscancode : (scancode / 2 ^ 8) <<< 8 ||| scancode % 2 ^ 8 = scancode := by
    rw [shiftLeft_lor (Nat.mod_lt _ (by decide))]
    omega
  rw [haddress, hcommand, hscancode] at hframe
  exact ⟨data', 0, hframe⟩

end Rc
end TbsMedia
