import TbsMedia.Lib.BitFields
import TbsMedia.Rc.BitReceiver

/-!
# Sony

A frame has a header and 12, 15 or 20 bits in pulse length code, with the lowest bit first.  The bits are
seven of the function and the device behind it, and in the longest variant a subdevice.

* `irSonyDecode`, `irSonyEncode`: the two halves of `ir-sony-decoder.c`.
* `irSony_roundTrips`: what is encoded is decoded.
-/

namespace TbsMedia
namespace Rc

open Lib

def SONY_UNIT : ℕ := 600000
def SONY_HEADER_PULSE : ℕ := 4 * SONY_UNIT
def SONY_HEADER_SPACE : ℕ := 1 * SONY_UNIT
def SONY_BIT_0_PULSE : ℕ := 1 * SONY_UNIT
def SONY_BIT_1_PULSE : ℕ := 2 * SONY_UNIT
def SONY_BIT_SPACE : ℕ := 1 * SONY_UNIT
def SONY_TRAILER_SPACE : ℕ := 10 * SONY_UNIT

/-! ## The decoder -/

/-- `enum sony_state`. -/
inductive SonyState where
  | inactive | headerSpace | bitPulse | bitSpace | finished
  deriving DecidableEq, Repr

/-- `struct sony_dec`. -/
structure SonyDec where
  state : SonyState
  bits : ℕ
  count : ℕ
  deriving DecidableEq, Repr

/-- What the decoder does with an event. -/
abbrev SonyResult := SonyDec × Except Errno (List Report)

/-- The label `out`. -/
def sonyOut (data : SonyDec) : SonyResult := ({ data with state := .inactive }, .error .EINVAL)

/-- Device, subdevice and function in a register of 12, 15 or 20 bits, and the variant. -/
def sonyFields (bits count : ℕ) : Option (RcProto × ℕ × ℕ × ℕ) :=
  match count with
  | 12 => some (.sony12, bitrev8 ((bits <<< 3) &&& 0xF8), 0, bitrev8 ((bits >>> 4) &&& 0xFE))
  | 15 => some (.sony15, bitrev8 ((bits >>> 0) &&& 0xFF), 0, bitrev8 ((bits >>> 7) &&& 0xFE))
  | 20 => some (.sony20, bitrev8 ((bits >>> 5) &&& 0xF8), bitrev8 ((bits >>> 0) &&& 0xFF),
      bitrev8 ((bits >>> 12) &&& 0xFE))
  | _ => none

/-- `STATE_FINISHED`. -/
def sonyFinished (enabled : RcProto → Bool) (data : SonyDec) (ev : IrRawEvent) : SonyResult :=
  if ev.pulse then sonyOut data
  else if ¬ geqMargin ev.duration SONY_TRAILER_SPACE (SONY_UNIT / 2) then sonyOut data
  else
    match sonyFields data.bits data.count with
    | some (protocol, device, subdevice, function) =>
      ({ data with state := .inactive },
        .ok (if enabled protocol then
          [.keydown ⟨protocol, device <<< 16 ||| subdevice <<< 8 ||| function, 0⟩] else []))
    | none => sonyOut data

/-- `STATE_BIT_SPACE`. -/
def sonyBitSpace (enabled : RcProto → Bool) (data : SonyDec) (ev : IrRawEvent) : SonyResult :=
  if ev.pulse then sonyOut data
  else if ¬ geqMargin ev.duration SONY_BIT_SPACE (SONY_UNIT / 2) then sonyOut data
  else
    let ev := decreaseDuration ev SONY_BIT_SPACE
    if ¬ geqMargin ev.duration SONY_UNIT (SONY_UNIT / 2) then ({ data with state := .bitPulse }, .ok [])
    else sonyFinished enabled { data with state := .finished } ev

/-- `STATE_BIT_PULSE`. -/
def sonyBitPulse (data : SonyDec) (ev : IrRawEvent) : SonyResult :=
  if ev.pulse = false then sonyOut data
  else
    let bits := (data.bits <<< 1) % 2 ^ 32
    if eqMargin ev.duration SONY_BIT_1_PULSE (SONY_UNIT / 2) then
      (⟨.bitSpace, bits ||| 1, data.count + 1⟩, .ok [])
    else if ¬ eqMargin ev.duration SONY_BIT_0_PULSE (SONY_UNIT / 2) then sonyOut { data with bits }
    else (⟨.bitSpace, bits, data.count + 1⟩, .ok [])

/-- The `switch` over the state. -/
def sonySwitch (enabled : RcProto → Bool) (data : SonyDec) (ev : IrRawEvent) : SonyResult :=
  match data.state with
  | .inactive =>
    if ev.pulse = false then sonyOut data
    else if ¬ eqMargin ev.duration SONY_HEADER_PULSE (SONY_UNIT / 2) then sonyOut data
    else ({ data with count := 0, state := .headerSpace }, .ok [])
  | .headerSpace =>
    if ev.pulse then sonyOut data
    else if ¬ eqMargin ev.duration SONY_HEADER_SPACE (SONY_UNIT / 2) then sonyOut data
    else ({ data with state := .bitPulse }, .ok [])
  | .bitPulse => sonyBitPulse data ev
  | .bitSpace => sonyBitSpace enabled data ev
  | .finished => sonyFinished enabled data ev

/-- `ir_sony_decode`. -/
def irSonyDecode (enabled : RcProto → Bool) (data : SonyDec) (ev : IrRawEvent) : SonyResult :=
  if isTimingEvent ev = false then
    (if ev.reset then { data with state := .inactive } else data, .ok [])
  else if ¬ geqMargin ev.duration SONY_UNIT (SONY_UNIT / 2) then sonyOut data
  else sonySwitch enabled data ev

/-! ## The encoder -/

/-- `ir_sony_timings`. -/
def irSonyTimings : TimingsPl where
  headerPulse := SONY_HEADER_PULSE
  bitSpace := SONY_BIT_SPACE
  bitPulse := fun b => if b then SONY_BIT_1_PULSE else SONY_BIT_0_PULSE
  trailerSpace := SONY_TRAILER_SPACE + SONY_BIT_SPACE
  msbFirst := false

/-- The bits of a frame and their number. -/
def sonyRaw (protocol : RcProto) (scancode : ℕ) : ℕ × ℕ :=
  match protocol with
  | .sony12 => ((scancode &&& 0x7f) ||| ((scancode &&& 0x1f0000) >>> 9), 12)
  | .sony15 => ((scancode &&& 0x7f) ||| ((scancode &&& 0xff0000) >>> 9), 15)
  | _ => ((scancode &&& 0x7f) ||| ((scancode &&& 0x1f0000) >>> 9) ||| ((scancode &&& 0xff00) <<< 4), 20)

/-- `ir_sony_encode`. -/
def irSonyEncode (protocol : RcProto) (scancode max : ℕ) : Encoding :=
  encodeWith (irRawGenPl irSonyTimings (sonyRaw protocol scancode).2 (sonyRaw protocol scancode).1) max

/-! ## Taking a frame -/

variable {enabled : RcProto → Bool}

/-- The decoder behind `m` bits of a frame. -/
def sonyOpened (m v : ℕ) : SonyDec := ⟨if m = 0 then .headerSpace else .bitSpace, v, m⟩

/-- How the decoder takes the bits of a frame. -/
theorem sonyReceiver (n : ℕ) : BitReceiver (irSonyDecode enabled)
    (fun b => [initIrRawEventDuration false irSonyTimings.bitSpace,
      initIrRawEventDuration true (irSonyTimings.bitPulse b)]) 32 n sonyOpened := by
  refine ⟨fun m v b _ => ?_⟩
  have hspace : irSonyDecode enabled (sonyOpened m v) (initIrRawEventDuration false SONY_BIT_SPACE) =
      (⟨.bitPulse, v, m⟩, .ok []) := by
    unfold sonyOpened
    split_ifs <;> rfl
  have hpulse : irSonyDecode enabled ⟨.bitPulse, v, m⟩
      (initIrRawEventDuration true (irSonyTimings.bitPulse b)) =
      (sonyOpened (m + 1) (shiftIn 32 v b), .ok []) := by
    cases b with
    | true => rfl
    | false =>
      unfold shiftIn
      rw [Bool.toNat_false, Nat.or_zero]
      rfl
  exact (takes_single hspace).append (takes_single hpulse)

/-- A frame is reported once, and what follows it is not part of one. -/
theorem sonyFrame_taken {n raw device subdevice function : ℕ} {protocol : RcProto} (hn : n ≠ 0)
    (henabled : enabled protocol = true) {data : SonyDec} (hdata : data.state = .inactive)
    (hfields : sonyFields (shiftAll 32 data.bits (lsbBits raw n)) n =
      some (protocol, device, subdevice, function)) (gap : ℕ) :
    Takes (irSonyDecode enabled) data (plFrame irSonyTimings n raw ++ [initIrRawEventDuration false gap])
      ⟨.inactive, shiftAll 32 data.bits (lsbBits raw n), n⟩
      [.keydown ⟨protocol, device <<< 16 ||| subdevice <<< 8 ||| function, 0⟩] := by
  obtain ⟨_, bits, count⟩ := data
  obtain rfl : _ = SonyState.inactive := hdata
  dsimp only at hfields ⊢
  have hheader : irSonyDecode enabled ⟨.inactive, bits, count⟩
      (initIrRawEventDuration true SONY_HEADER_PULSE) = (sonyOpened 0 bits, .ok []) := rfl
  have hbits := (@sonyReceiver enabled n).bits (lsbBits raw n) (m := 0)
    (by rw [length_lsbBits]; omega) bits
  rw [length_lsbBits, Nat.zero_add] at hbits
  generalize shiftAll 32 bits (lsbBits raw n) = v at *
  have htrailer : irSonyDecode enabled (sonyOpened n v)
      (initIrRawEventDuration false (SONY_TRAILER_SPACE + SONY_BIT_SPACE)) = (⟨.inactive, v, n⟩,
        .ok [.keydown ⟨protocol, device <<< 16 ||| subdevice <<< 8 ||| function, 0⟩]) := by
    unfold sonyOpened
    rw [if_neg hn]
    change (match sonyFields v n with
      | some (protocol, device, subdevice, function) => _
      | none => _) = _
    rw [hfields]
    dsimp only
    rw [if_pos henabled]
  have hgap : irSonyDecode enabled ⟨.inactive, v, n⟩ (initIrRawEventDuration false gap) =
      (⟨.inactive, v, n⟩, .error .EINVAL) := by
    unfold irSonyDecode
    rw [if_neg (isTimingEvent_init false gap)]
    split_ifs <;> rfl
  exact (Takes.cons hheader (hbits.append (takes_single htrailer))).append (takes_error hgap)

/-! ## The variants -/

/-- The variants of Sony. -/
def SonyProtocol (protocol : RcProto) : Prop := protocol = .sony12 ∨ protocol = .sony15 ∨ protocol = .sony20

/-- A field of seven bits above an empty one. -/
theorem bitrev8_land_fe (x : ℕ) : bitrev8 (x &&& 0xFE) = bitrev 7 ((x >>> 1) % 2 ^ 7) := by
  rw [land_eq_shiftLeft (by decide : 0xFE = (2 ^ 7 - 1) <<< 1), Nat.shiftRight_eq_div_pow]
  exact bitrev_shiftLeft 7 1 _

/-- A field of five bits above three empty ones. -/
theorem bitrev8_land_f8 (x : ℕ) : bitrev8 (x &&& 0xF8) = bitrev 5 ((x >>> 3) % 2 ^ 5) := by
  rw [land_eq_shiftLeft (by decide : 0xF8 = (2 ^ 5 - 1) <<< 3), Nat.shiftRight_eq_div_pow]
  exact bitrev_shiftLeft 5 3 _

theorem bitrev8_land_ff (x : ℕ) : bitrev8 (x &&& 0xFF) = bitrev 8 (x % 2 ^ 8) := by
  rw [land_byte]
  rfl

/-- **The fields of a frame** are those of the word that has been sent. -/
theorem sonyFields_lsb (v raw : ℕ) :
    sonyFields (shiftAll 32 v (lsbBits raw 12)) 12 =
        some (.sony12, raw / 2 ^ 7 % 2 ^ 5, 0, raw % 2 ^ 7) ∧
      sonyFields (shiftAll 32 v (lsbBits raw 15)) 15 =
        some (.sony15, raw / 2 ^ 7 % 2 ^ 8, 0, raw % 2 ^ 7) ∧
      sonyFields (shiftAll 32 v (lsbBits raw 20)) 20 =
        some (.sony20, raw / 2 ^ 7 % 2 ^ 5, raw / 2 ^ 12 % 2 ^ 8, raw % 2 ^ 7) := by
  have hfield : ∀ {n s k j : ℕ}, n ≤ 32 → s + k + j = n →
      bitrev k ((shiftAll 32 v (lsbBits raw n) >>> s) % 2 ^ k) = raw / 2 ^ j % 2 ^ k :=
    fun {n s k j} hn hsum => by
      rw [bitrev_shiftAll_lsb v raw (by omega) hn, Nat.shiftRight_eq_div_pow,
        show n - (s + k) = j by omega]
  have hlow : ∀ {n s k : ℕ}, n ≤ 32 → s + k = n →
      bitrev k ((shiftAll 32 v (lsbBits raw n) >>> s) % 2 ^ k) = raw % 2 ^ k := fun {n s k} hn hsum => by
    rw [hfield (j := 0) hn (by omega), pow_zero, Nat.div_one]
  have hshift : ∀ x : ℕ, (x <<< 3) >>> 3 = x >>> 0 := fun x => Nat.shiftLeft_shiftRight x 3
  refine ⟨?_, ?_, ?_⟩
  · change some (RcProto.sony12, bitrev8 (_ &&& 0xF8), 0, bitrev8 (_ &&& 0xFE)) = _
    rw [bitrev8_land_f8, bitrev8_land_fe, hshift, ← Nat.shiftRight_add,
      hfield (s := 0) (k := 5) (j := 7) (by decide) rfl, hlow (s := 4 + 1) (by decide) rfl]
  · change some (RcProto.sony15, bitrev8 (_ &&& 0xFF), 0, bitrev8 (_ &&& 0xFE)) = _
    rw [bitrev8_land_ff, bitrev8_land_fe, ← Nat.shiftRight_add,
      hfield (s := 0) (k := 8) (j := 7) (by decide) rfl, hlow (s := 7 + 1) (by decide) rfl]
  · change some (RcProto.sony20, bitrev8 (_ &&& 0xF8), bitrev8 (_ &&& 0xFF), bitrev8 (_ &&& 0xFE)) = _
    rw [bitrev8_land_f8, bitrev8_land_ff, bitrev8_land_fe, ← Nat.shiftRight_add, ← Nat.shiftRight_add,
      hfield (s := 5 + 3) (k := 5) (j := 7) (by decide) rfl,
      hfield (s := 0) (k := 8) (j := 12) (by decide) rfl, hlow (s := 12 + 1) (by decide) rfl]

/-- The word that is sent, as a sum of its fields. -/
theorem sonyRaw_eq (scancode : ℕ) :
    (sonyRaw .sony12 scancode).1 = scancode / 2 ^ 16 % 2 ^ 5 * 2 ^ 7 + scancode % 2 ^ 7 ∧
      (sonyRaw .sony15 scancode).1 = scancode / 2 ^ 16 % 2 ^ 8 * 2 ^ 7 + scancode % 2 ^ 7 ∧
      (sonyRaw .sony20 scancode).1 = scancode / 2 ^ 8 % 2 ^ 8 * 2 ^ 12 +
        (scancode / 2 ^ 16 % 2 ^ 5 * 2 ^ 7 + scancode % 2 ^ 7) := by
  have hdevice : ∀ {mask k : ℕ}, mask = (2 ^ k - 1) <<< 16 →
      (scancode &&& mask) >>> 9 = (scancode / 2 ^ 16 % 2 ^ k) <<< 7 := fun {mask k} hmask => by
    rw [land_eq_shiftLeft hmask, show 16 = 7 + 9 from rfl, Nat.shiftLeft_add, Nat.shiftLeft_shiftRight]
  have hfunction : scancode &&& 0x7f = scancode % 2 ^ 7 := Nat.and_two_pow_sub_one_eq_mod scancode 7
  have hsub : (scancode &&& 0xff00) <<< 4 = (scancode / 2 ^ 8 % 2 ^ 8) <<< 12 := by
    rw [land_eq_shiftLeft (by decide : 0xff00 = (2 ^ 8 - 1) <<< 8), ← Nat.shiftLeft_add]
  have hlt : scancode % 2 ^ 7 < 2 ^ 7 := Nat.mod_lt _ (by decide)
  unfold sonyRaw
  dsimp only
  rw [hfunction, hsub, hdevice (k := 5) (by decide), hdevice (k := 8) (by decide), Nat.lor_comm,
    shiftLeft_lor hlt, Nat.lor_comm (scancode % 2 ^ 7), shiftLeft_lor hlt,
    Nat.lor_comm (scancode / 2 ^ 16 % 2 ^ 5 * 2 ^ 7 + scancode % 2 ^ 7), shiftLeft_lor (by omega)]
  exact ⟨rfl, rfl, rfl⟩

/-- **The decoder finds the scancode** that the encoder has cut into fields. -/
theorem sonyFields_raw {protocol : RcProto} (hprotocol : SonyProtocol protocol) {scancode : ℕ}
    (hbits : InScancodeBits protocol scancode) (v : ℕ) : ∃ device subdevice function,
      sonyFields (shiftAll 32 v (lsbBits (sonyRaw protocol scancode).1 (sonyRaw protocol scancode).2))
        (sonyRaw protocol scancode).2 = some (protocol, device, subdevice, function) ∧
      device <<< 16 ||| subdevice <<< 8 ||| function = scancode := by
  obtain ⟨h12, h15, h20⟩ := sonyFields_lsb v (sonyRaw protocol scancode).1
  obtain ⟨hraw12, hraw15, hraw20⟩ := sonyRaw_eq scancode
  have hsum : ∀ {a b c : ℕ}, b < 2 ^ 8 → c < 2 ^ 8 →
      a <<< 16 ||| b <<< 8 ||| c = a * 2 ^ 16 + (b * 2 ^ 8 + c) := fun {a b c} hb hc => by
    rw [Nat.lor_assoc, shiftLeft_lor hc, shiftLeft_lor (by omega)]
  have hfunction : scancode &&& 0x7f = scancode % 2 ^ 7 := Nat.and_two_pow_sub_one_eq_mod scancode 7
  have hfields : ∀ (k : ℕ) {mask : ℕ}, mask = (2 ^ k - 1) <<< 16 ||| 0x7f →
      scancode &&& mask = scancode / 2 ^ 16 % 2 ^ k * 2 ^ 16 + scancode % 2 ^ 7 := fun k {mask} hmask => by
    rw [hmask, Nat.and_or_distrib_left, land_eq_shiftLeft rfl, hfunction, shiftLeft_lor (by omega)]
  rcases hprotocol with rfl | rfl | rfl
  · refine ⟨_, _, _, h12, ?_⟩
    rw [hsum (by decide) (by omega), hraw12]
    have hscancode := hbits.symm.trans (show scancode &&& 0x1f007f = _ from hfields 5 (by decide))
    omega
  · refine ⟨_, _, _, h15, ?_⟩
    rw [hsum (by decide) (by omega), hraw15]
    have hscancode := hbits.symm.trans (show scancode &&& 0xff007f = _ from hfields 8 (by decide))
    omega
  · refine ⟨_, _, _, h20, ?_⟩
    rw [hsum (by omega) (by omega), hraw20]
    have hscancode : scancode &&& 0x1fff7f = scancode / 2 ^ 16 % 2 ^ 5 * 2 ^ 16 +
        (scancode / 2 ^ 8 % 2 ^ 8 * 2 ^ 8 + scancode % 2 ^ 7) := by
      rw [show (0x1fff7f : ℕ) = 0x1f0000 ||| (0xff00 ||| 0x7f) by decide, Nat.and_or_distrib_left,
        Nat.and_or_distrib_left, land_eq_shiftLeft (by decide : 0x1f0000 = (2 ^ 5 - 1) <<< 16),
        land_eq_shiftLeft (by decide : 0xff00 = (2 ^ 8 - 1) <<< 8), hfunction, ← Nat.lor_assoc,
        hsum (Nat.mod_lt _ (by decide)) (by omega)]
    have heq : scancode = _ := hbits.symm.trans hscancode
    have hdevice : scancode / 2 ^ 16 % 2 ^ 5 < 2 ^ 5 := Nat.mod_lt _ (by decide)
    have hsubdevice : scancode / 2 ^ 8 % 2 ^ 8 < 2 ^ 8 := Nat.mod_lt _ (by decide)
    have hlow : scancode % 2 ^ 7 < 2 ^ 7 := Nat.mod_lt _ (by decide)
    generalize scancode / 2 ^ 16 % 2 ^ 5 = device at *
    generalize scancode / 2 ^ 8 % 2 ^ 8 = subdevice at *
    generalize scancode % 2 ^ 7 = function at *
    clear hsum hfields hbits h12 h15 h20 hraw12 hraw15 hraw20
    omega

/-- **Sony**: what is encoded is decoded, where the variant is enabled. -/
theorem irSony_roundTrips {protocol : RcProto} (hprotocol : SonyProtocol protocol)
    (henabled : enabled protocol = true) {scancode : ℕ} (hbits : InScancodeBits protocol scancode) :
    RoundTrips (irSonyDecode enabled) (fun data => data.state = .inactive) (irSonyEncode protocol scancode)
      protocol scancode := by
  refine roundTrips_of_emits (emits_plFrame _ _ _) fun data hdata gap => ?_
  obtain ⟨device, subdevice, function, hfields, hscancode⟩ := sonyFields_raw hprotocol hbits data.bits
  have hn : (sonyRaw protocol scancode).2 ≠ 0 := by
    rcases hprotocol with rfl | rfl | rfl <;> exact Nat.succ_ne_zero _
  have hframe := sonyFrame_taken hn henabled hdata hfields gap
  rw [hscancode] at hframe
  exact ⟨_, 0, hframe⟩

end Rc
end TbsMedia
