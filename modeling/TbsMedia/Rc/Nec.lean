import TbsMedia.Lib.BitFields
import TbsMedia.Rc.BitReceiver

/-!
# NEC

A frame has a header, 32 bits in pulse distance code with the lowest bit first, and a trailer.  The bits are
four bytes: address and command, each followed by its complement, which the longer variants give up.

* `irNecDecode`, `irNecEncode`: the two halves of `ir-nec-decoder.c`.
* `irNecBytesToScancode_necBytes`: the variant that the bytes of a valid scancode stand for.
* `irNecDecode_irNecEncode`: what is encoded is decoded.
-/

namespace TbsMedia
namespace Rc

open Lib

def NEC_NBITS : ℕ := 32
def NEC_UNIT : ℕ := 562500
def NEC_HEADER_PULSE : ℕ := 16 * NEC_UNIT
def NECX_HEADER_PULSE : ℕ := 8 * NEC_UNIT
def NEC_HEADER_SPACE : ℕ := 8 * NEC_UNIT
def NEC_REPEAT_SPACE : ℕ := 4 * NEC_UNIT
def NEC_BIT_PULSE : ℕ := 1 * NEC_UNIT
def NEC_BIT_0_SPACE : ℕ := 1 * NEC_UNIT
def NEC_BIT_1_SPACE : ℕ := 3 * NEC_UNIT
def NEC_TRAILER_PULSE : ℕ := 1 * NEC_UNIT
def NEC_TRAILER_SPACE : ℕ := 10 * NEC_UNIT
def NECX_REPEAT_BITS : ℕ := 1

/-! ## The decoder -/

/-- `enum nec_state`. -/
inductive NecState where
  | inactive | headerSpace | bitPulse | bitSpace | trailerPulse | trailerSpace
  deriving DecidableEq, Repr

/-- `struct nec_dec`. -/
structure NecDec where
  state : NecState
  count : ℕ
  bits : ℕ
  isNecX : Bool
  necxRepeat : Bool
  deriving DecidableEq, Repr

/-- What the decoder does with an event. -/
abbrev NecResult := NecDec × Except Errno (List Report)

/-- The end of the function, where no case has returned. -/
def necFailed (data : NecDec) : NecResult := ({ data with state := .inactive }, .error .EINVAL)

/-- `ir_nec_bytes_to_scancode`. -/
def irNecBytesToScancode (address notAddress command notCommand : ℕ) : RcProto × ℕ :=
  if command ^^^ notCommand ≠ 0xff then
    (.nec32, notAddress <<< 24 ||| address <<< 16 ||| notCommand <<< 8 ||| command)
  else if address ^^^ notAddress ≠ 0xff then (.necx, address <<< 16 ||| notAddress <<< 8 ||| command)
  else (.nec, address <<< 8 ||| command)

/-- `STATE_INACTIVE`. -/
def necInactive (data : NecDec) (ev : IrRawEvent) : NecResult :=
  if ev.pulse = false then necFailed data
  else if eqMargin ev.duration NEC_HEADER_PULSE (NEC_UNIT * 2) then
    ({ data with isNecX := false, necxRepeat := false, count := 0, state := .headerSpace }, .ok [])
  else if eqMargin ev.duration NECX_HEADER_PULSE (NEC_UNIT / 2) then
    ({ data with isNecX := true, count := 0, state := .headerSpace }, .ok [])
  else necFailed data

/-- `STATE_HEADER_SPACE`. -/
def necHeaderSpace (data : NecDec) (ev : IrRawEvent) : NecResult :=
  if ev.pulse then necFailed data
  else if eqMargin ev.duration NEC_HEADER_SPACE NEC_UNIT then ({ data with state := .bitPulse }, .ok [])
  else if eqMargin ev.duration NEC_REPEAT_SPACE (NEC_UNIT / 2) then
    ({ data with state := .trailerPulse }, .ok [])
  else necFailed data

/-- `STATE_BIT_PULSE`. -/
def necBitPulse (data : NecDec) (ev : IrRawEvent) : NecResult :=
  if ev.pulse = false then necFailed data
  else if ¬ eqMargin ev.duration NEC_BIT_PULSE (NEC_UNIT / 2) then necFailed data
  else ({ data with state := .bitSpace }, .ok [])

/-- `STATE_BIT_SPACE`, where the frame is no repetition. -/
def necBit (data : NecDec) (ev : IrRawEvent) : NecResult :=
  let data := { data with bits := (data.bits <<< 1) % 2 ^ 32 }
  let next := fun bits : ℕ =>
    (({ data with
      bits
      count := data.count + 1
      state := if data.count + 1 = NEC_NBITS then .trailerPulse else .bitPulse }, .ok []) : NecResult)
  if eqMargin ev.duration NEC_BIT_1_SPACE (NEC_UNIT / 2) then next (data.bits ||| 1)
  else if ¬ eqMargin ev.duration NEC_BIT_0_SPACE (NEC_UNIT / 2) then necFailed data
  else next data.bits

/-- `STATE_BIT_SPACE`. -/
def necBitSpace (data : NecDec) (ev : IrRawEvent) : NecResult :=
  if ev.pulse then necFailed data
  else if data.necxRepeat ∧ data.count = NECX_REPEAT_BITS ∧
      geqMargin ev.duration NEC_TRAILER_SPACE (NEC_UNIT / 2) then
    ({ data with state := .inactive }, .ok [.again])
  else necBit (if NECX_REPEAT_BITS < data.count then { data with necxRepeat := false } else data) ev

/-- `STATE_TRAILER_PULSE`. -/
def necTrailerPulse (data : NecDec) (ev : IrRawEvent) : NecResult :=
  if ev.pulse = false then necFailed data
  else if ¬ eqMargin ev.duration NEC_TRAILER_PULSE (NEC_UNIT / 2) then necFailed data
  else ({ data with state := .trailerSpace }, .ok [])

/-- `STATE_TRAILER_SPACE`. -/
def necTrailerSpace (data : NecDec) (ev : IrRawEvent) : NecResult :=
  if ev.pulse then necFailed data
  else if ¬ geqMargin ev.duration NEC_TRAILER_SPACE (NEC_UNIT / 2) then necFailed data
  else if data.count = NEC_NBITS then
    let address := bitrev8 ((data.bits >>> 24) &&& 0xff)
    let notAddress := bitrev8 ((data.bits >>> 16) &&& 0xff)
    let command := bitrev8 ((data.bits >>> 8) &&& 0xff)
    let notCommand := bitrev8 ((data.bits >>> 0) &&& 0xff)
    let (rcProto, scancode) := irNecBytesToScancode address notAddress command notCommand
    ({ data with necxRepeat := data.isNecX || data.necxRepeat, state := .inactive },
      .ok [.keydown ⟨rcProto, scancode, 0⟩])
  else ({ data with state := .inactive }, .ok [.again])

/-- `ir_nec_decode`. -/
def irNecDecode (data : NecDec) (ev : IrRawEvent) : NecResult :=
  if isTimingEvent ev = false then
    (if ev.reset then { data with state := .inactive } else data, .ok [])
  else
    match data.state with
    | .inactive => necInactive data ev
    | .headerSpace => necHeaderSpace data ev
    | .bitPulse => necBitPulse data ev
    | .bitSpace => necBitSpace data ev
    | .trailerPulse => necTrailerPulse data ev
    | .trailerSpace => necTrailerSpace data ev

/-! ## The encoder -/

/-- The four bytes of a scancode, as `ir_nec_scancode_to_raw` finds them: `addr`, `addr_inv`, `data` and
`data_inv`. -/
def necBytes (protocol : RcProto) (scancode : ℕ) : ℕ × ℕ × ℕ × ℕ :=
  let data := scancode &&& 0xff
  match protocol with
  | .nec32 => ((scancode >>> 16) &&& 0xff, (scancode >>> 24) &&& 0xff, data, (scancode >>> 8) &&& 0xff)
  | .necx => ((scancode >>> 16) &&& 0xff, (scancode >>> 8) &&& 0xff, data, data ^^^ 0xff)
  | _ => ((scancode >>> 8) &&& 0xff, ((scancode >>> 8) &&& 0xff) ^^^ 0xff, data, data ^^^ 0xff)

/-- `ir_nec_scancode_to_raw`. -/
def irNecScancodeToRaw (protocol : RcProto) (scancode : ℕ) : ℕ :=
  let (addr, addrInv, data, dataInv) := necBytes protocol scancode
  dataInv <<< 24 ||| data <<< 16 ||| addrInv <<< 8 ||| addr

/-- `ir_nec_timings`. -/
def irNecTimings : TimingsPd where
  headerPulse := NEC_HEADER_PULSE
  headerSpace := NEC_HEADER_SPACE
  bitPulse := NEC_BIT_PULSE
  bitSpace := fun b => if b then NEC_BIT_1_SPACE else NEC_BIT_0_SPACE
  trailerPulse := NEC_TRAILER_PULSE
  trailerSpace := NEC_TRAILER_SPACE
  msbFirst := false

/-- `ir_nec_encode`. -/
def irNecEncode (protocol : RcProto) (scancode max : ℕ) : Encoding :=
  encodeWith (irRawGenPd irNecTimings NEC_NBITS (irNecScancodeToRaw protocol scancode)) max

/-! ## Taking a frame -/

/-- The decoder behind `m` bits of a frame. -/
def necOpened (m v : ℕ) : NecDec := ⟨if m = NEC_NBITS then .trailerPulse else .bitPulse, m, v, false, false⟩

/-- How the decoder takes the bits of a frame. -/
theorem necReceiver : BitReceiver irNecDecode
    (fun b => pulseSpace irNecTimings.bitPulse (irNecTimings.bitSpace b)) 32 NEC_NBITS necOpened := by
  refine ⟨fun m v b hm => ?_⟩
  have hstate : necOpened m v = ⟨.bitPulse, m, v, false, false⟩ := by
    unfold necOpened
    rw [if_neg hm.ne]
  have hpulse : irNecDecode ⟨.bitPulse, m, v, false, false⟩ (initIrRawEventDuration true NEC_BIT_PULSE) =
      (⟨.bitSpace, m, v, false, false⟩, .ok []) := rfl
  have hspace : irNecDecode ⟨.bitSpace, m, v, false, false⟩
      (initIrRawEventDuration false (irNecTimings.bitSpace b)) =
      (necOpened (m + 1) (shiftIn 32 v b), .ok []) := by
    change necBit (if NECX_REPEAT_BITS < m then ⟨.bitSpace, m, v, false, false⟩
      else ⟨.bitSpace, m, v, false, false⟩) _ = _
    rw [ite_self]
    cases b with
    | true => rfl
    | false =>
      unfold shiftIn
      rw [Bool.toNat_false, Nat.or_zero]
      rfl
  rw [hstate]
  exact (takes_single hpulse).append (takes_single hspace)

/-- The scancode of a register. -/
def necScancode (bits : ℕ) : RcProto × ℕ :=
  irNecBytesToScancode (bitrev8 ((bits >>> 24) &&& 0xff)) (bitrev8 ((bits >>> 16) &&& 0xff))
    (bitrev8 ((bits >>> 8) &&& 0xff)) (bitrev8 ((bits >>> 0) &&& 0xff))

/-- A frame is reported once, and what follows it is not part of one. -/
theorem necFrame_taken (raw : ℕ) {data : NecDec} (hdata : data.state = .inactive) (gap : ℕ) :
    (reportAll irNecDecode data
      (pdFrame irNecTimings NEC_NBITS raw ++ [initIrRawEventDuration false gap])).2 =
        [.keydown ⟨(necScancode (shiftAll 32 data.bits (lsbBits raw NEC_NBITS))).1,
          (necScancode (shiftAll 32 data.bits (lsbBits raw NEC_NBITS))).2, 0⟩] := by
  obtain ⟨_, count, bits, isNecX, necxRepeat⟩ := data
  obtain rfl : _ = NecState.inactive := hdata
  have hheader : Takes irNecDecode ⟨.inactive, count, bits, isNecX, necxRepeat⟩
      (pulseSpace NEC_HEADER_PULSE NEC_HEADER_SPACE) (necOpened 0 bits) [] := rfl
  have htrailer : ∀ v, Takes irNecDecode (necOpened NEC_NBITS v)
      (pulseSpace NEC_TRAILER_PULSE NEC_TRAILER_SPACE) ⟨.inactive, NEC_NBITS, v, false, false⟩
      [.keydown ⟨(necScancode v).1, (necScancode v).2, 0⟩] := fun v => rfl
  have hgap : ∀ v, Takes irNecDecode ⟨.inactive, NEC_NBITS, v, false, false⟩
      [initIrRawEventDuration false gap] ⟨.inactive, NEC_NBITS, v, false, false⟩ [] :=
    fun v => takes_error rfl
  have hframe := (necReceiver.pdFrame hheader htrailer raw).append (hgap _)
  rw [hframe]
  rfl

/-! ## The variants -/

/-- Four bytes in a word. -/
theorem lor_bytes {a b c : ℕ} (ha : a < 2 ^ 8) (hb : b < 2 ^ 8) (hc : c < 2 ^ 8) (d : ℕ) :
    d <<< 24 ||| c <<< 16 ||| b <<< 8 ||| a = d * 2 ^ 24 + (c * 2 ^ 16 + (b * 2 ^ 8 + a)) := by
  rw [Nat.lor_assoc, Nat.lor_assoc, shiftLeft_lor ha b, shiftLeft_lor (by omega) c, shiftLeft_lor (by omega) d]

/-- The four bytes of a scancode are bytes. -/
theorem necBytes_lt (protocol : RcProto) (scancode : ℕ) :
    (necBytes protocol scancode).1 < 2 ^ 8 ∧ (necBytes protocol scancode).2.1 < 2 ^ 8 ∧
      (necBytes protocol scancode).2.2.1 < 2 ^ 8 ∧ (necBytes protocol scancode).2.2.2 < 2 ^ 8 := by
  have hbyte : ∀ x : ℕ, x &&& 0xff < 2 ^ 8 := fun x => Nat.and_lt_two_pow x (by decide)
  have hxor : ∀ x : ℕ, (x &&& 0xff) ^^^ 0xff < 2 ^ 8 := fun x => Nat.xor_lt_two_pow (hbyte x) (by decide)
  unfold necBytes
  split
  · exact ⟨hbyte _, hbyte _, hbyte _, hbyte _⟩
  · exact ⟨hbyte _, hbyte _, hbyte _, hxor _⟩
  · exact ⟨hbyte _, hxor _, hbyte _, hxor _⟩

/-- The decoder finds the bytes that the encoder has sent. -/
theorem necScancode_raw (protocol : RcProto) (scancode v : ℕ) :
    necScancode (shiftAll 32 v (lsbBits (irNecScancodeToRaw protocol scancode) NEC_NBITS)) =
      irNecBytesToScancode (necBytes protocol scancode).1 (necBytes protocol scancode).2.1
        (necBytes protocol scancode).2.2.1 (necBytes protocol scancode).2.2.2 := by
  obtain ⟨ha, hb, hc, hd⟩ := necBytes_lt protocol scancode
  have hraw : irNecScancodeToRaw protocol scancode = (necBytes protocol scancode).2.2.2 * 2 ^ 24 +
      ((necBytes protocol scancode).2.2.1 * 2 ^ 16 +
        ((necBytes protocol scancode).2.1 * 2 ^ 8 + (necBytes protocol scancode).1)) :=
    lor_bytes ha hb hc _
  have hfield : ∀ s ≤ 24, bitrev8
      ((shiftAll 32 v (lsbBits (irNecScancodeToRaw protocol scancode) NEC_NBITS) >>> s) &&& 0xff) =
        irNecScancodeToRaw protocol scancode / 2 ^ (24 - s) % 2 ^ 8 := fun s hs => by
    rw [land_byte]
    refine (bitrev_shiftAll_lsb v _ (show s + 8 ≤ NEC_NBITS from ?_) (Nat.le_refl 32)).trans ?_
    · unfold NEC_NBITS
      omega
    · rw [Nat.shiftRight_eq_div_pow, show NEC_NBITS - (s + 8) = 24 - s by unfold NEC_NBITS; omega]
  unfold necScancode
  rw [hfield 24 (by omega), hfield 16 (by omega), hfield 8 (by omega), hfield 0 (by omega), hraw]
  generalize (necBytes protocol scancode).1 = a at *
  generalize (necBytes protocol scancode).2.1 = b at *
  generalize (necBytes protocol scancode).2.2.1 = c at *
  generalize (necBytes protocol scancode).2.2.2 = d at *
  have h₀ : (d * 2 ^ 24 + (c * 2 ^ 16 + (b * 2 ^ 8 + a))) / 2 ^ (24 - 24) % 2 ^ 8 = a := by omega
  have h₁ : (d * 2 ^ 24 + (c * 2 ^ 16 + (b * 2 ^ 8 + a))) / 2 ^ (24 - 16) % 2 ^ 8 = b := by omega
  have h₂ : (d * 2 ^ 24 + (c * 2 ^ 16 + (b * 2 ^ 8 + a))) / 2 ^ (24 - 8) % 2 ^ 8 = c := by omega
  have h₃ : (d * 2 ^ 24 + (c * 2 ^ 16 + (b * 2 ^ 8 + a))) / 2 ^ (24 - 0) % 2 ^ 8 = d := by omega
  rw [h₀, h₁, h₂, h₃]

/-- Validation looks for a byte and its complement. -/
theorem complement_iff (x y : ℕ) : (x ^^^ (y ^^^ 0xffffffff)) &&& 0xff ≠ 0 ↔
    (x &&& 0xff) ^^^ (y &&& 0xff) ≠ 0xff := by
  rw [Nat.and_xor_distrib_right, Nat.and_xor_distrib_right, ← Nat.xor_assoc, Ne, Ne, Nat.xor_eq_zero_iff]
  exact Iff.rfl

theorem xor_complement (x : ℕ) : x ^^^ (x ^^^ 0xff) = 0xff := by
  rw [← Nat.xor_assoc, Nat.xor_self, Nat.zero_xor]

/-- The variants of NEC. -/
def NecProtocol (protocol : RcProto) : Prop := protocol = .nec ∨ protocol = .necx ∨ protocol = .nec32

/-- **The bytes of a valid scancode say its variant.** -/
theorem irNecBytesToScancode_necBytes {protocol : RcProto} (hprotocol : NecProtocol protocol) {scancode : ℕ}
    (hbits : InScancodeBits protocol scancode) (hvalid : rcValidateScancode protocol scancode = true) :
    irNecBytesToScancode (necBytes protocol scancode).1 (necBytes protocol scancode).2.1
      (necBytes protocol scancode).2.2.1 (necBytes protocol scancode).2.2.2 = (protocol, scancode) := by
  unfold irNecBytesToScancode necBytes
  rcases hprotocol with rfl | rfl | rfl <;> dsimp only
  · rw [if_neg (not_not.2 (xor_complement _)), if_neg (not_not.2 (xor_complement _))]
    have hmod : scancode % 2 ^ 16 = scancode := (Nat.and_two_pow_sub_one_eq_mod scancode 16).symm.trans hbits
    rw [land_byte, land_byte, shiftLeft_lor (by omega), Nat.shiftRight_eq_div_pow]
    refine congrArg (Prod.mk RcProto.nec) ?_
    omega
  · have hne := (complement_iff (scancode >>> 16) (scancode >>> 8)).1 (bne_iff_ne.1 hvalid)
    rw [if_neg (not_not.2 (xor_complement _)), if_pos hne]
    have hmod : scancode % 2 ^ 24 = scancode := (Nat.and_two_pow_sub_one_eq_mod scancode 24).symm.trans hbits
    have hlow : scancode % 2 ^ 8 < 2 ^ 8 := Nat.mod_lt _ (by decide)
    rw [land_byte, land_byte, land_byte, Nat.lor_assoc, shiftLeft_lor hlow, shiftLeft_lor (by omega),
      Nat.shiftRight_eq_div_pow, Nat.shiftRight_eq_div_pow]
    refine congrArg (Prod.mk RcProto.necx) ?_
    omega
  · have hne := (complement_iff (scancode >>> 8) scancode).1 (bne_iff_ne.1 hvalid)
    rw [Nat.xor_comm] at hne
    rw [if_pos hne]
    have hmod : scancode % 2 ^ 32 = scancode := (Nat.and_two_pow_sub_one_eq_mod scancode 32).symm.trans hbits
    rw [land_byte, land_byte, land_byte, land_byte, lor_bytes (by omega) (by omega) (by omega),
      Nat.shiftRight_eq_div_pow, Nat.shiftRight_eq_div_pow, Nat.shiftRight_eq_div_pow]
    refine congrArg (Prod.mk RcProto.nec32) ?_
    omega

/-! ## The round trip -/

/-- **NEC**: a valid scancode is encoded where there is room, and its frame is decoded as the key it has
been encoded from, from whatever the decoder has left of earlier frames. -/
theorem irNecDecode_irNecEncode {protocol : RcProto} (hprotocol : NecProtocol protocol) {scancode : ℕ}
    (hbits : InScancodeBits protocol scancode) (hvalid : rcValidateScancode protocol scancode = true)
    {data : NecDec} (hdata : data.state = .inactive) (gap : ℕ) :
    (∃ room, ∀ max, room ≤ max → ∃ events, (irNecEncode protocol scancode max).events = .ok events) ∧
      ∀ max events, (irNecEncode protocol scancode max).events = .ok events →
        (reportAll irNecDecode data (events ++ [initIrRawEventDuration false gap])).2 =
          [.keydown ⟨protocol, scancode, 0⟩] := by
  have hemits := emits_pdFrame irNecTimings NEC_NBITS (irNecScancodeToRaw protocol scancode)
  refine ⟨⟨_, fun max hmax => ⟨_, (encodeWith_of_emits hemits).2 hmax⟩⟩, fun max events hevents => ?_⟩
  rw [(encodeWith_of_emits hemits).1 events hevents, necFrame_taken _ hdata, necScancode_raw,
    irNecBytesToScancode_necBytes hprotocol hbits hvalid]

/-- A scancode of the variant with a 16-bit address, behind a frame that has been a repetition. -/
theorem irNecDecode_irNecEncode_necx : ∃ room, ∀ max, room ≤ max → ∃ events,
    (irNecEncode .necx 0x866b1c max).events = .ok events ∧
      (reportAll irNecDecode ⟨.inactive, 1, 7, true, true⟩
        (events ++ [initIrRawEventDuration false 20000000])).2 = [.keydown ⟨.necx, 0x866b1c, 0⟩] := by
  obtain ⟨⟨room, hroom⟩, hdecode⟩ := irNecDecode_irNecEncode (Or.inr (Or.inl rfl) : NecProtocol .necx)
    (by decide : InScancodeBits .necx 0x866b1c) (by decide) (rfl : (⟨.inactive, 1, 7, true, true⟩ : NecDec).state = .inactive)
    20000000
  refine ⟨room, fun max hmax => ?_⟩
  obtain ⟨events, hevents⟩ := hroom max hmax
  exact ⟨events, hevents, hdecode max events hevents⟩

end Rc
end TbsMedia
