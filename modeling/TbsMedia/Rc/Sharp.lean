import TbsMedia.Lib.BitFields
import TbsMedia.Rc.BitReceiver

/-!
# Sharp

A message has an address of five bits, a command of eight and two check bits.  It is sent without a header,
the highest bit first, and after a pause once more with the command and the check bits inverted.  The
decoder measures a bit from pulse to pulse.

* `irSharpDecode`, `irSharpEncode`: the two halves of `ir-sharp-decoder.c`.
* `irSharp_roundTrips`: what is encoded is decoded.
-/

namespace TbsMedia
namespace Rc

open Lib

def SHARP_NBITS : ℕ := 15
def SHARP_UNIT : ℕ := 40000
def SHARP_BIT_PULSE : ℕ := 8 * SHARP_UNIT
def SHARP_BIT_0_PERIOD : ℕ := 25 * SHARP_UNIT
def SHARP_BIT_1_PERIOD : ℕ := 50 * SHARP_UNIT
def SHARP_ECHO_SPACE : ℕ := 1000 * SHARP_UNIT
def SHARP_TRAILER_SPACE : ℕ := 125 * SHARP_UNIT

/-! ## The decoder -/

/-- `enum sharp_state`. -/
inductive SharpState where
  | inactive | bitPulse | bitSpace | trailerPulse | echoSpace | trailerSpace
  deriving DecidableEq, Repr

/-- `struct sharp_dec`. -/
structure SharpDec where
  state : SharpState
  count : ℕ
  bits : ℕ
  pulseLen : ℕ
  deriving DecidableEq, Repr

/-- What the decoder does with an event. -/
abbrev SharpResult := SharpDec × Except Errno (List Report)

/-- The end of the function, where the `switch` is left. -/
def sharpOut (data : SharpDec) : SharpResult := ({ data with state := .inactive }, .error .EINVAL)

/-- `STATE_BIT_SPACE`. -/
def sharpBitSpace (data : SharpDec) (ev : IrRawEvent) : SharpResult :=
  if ev.pulse then sharpOut data
  else
    let bits := (data.bits <<< 1) % 2 ^ 32
    let period := (data.pulseLen + ev.duration) % 2 ^ 32
    let state : SharpState :=
      if data.count + 1 = SHARP_NBITS ∨ data.count + 1 = SHARP_NBITS * 2 then .trailerPulse else .bitPulse
    if eqMargin period SHARP_BIT_1_PERIOD (SHARP_BIT_PULSE * 2) then
      ({ data with state, bits := bits ||| 1, count := data.count + 1 }, .ok [])
    else if ¬ eqMargin period SHARP_BIT_0_PERIOD (SHARP_BIT_PULSE * 2) then sharpOut { data with bits }
    else ({ data with state, bits, count := data.count + 1 }, .ok [])

/-- `STATE_TRAILER_PULSE`, where the check bits of the first message are looked at. -/
def sharpTrailerPulse (data : SharpDec) (ev : IrRawEvent) : SharpResult :=
  if ev.pulse = false then sharpOut data
  else if ¬ eqMargin ev.duration SHARP_BIT_PULSE (SHARP_BIT_PULSE / 2) then sharpOut data
  else if data.count = SHARP_NBITS then
    if data.bits &&& 0x3 ≠ 0x2 ∧ data.bits &&& 0x3 ≠ 0x0 then sharpOut data
    else ({ data with state := .echoSpace }, .ok [])
  else ({ data with state := .trailerSpace }, .ok [])

/-- The first message in a register. -/
def sharpMsg (bits : ℕ) : ℕ := (bits >>> 15) &&& 0x7fff

/-- The second message in a register. -/
def sharpEcho (bits : ℕ) : ℕ := bits &&& 0x7fff

/-- The scancode of a message. -/
def sharpScancode (msg : ℕ) : ℕ := bitrev8 ((msg >>> 7) &&& 0xf8) <<< 8 ||| bitrev8 ((msg >>> 2) &&& 0xff)

/-- `STATE_TRAILER_SPACE`. -/
def sharpTrailerSpace (data : SharpDec) (ev : IrRawEvent) : SharpResult :=
  if ev.pulse then sharpOut data
  else if ¬ geqMargin ev.duration SHARP_TRAILER_SPACE (SHARP_BIT_PULSE / 2) then sharpOut data
  else if sharpMsg data.bits ^^^ sharpEcho data.bits ≠ 0x3ff then sharpOut data
  else
    ({ data with state := .inactive }, .ok [.keydown ⟨.sharp, sharpScancode (sharpMsg data.bits), 0⟩])

/-- The `switch` over the state. -/
def sharpSwitch (data : SharpDec) (ev : IrRawEvent) : SharpResult :=
  match data.state with
  | .inactive =>
    if ev.pulse = false then sharpOut data
    else if ¬ eqMargin ev.duration SHARP_BIT_PULSE (SHARP_BIT_PULSE / 2) then sharpOut data
    else ({ data with count := 0, pulseLen := ev.duration, state := .bitSpace }, .ok [])
  | .bitPulse =>
    if ev.pulse = false then sharpOut data
    else if ¬ eqMargin ev.duration SHARP_BIT_PULSE (SHARP_BIT_PULSE / 2) then sharpOut data
    else ({ data with pulseLen := ev.duration, state := .bitSpace }, .ok [])
  | .bitSpace => sharpBitSpace data ev
  | .trailerPulse => sharpTrailerPulse data ev
  | .echoSpace =>
    if ev.pulse then sharpOut data
    else if ¬ eqMargin ev.duration SHARP_ECHO_SPACE (SHARP_ECHO_SPACE / 4) then sharpOut data
    else ({ data with state := .bitPulse }, .ok [])
  | .trailerSpace => sharpTrailerSpace data ev

/-- `ir_sharp_decode`. -/
def irSharpDecode (data : SharpDec) (ev : IrRawEvent) : SharpResult :=
  if isTimingEvent ev = false then
    (if ev.reset then { data with state := .inactive } else data, .ok [])
  else sharpSwitch data ev

/-! ## The encoder -/

/-- `ir_sharp_timings`. -/
def irSharpTimings : TimingsPd where
  headerPulse := 0
  headerSpace := 0
  bitPulse := SHARP_BIT_PULSE
  bitSpace := fun b => if b then SHARP_BIT_1_PERIOD else SHARP_BIT_0_PERIOD
  trailerPulse := SHARP_BIT_PULSE
  trailerSpace := SHARP_ECHO_SPACE
  msbFirst := true

/-- The address of a scancode and a command. -/
def sharpRaw (scancode command : ℕ) : ℕ :=
  ((bitrev8 (scancode >>> 8) >>> 3) <<< 8) &&& 0x1f00 ||| bitrev8 command

/-- `max -= ret` between the two frames: `ir_raw_gen_pd` returns nothing but zero where it does not fail,
and the second frame is given the room of the first. -/
def thenAgain (f g : Fill) : Fill := fun s =>
  match f s with
  | (s', .ok ()) => g ⟨s'.ev, s.max - 0⟩
  | (s', .error e) => (s', .error e)

/-- `ir_sharp_encode`. -/
def irSharpEncode (scancode max : ℕ) : Encoding :=
  encodeWith (thenAgain
    (irRawGenPd irSharpTimings SHARP_NBITS (sharpRaw scancode scancode <<< 2 ||| 2))
    (irRawGenPd irSharpTimings SHARP_NBITS (sharpRaw scancode (scancode ^^^ 0xffffffff) <<< 2 ||| 1))) max

/-- **Two frames of one length**, where there is room for one. -/
theorem thenAgain_of_emits {f g : Fill} {evs evs' : List IrRawEvent} (hf : Emits f evs) (hg : Emits g evs')
    (hlength : evs'.length = evs.length) (max : ℕ) :
    (evs.length ≤ max → encodeWith (thenAgain f g) max = ⟨evs ++ evs', .ok (evs ++ evs').length⟩) ∧
      (max < evs.length → (encodeWith (thenAgain f g) max).ret = .error .ENOBUFS ∧
        (encodeWith (thenAgain f g) max).written.length = max) := by
  obtain ⟨-, hfit, hfull⟩ := hf ⟨[], max⟩
  rw [List.append_nil, List.length_reverse, List.length_nil, Nat.zero_add] at hfit hfull
  obtain ⟨-, hfit', -⟩ := hg ⟨evs.reverse, max⟩
  rw [← List.reverse_append, List.length_reverse, List.length_reverse, List.length_append] at hfit'
  unfold encodeWith thenAgain
  refine ⟨fun h => ?_, fun h => ?_⟩
  · rw [hfit h]
    dsimp only
    rw [Nat.sub_zero, hfit' (by dsimp only; omega)]
    dsimp only
    rw [List.reverse_reverse, List.length_reverse]
    rfl
  · obtain ⟨ev', hev, hlen⟩ := hfull h
    rw [hev]
    exact ⟨rfl, List.length_reverse.trans hlen⟩

/-! ## Taking a frame -/

/-- The decoder behind `m` bits of the message and its echo. -/
def sharpBehind (m v : ℕ) : SharpDec :=
  ⟨if m = SHARP_NBITS ∨ m = SHARP_NBITS * 2 then .trailerPulse else .bitPulse, m, v, SHARP_BIT_PULSE⟩

/-- How the decoder takes a bit. -/
theorem sharpBit_taken {data : SharpDec} {m : ℕ}
    (hstate : data.state = .inactive ∧ m = 0 ∨ data.state = .bitPulse ∧ m = data.count) (b : Bool) :
    Takes irSharpDecode data (pulseSpace irSharpTimings.bitPulse (irSharpTimings.bitSpace b))
      (sharpBehind (m + 1) (shiftIn 32 data.bits b)) [] := by
  obtain ⟨state, count, bits, pulseLen⟩ := data
  have hpulse : irSharpDecode ⟨state, count, bits, pulseLen⟩ (initIrRawEventDuration true SHARP_BIT_PULSE) =
      (⟨.bitSpace, m, bits, SHARP_BIT_PULSE⟩, .ok []) := by
    rcases hstate with ⟨rfl, rfl⟩ | ⟨rfl, rfl⟩ <;> rfl
  have hspace : irSharpDecode ⟨.bitSpace, m, bits, SHARP_BIT_PULSE⟩
      (initIrRawEventDuration false (irSharpTimings.bitSpace b)) =
      (sharpBehind (m + 1) (shiftIn 32 bits b), .ok []) := by
    change sharpBitSpace ⟨.bitSpace, m, bits, SHARP_BIT_PULSE⟩
      (initIrRawEventDuration false (irSharpTimings.bitSpace b)) = _
    unfold sharpBitSpace
    rw [if_neg (show ¬(initIrRawEventDuration false (irSharpTimings.bitSpace b)).pulse = true from nofun)]
    dsimp only [initIrRawEventDuration]
    cases b with
    | true =>
      rw [if_pos (by decide)]
      rfl
    | false =>
      rw [if_neg (by decide), if_neg (by decide)]
      unfold shiftIn
      rw [Bool.toNat_false, Nat.or_zero]
      rfl
  exact (takes_single hpulse).append (takes_single hspace)

/-- How the decoder takes the bits of the message, from wherever it has been left. -/
theorem sharpReceiver (count pulseLen : ℕ) : BitReceiver irSharpDecode
    (fun b => pulseSpace irSharpTimings.bitPulse (irSharpTimings.bitSpace b)) 32 SHARP_NBITS
    (fun m v => if m = 0 then ⟨.inactive, count, v, pulseLen⟩ else sharpBehind m v) := by
  refine ⟨fun m v b hm => ?_⟩
  by_cases h : m = 0
  · subst h
    exact sharpBit_taken (Or.inl ⟨rfl, rfl⟩) b
  · have hstate : sharpBehind m v = ⟨.bitPulse, m, v, SHARP_BIT_PULSE⟩ := by
      unfold sharpBehind
      rw [if_neg (not_or.2 ⟨hm.ne, (hm.trans (by decide)).ne⟩)]
    rw [if_neg h, hstate]
    exact sharpBit_taken (Or.inr ⟨rfl, rfl⟩) b

/-- How the decoder takes the bits of the echo. -/
theorem sharpEchoReceiver : BitReceiver irSharpDecode
    (fun b => pulseSpace irSharpTimings.bitPulse (irSharpTimings.bitSpace b)) 32 SHARP_NBITS
    (fun m v => if m = 0 then ⟨.bitPulse, SHARP_NBITS, v, SHARP_BIT_PULSE⟩
      else sharpBehind (SHARP_NBITS + m) v) := by
  refine ⟨fun m v b hm => ?_⟩
  by_cases h : m = 0
  · subst h
    exact sharpBit_taken (Or.inr ⟨rfl, rfl⟩) b
  · have hstate : sharpBehind (SHARP_NBITS + m) v = ⟨.bitPulse, SHARP_NBITS + m, v, SHARP_BIT_PULSE⟩ := by
      unfold sharpBehind
      rw [if_neg (by unfold SHARP_NBITS at *; omega)]
    rw [if_neg h, hstate]
    exact sharpBit_taken (Or.inr ⟨rfl, rfl⟩) b

/-- **A message and its echo** are reported once, and what follows them is not part of one. -/
theorem sharpFrames_taken {raw raw' : ℕ} {data : SharpDec} (hdata : data.state = .inactive)
    (hcheck : raw &&& 0x3 = 0x2) (hraw' : raw' < 2 ^ SHARP_NBITS)
    (hecho : sharpMsg (shiftAll 32 data.bits (msbBits (raw <<< SHARP_NBITS ||| raw') 30)) ^^^
      sharpEcho (shiftAll 32 data.bits (msbBits (raw <<< SHARP_NBITS ||| raw') 30)) = 0x3ff) (gap : ℕ) :
    ∃ data', Takes irSharpDecode data (pdFrame irSharpTimings SHARP_NBITS raw ++
        pdFrame irSharpTimings SHARP_NBITS raw' ++ [initIrRawEventDuration false gap]) data'
      [.keydown ⟨.sharp, sharpScancode (sharpMsg
        (shiftAll 32 data.bits (msbBits (raw <<< SHARP_NBITS ||| raw') 30))), 0⟩] := by
  obtain ⟨_, count, bits, pulseLen⟩ := data
  obtain rfl : _ = SharpState.inactive := hdata
  dsimp only at hecho ⊢
  rw [show 30 = SHARP_NBITS + SHARP_NBITS from rfl, ← msbBits_append raw hraw' SHARP_NBITS,
    shiftAll_append] at hecho ⊢
  have hbits := (sharpReceiver count pulseLen).bits (msbBits raw SHARP_NBITS) (m := 0)
    (by rw [length_msbBits]; omega) bits
  have hbits' := fun v => sharpEchoReceiver.bits (msbBits raw' SHARP_NBITS) (m := 0)
    (by rw [length_msbBits]; omega) v
  rw [length_msbBits] at hbits
  simp only [length_msbBits] at hbits'
  have hcheck' : shiftAll 32 bits (msbBits raw SHARP_NBITS) &&& 0x3 = 0x2 := by
    have hlow := shiftAll_msb_field (w := 32) (n := SHARP_NBITS) (s := 0) (k := 2) bits raw (by decide)
      (by decide)
    rw [Nat.shiftRight_zero, Nat.shiftRight_zero] at hlow
    exact (Nat.and_two_pow_sub_one_eq_mod _ 2).trans
      (hlow.trans ((Nat.and_two_pow_sub_one_eq_mod raw 2).symm.trans hcheck))
  change Takes _ _ _ (sharpBehind SHARP_NBITS _) _ at hbits
  generalize shiftAll 32 bits (msbBits raw SHARP_NBITS) = v at *
  have htrailer : Takes irSharpDecode (sharpBehind SHARP_NBITS v)
      (pulseSpace SHARP_BIT_PULSE SHARP_ECHO_SPACE) ⟨.bitPulse, SHARP_NBITS, v, SHARP_BIT_PULSE⟩ [] := by
    have hpulse : irSharpDecode (sharpBehind SHARP_NBITS v) (initIrRawEventDuration true SHARP_BIT_PULSE) =
        (⟨.echoSpace, SHARP_NBITS, v, SHARP_BIT_PULSE⟩, .ok []) :=
      if_neg (c := v &&& 0x3 ≠ 0x2 ∧ v &&& 0x3 ≠ 0x0) fun h => h.1 hcheck'
    exact Takes.cons hpulse (takes_single rfl)
  have htrailer' : Takes irSharpDecode (sharpBehind (SHARP_NBITS + SHARP_NBITS) (shiftAll 32 v (msbBits raw' SHARP_NBITS)))
      (pulseSpace SHARP_BIT_PULSE SHARP_ECHO_SPACE)
      ⟨.inactive, 30, shiftAll 32 v (msbBits raw' SHARP_NBITS), SHARP_BIT_PULSE⟩
      [.keydown ⟨.sharp, sharpScancode (sharpMsg (shiftAll 32 v (msbBits raw' SHARP_NBITS))), 0⟩] := by
    generalize shiftAll 32 v (msbBits raw' SHARP_NBITS) = v' at *
    have hpulse : irSharpDecode (sharpBehind (SHARP_NBITS + SHARP_NBITS) v')
        (initIrRawEventDuration true SHARP_BIT_PULSE) =
          (⟨.trailerSpace, 30, v', SHARP_BIT_PULSE⟩, .ok []) := rfl
    exact Takes.cons hpulse (takes_single
      (if_neg (c := sharpMsg v' ^^^ sharpEcho v' ≠ 0x3ff) (not_not.2 hecho)))
  have hgap : irSharpDecode ⟨.inactive, 30, shiftAll 32 v (msbBits raw' SHARP_NBITS), SHARP_BIT_PULSE⟩
      (initIrRawEventDuration false gap) =
        (⟨.inactive, 30, shiftAll 32 v (msbBits raw' SHARP_NBITS), SHARP_BIT_PULSE⟩, .error .EINVAL) := rfl
  have hmessage : Takes irSharpDecode ⟨.inactive, count, bits, pulseLen⟩
      (pdFrame irSharpTimings SHARP_NBITS raw) ⟨.bitPulse, SHARP_NBITS, v, SHARP_BIT_PULSE⟩ [] :=
    hbits.append htrailer
  have hmessage' : Takes irSharpDecode ⟨.bitPulse, SHARP_NBITS, v, SHARP_BIT_PULSE⟩
      (pdFrame irSharpTimings SHARP_NBITS raw')
      ⟨.inactive, 30, shiftAll 32 v (msbBits raw' SHARP_NBITS), SHARP_BIT_PULSE⟩
      [.keydown ⟨.sharp, sharpScancode (sharpMsg (shiftAll 32 v (msbBits raw' SHARP_NBITS))), 0⟩] :=
    (hbits' v).append htrailer'
  exact ⟨_, (hmessage.append hmessage').append (takes_error hgap)⟩

/-! ## The round trip -/

/-- The two messages as sums of their fields, and how their commands are related. -/
theorem sharpRaw_eq {scancode : ℕ} (hlt : scancode < 2 ^ 13) (command check : ℕ) (hcheck : check < 2 ^ 2) :
    sharpRaw scancode command <<< 2 ||| check =
      bitrev 5 (scancode / 2 ^ 8) * 2 ^ 10 + (bitrev 8 command * 2 ^ 2 + check) := by
  have haddress : ((bitrev8 (scancode >>> 8) >>> 3) <<< 8) &&& 0x1f00 =
      bitrev 5 (scancode / 2 ^ 8) <<< 8 := by
    have hlt' : scancode / 2 ^ 8 < 2 ^ 5 := by omega
    rw [Nat.shiftRight_eq_div_pow scancode 8, land_eq_shiftLeft (by decide : 0x1f00 = (2 ^ 5 - 1) <<< 8)]
    unfold bitrev8
    rw [bitrev_of_lt 3 hlt', Nat.shiftLeft_shiftRight, ← Nat.shiftRight_eq_div_pow, Nat.shiftLeft_shiftRight,
      Nat.mod_eq_of_lt (bitrev_lt 5 _)]
  unfold sharpRaw
  rw [haddress]
  unfold bitrev8
  rw [shiftLeft_lor (bitrev_lt 8 command), shiftLeft_lor hcheck]
  omega

/-- **The decoder finds the message**, and the echo is its complement where it has to be. -/
theorem sharpFields_raw {scancode : ℕ} (hbits : InScancodeBits .sharp scancode) (v : ℕ) :
    sharpScancode (sharpMsg (shiftAll 32 v (msbBits ((sharpRaw scancode scancode <<< 2 ||| 2) <<< SHARP_NBITS |||
        (sharpRaw scancode (scancode ^^^ 0xffffffff) <<< 2 ||| 1)) 30))) = scancode ∧
      sharpMsg (shiftAll 32 v (msbBits ((sharpRaw scancode scancode <<< 2 ||| 2) <<< SHARP_NBITS |||
        (sharpRaw scancode (scancode ^^^ 0xffffffff) <<< 2 ||| 1)) 30)) ^^^
      sharpEcho (shiftAll 32 v (msbBits ((sharpRaw scancode scancode <<< 2 ||| 2) <<< SHARP_NBITS |||
        (sharpRaw scancode (scancode ^^^ 0xffffffff) <<< 2 ||| 1)) 30)) = 0x3ff := by
  have hmod : scancode % 2 ^ 13 = scancode := (Nat.and_two_pow_sub_one_eq_mod scancode 13).symm.trans hbits
  have hlt : scancode < 2 ^ 13 := by omega
  have hecho : bitrev 8 (scancode ^^^ 0xffffffff) = bitrev 8 scancode ^^^ 0xff := bitrev_xor 8 scancode _
  have haddress := bitrev_lt 5 (scancode / 2 ^ 8)
  have hcommand := bitrev_lt 8 scancode
  have hnotCommand := bitrev_lt 8 (scancode ^^^ 0xffffffff)
  have hcommands : bitrev 8 scancode ^^^ bitrev 8 (scancode ^^^ 0xffffffff) = 0xff := by
    rw [hecho, ← Nat.xor_assoc, Nat.xor_self, Nat.zero_xor]
  have hscancode : bitrev 5 (bitrev 5 (scancode / 2 ^ 8)) * 2 ^ 8 + bitrev 8 (bitrev 8 scancode) = scancode := by
    rw [bitrev_bitrev, bitrev_bitrev]
    omega
  rw [sharpRaw_eq hlt _ 2 (by decide), sharpRaw_eq hlt _ 1 (by decide)]
  generalize bitrev 5 (scancode / 2 ^ 8) = a at *
  generalize bitrev 8 (scancode ^^^ 0xffffffff) = d at *
  generalize bitrev 8 scancode = c at *
  have hlast : a * 2 ^ 10 + (d * 2 ^ 2 + 1) < 2 ^ SHARP_NBITS :=
    mul_add_lt_two_pow haddress (mul_add_lt_two_pow hnotCommand (by decide : 1 < 2 ^ 2))
  have hfirst : a * 2 ^ 10 + (c * 2 ^ 2 + 2) < 2 ^ SHARP_NBITS :=
    mul_add_lt_two_pow haddress (mul_add_lt_two_pow hcommand (by decide : 2 < 2 ^ 2))
  rw [shiftLeft_lor hlast]
  have hmsg : sharpMsg (shiftAll 32 v (msbBits ((a * 2 ^ 10 + (c * 2 ^ 2 + 2)) * 2 ^ SHARP_NBITS +
      (a * 2 ^ 10 + (d * 2 ^ 2 + 1))) 30)) = a * 2 ^ 10 + (c * 2 ^ 2 + 2) := by
    unfold sharpMsg
    rw [Nat.and_two_pow_sub_one_eq_mod _ 15, shiftAll_msb_field v _ (by decide) (by decide),
      Nat.shiftRight_eq_div_pow]
    exact (congrArg (· % 2 ^ 15) (mul_add_div_two_pow hlast _)).trans (Nat.mod_eq_of_lt hfirst)
  have hechoed : sharpEcho (shiftAll 32 v (msbBits ((a * 2 ^ 10 + (c * 2 ^ 2 + 2)) * 2 ^ SHARP_NBITS +
      (a * 2 ^ 10 + (d * 2 ^ 2 + 1))) 30)) = a * 2 ^ 10 + (d * 2 ^ 2 + 1) := by
    have hfield := shiftAll_msb_field (w := 32) (n := 30) (s := 0) (k := 15) v
      ((a * 2 ^ 10 + (c * 2 ^ 2 + 2)) * 2 ^ SHARP_NBITS + (a * 2 ^ 10 + (d * 2 ^ 2 + 1))) (by decide) (by decide)
    rw [Nat.shiftRight_zero, Nat.shiftRight_zero] at hfield
    unfold sharpEcho
    rw [Nat.and_two_pow_sub_one_eq_mod _ 15, hfield]
    exact mul_add_mod_two_pow hlast _
  rw [hmsg, hechoed]
  have hlow : ∀ {x y : ℕ}, y < 2 ^ 2 → x < 2 ^ 8 → (a * 2 ^ 10 + (x * 2 ^ 2 + y)) % 2 ^ 10 = x * 2 ^ 2 + y :=
    fun hy hx => mul_add_mod_two_pow (mul_add_lt_two_pow hx hy) a
  constructor
  · have haddressField : bitrev8 (((a * 2 ^ 10 + (c * 2 ^ 2 + 2)) >>> 7) &&& 0xf8) = bitrev 5 a := by
      rw [land_eq_shiftLeft (by decide : 0xf8 = (2 ^ 5 - 1) <<< 3), Nat.shiftRight_eq_div_pow,
        Nat.div_div_eq_div_mul, ← Nat.pow_add,
        mul_add_div_two_pow (mul_add_lt_two_pow hcommand (by decide : 2 < 2 ^ 2)), Nat.mod_eq_of_lt haddress]
      exact bitrev_shiftLeft 5 3 a
    have hcommandField : ((a * 2 ^ 10 + (c * 2 ^ 2 + 2)) >>> 2) &&& 0xff = c := by
      rw [land_byte, Nat.shiftRight_eq_div_pow]
      omega
    unfold sharpScancode
    rw [haddressField, hcommandField]
    unfold bitrev8
    rw [shiftLeft_lor (bitrev_lt 8 c)]
    exact hscancode
  · have hhigh : ((a * 2 ^ 10 + (c * 2 ^ 2 + 2)) ^^^ (a * 2 ^ 10 + (d * 2 ^ 2 + 1))) / 2 ^ 10 = 0 := by
      rw [Nat.xor_div_two_pow, mul_add_div_two_pow (mul_add_lt_two_pow hcommand (by decide : 2 < 2 ^ 2)),
        mul_add_div_two_pow (mul_add_lt_two_pow hnotCommand (by decide : 1 < 2 ^ 2)), Nat.xor_self]
    have hmiddle : ((a * 2 ^ 10 + (c * 2 ^ 2 + 2)) ^^^ (a * 2 ^ 10 + (d * 2 ^ 2 + 1))) % 2 ^ 10 / 2 ^ 2 =
        0xff := by
      rw [Nat.xor_mod_two_pow, hlow (by decide) hcommand, hlow (by decide) hnotCommand, Nat.xor_div_two_pow,
        mul_add_div_two_pow (by decide : 2 < 2 ^ 2), mul_add_div_two_pow (by decide : 1 < 2 ^ 2), hcommands]
    have hcheck : ((a * 2 ^ 10 + (c * 2 ^ 2 + 2)) ^^^ (a * 2 ^ 10 + (d * 2 ^ 2 + 1))) % 2 ^ 10 % 2 ^ 2 = 3 := by
      rw [Nat.xor_mod_two_pow, hlow (by decide) hcommand, hlow (by decide) hnotCommand, Nat.xor_mod_two_pow,
        mul_add_mod_two_pow (by decide : 2 < 2 ^ 2), mul_add_mod_two_pow (by decide : 1 < 2 ^ 2)]
      rfl
    generalize (a * 2 ^ 10 + (c * 2 ^ 2 + 2)) ^^^ (a * 2 ^ 10 + (d * 2 ^ 2 + 1)) = x at *
    clear hlow hlast hfirst hmsg hechoed haddress
    omega

/-- **Sharp**: what is encoded is decoded. -/
theorem irSharp_roundTrips {scancode : ℕ} (hbits : InScancodeBits .sharp scancode) :
    RoundTrips irSharpDecode (fun data => data.state = .inactive) (irSharpEncode scancode) .sharp scancode := by
  have hcheck : ∀ x : ℕ, (x <<< 2 ||| 2) &&& 0x3 = 0x2 := fun x => by
    rw [shiftLeft_lor (by decide)]
    exact (Nat.and_two_pow_sub_one_eq_mod _ 2).trans (mul_add_mod_two_pow (by decide) x)
  have hmod : scancode % 2 ^ 13 = scancode := (Nat.and_two_pow_sub_one_eq_mod scancode 13).symm.trans hbits
  have hlast : sharpRaw scancode (scancode ^^^ 0xffffffff) <<< 2 ||| 1 < 2 ^ SHARP_NBITS := by
    rw [sharpRaw_eq (by omega) _ 1 (by decide)]
    exact mul_add_lt_two_pow (bitrev_lt 5 _) (mul_add_lt_two_pow (bitrev_lt 8 _) (by decide : 1 < 2 ^ 2))
  have hframes := thenAgain_of_emits
    (emits_pdFrame irSharpTimings SHARP_NBITS (sharpRaw scancode scancode <<< 2 ||| 2))
    (emits_pdFrame irSharpTimings SHARP_NBITS (sharpRaw scancode (scancode ^^^ 0xffffffff) <<< 2 ||| 1))
    (by rw [length_pdFrame, length_pdFrame])
  have hevents := fun max (h : _ ≤ max) => congrArg Encoding.events ((hframes max).1 h)
  refine roundTrips_of_events ⟨_, fun max hmax => (hevents max hmax).trans
    (congrArg Except.ok List.take_length)⟩ (fun max events hev => ?_) fun data hdata gap => ?_
  · rcases Nat.lt_or_ge max (pdFrame irSharpTimings SHARP_NBITS (sharpRaw scancode scancode <<< 2 ||| 2)).length
      with hlt | hge
    · unfold Encoding.events irSharpEncode at hev
      rw [((hframes max).2 hlt).1] at hev
      exact nomatch hev
    · exact (Except.ok.inj (hev.symm.trans (hevents max hge))).trans List.take_length
  · obtain ⟨hscancode, hecho⟩ := sharpFields_raw hbits data.bits
    obtain ⟨data', hframe⟩ := sharpFrames_taken hdata (hcheck _) hlast hecho gap
    rw [hscancode] at hframe
    exact ⟨data', 0, hframe⟩

end Rc
end TbsMedia
