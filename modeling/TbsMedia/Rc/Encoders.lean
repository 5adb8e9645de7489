import TbsMedia.Rc.Imon
import TbsMedia.Rc.Jvc
import TbsMedia.Rc.Nec
import TbsMedia.Rc.Rc5
import TbsMedia.Rc.Rc6
import TbsMedia.Rc.Rcmm
import TbsMedia.Rc.Sanyo
import TbsMedia.Rc.Sharp
import TbsMedia.Rc.Sony

/-!
# The encoders

The handlers of the protocols are in a list, and a scancode is encoded by the first one that has its
protocol.  An encoder is given an array, and has to count what it writes.

* `irRawEncodeScancode`: `ir_raw_encode_scancode` over the list of handlers.
* `irRawHandlers`: the handlers with an encoder.
* `roundTrips_pulse`: pulse length and pulse distance round trip.
* `keepsToRoom_iff`: when an encoder keeps to the room it is given.
-/

namespace TbsMedia
namespace Rc

open Lib

/-! ## Round trips -/

/-- **Pulse length and pulse distance**: in every one of these protocols what is encoded is decoded. -/
theorem roundTrips_pulse {enabled : RcProto → Bool} (scancode : ℕ) :
    (∀ protocol, SonyProtocol protocol → enabled protocol = true → InScancodeBits protocol scancode →
      RoundTrips (irSonyDecode enabled) (fun data => data.state = .inactive) (irSonyEncode protocol scancode)
        protocol scancode) ∧
    (InScancodeBits .jvc scancode →
      RoundTrips irJvcDecode (fun data => data.state = .inactive) (irJvcEncode scancode) .jvc scancode) ∧
    (InScancodeBits .sanyo scancode →
      RoundTrips irSanyoDecode (fun data => data.state = .inactive) (irSanyoEncode scancode) .sanyo scancode) ∧
    (InScancodeBits .sharp scancode →
      RoundTrips irSharpDecode (fun data => data.state = .inactive) (irSharpEncode scancode) .sharp scancode) :=
  ⟨fun _ hprotocol henabled hbits => irSony_roundTrips hprotocol henabled hbits, irJvc_roundTrips,
    irSanyo_roundTrips, irSharp_roundTrips⟩

/-- One scancode that all of the protocols have. -/
theorem roundTrips_pulse_0x55 :
    RoundTrips (irSonyDecode fun _ => true) (fun data => data.state = .inactive) (irSonyEncode .sony20 0x55)
        .sony20 0x55 ∧
      RoundTrips irJvcDecode (fun data => data.state = .inactive) (irJvcEncode 0x55) .jvc 0x55 ∧
      RoundTrips irSanyoDecode (fun data => data.state = .inactive) (irSanyoEncode 0x55) .sanyo 0x55 ∧
      RoundTrips irSharpDecode (fun data => data.state = .inactive) (irSharpEncode 0x55) .sharp 0x55 := by
  obtain ⟨hsony, hjvc, hsanyo, hsharp⟩ := @roundTrips_pulse (fun _ => true) 0x55
  exact ⟨hsony .sony20 (Or.inr (Or.inr rfl)) rfl (by decide), hjvc (by decide), hsanyo (by decide),
    hsharp (by decide)⟩

/-! ## MCE keyboards -/

def MCIR2_UNIT : ℕ := 333333
def MCIR2_HEADER_NBITS : ℕ := 5
def MCIR2_MOUSE_NBITS : ℕ := 29
def MCIR2_KEYBOARD_NBITS : ℕ := 32
def MCIR2_PREFIX_PULSE : ℕ := 8 * MCIR2_UNIT
def MCIR2_KEYBOARD_HEADER : ℕ := 0x4
def MCIR2_MOUSE_HEADER : ℕ := 0x1

/-- `ir_mce_kbd_timings`. -/
def irMceKbdTimings : Timings where
  leaderPulse := MCIR2_PREFIX_PULSE
  invert := true
  clock := MCIR2_UNIT
  trailerSpace := MCIR2_UNIT * 10

/-- The bits of a frame and their number. -/
def mceKbdRaw (protocol : RcProto) (scancode : ℕ) : ℕ × ℕ :=
  match protocol with
  | .mcir2Kbd => (scancode ||| MCIR2_KEYBOARD_HEADER <<< MCIR2_KEYBOARD_NBITS,
      MCIR2_KEYBOARD_NBITS + MCIR2_HEADER_NBITS)
  | _ => (scancode ||| MCIR2_MOUSE_HEADER <<< MCIR2_MOUSE_NBITS, MCIR2_MOUSE_NBITS + MCIR2_HEADER_NBITS)

/-- `ir_mce_kbd_encode`. -/
def irMceKbdEncode (protocol : RcProto) (scancode max : ℕ) : Encoding :=
  encodeWith (fillManchester irMceKbdTimings (mceKbdRaw protocol scancode).2 (mceKbdRaw protocol scancode).1) max

/-! ## RC-5 and RC-6 with their arrays -/

/-- The generators of `ir_rc5_encode`. -/
def rc5Fill (protocol : RcProto) (scancode : ℕ) : Option Fill :=
  match protocol with
  | .rc5 => some (fillManchester irRc5Timings (RC5_NBITS - 1) (rc5Data .rc5 scancode))
  | .rc5x20 => some ((fillManchester irRc5xTimings₀ (CHECK_RC5X_NBITS - 1)
      (rc5Data .rc5x20 scancode >>> (RC5X_NBITS - CHECK_RC5X_NBITS))).andThen
      (fillManchester irRc5xTimings₁ (RC5X_NBITS - CHECK_RC5X_NBITS) (rc5Data .rc5x20 scancode)))
  | .rc5Sz => some (fillManchester irRc5SzTimings (RC5_SZ_NBITS - 1) (rc5Data .rc5Sz scancode))
  | _ => none

/-- Header, toggle bit and body of a frame. -/
def rc6FrameFill (header bits scancode : ℕ) : Fill :=
  (fillManchester irRc6Timings₀ RC6_HEADER_NBITS header).andThen
    ((fillManchester irRc6Timings₁ 1 0).andThen (fillManchester irRc6Timings₂ bits scancode))

/-- The generators of `ir_rc6_encode`. -/
def rc6Fill (protocol : RcProto) (scancode : ℕ) : Option Fill :=
  match protocol with
  | .rc6_0 => some (rc6FrameFill (1 <<< 3) RC6_0_NBITS scancode)
  | .rc6Mce => some (rc6FrameFill (1 <<< 3 ||| 6) 32 scancode)
  | .rc6_6a32 => some (rc6FrameFill (1 <<< 3 ||| 6) 32 scancode)
  | .rc6_6a24 => some (rc6FrameFill (1 <<< 3 ||| 6) 24 scancode)
  | .rc6_6a20 => some (rc6FrameFill (1 <<< 3 ||| 6) 20 scancode)
  | _ => none

/-- An encoder that has generators for some protocols. -/
def encodeFill (f : Option Fill) (max : ℕ) : Encoding :=
  match f with
  | some f => encodeWith f max
  | none => ⟨[], .error .EINVAL⟩

theorem encodeWith_rc5Fill (timings : Timings) (n data max : ℕ) :
    (encodeWith (fillManchester timings n data) max).events =
      (irRawGenManchester ⟨[], max⟩ timings n data).map fun s => s.ev.reverse := by
  rw [encodeWith_events, toExcept_fillManchester]

/-- This is the encoder of RC-5. -/
theorem encodeFill_rc5 (protocol : RcProto) (scancode max : ℕ) :
    (encodeFill (rc5Fill protocol scancode) max).events = irRc5Encode protocol scancode max := by
  cases protocol
  case rc5 => exact encodeWith_rc5Fill _ _ _ _
  case rc5x20 =>
    refine (encodeWith_events _ _).trans (congrArg (Except.map _) ?_)
    rw [Fill.toExcept_andThen, toExcept_fillManchester]
    exact congrArg _ (funext fun s => toExcept_fillManchester _ _ _ s)
  case rc5Sz => exact encodeWith_rc5Fill _ _ _ _
  all_goals rfl

theorem encodeWith_rc6FrameFill (header bits scancode max : ℕ) :
    (encodeWith (rc6FrameFill header bits scancode) max).events = rc6Encode header bits scancode max := by
  refine (encodeWith_events _ _).trans (congrArg (Except.map _) ?_)
  unfold rc6FrameFill
  rw [Fill.toExcept_andThen, toExcept_fillManchester]
  refine congrArg _ (funext fun s => ?_)
  rw [Fill.toExcept_andThen, toExcept_fillManchester]
  exact congrArg _ (funext fun s => toExcept_fillManchester _ _ _ s)

/-- This is the encoder of RC-6. -/
theorem encodeFill_rc6 (protocol : RcProto) (scancode max : ℕ) :
    (encodeFill (rc6Fill protocol scancode) max).events = irRc6Encode protocol scancode max := by
  cases protocol
  case rc6_0 => exact encodeWith_rc6FrameFill _ _ _ _
  case rc6_6a20 => exact encodeWith_rc6FrameFill _ _ _ _
  case rc6_6a24 => exact encodeWith_rc6FrameFill _ _ _ _
  case rc6_6a32 => exact encodeWith_rc6FrameFill _ _ _ _
  case rc6Mce => exact encodeWith_rc6FrameFill _ _ _ _
  all_goals rfl

/-! ## The list of handlers -/

/-- `struct ir_raw_handler`, as far as scancodes are encoded. -/
structure IrRawHandler where
  protocols : List RcProto
  encode : Option (RcProto → ℕ → ℕ → Encoding)

/-- The loop of `ir_raw_encode_scancode`; `last` is what the handlers so far have left. -/
def encodeLoop (protocol : RcProto) (scancode max : ℕ) : List IrRawHandler → Encoding → Encoding
  | [], last => last
  | handler :: handlers, last =>
    match handler.encode with
    | some encode =>
      if protocol ∈ handler.protocols then
        match (encode protocol scancode max).ret with
        | .ok _ => encode protocol scancode max
        | .error .ENOBUFS => encode protocol scancode max
        | .error _ => encodeLoop protocol scancode max handlers (encode protocol scancode max)
      else encodeLoop protocol scancode max handlers last
    | none => encodeLoop protocol scancode max handlers last

/-- `ir_raw_encode_scancode`. -/
def irRawEncodeScancode (handlers : List IrRawHandler) (protocol : RcProto) (scancode max : ℕ) : Encoding :=
  encodeLoop protocol scancode max handlers ⟨[], .error .EINVAL⟩

/-- The handlers with an encoder. -/
def irRawHandlers : List IrRawHandler :=
  [⟨[.imon], some fun _ => irImonEncode⟩,
    ⟨[.jvc], some fun _ => irJvcEncode⟩,
    ⟨[.mcir2Kbd, .mcir2Mse], some irMceKbdEncode⟩,
    ⟨[.nec, .necx, .nec32], some irNecEncode⟩,
    ⟨[.rc5, .rc5x20, .rc5Sz], some fun protocol scancode => encodeFill (rc5Fill protocol scancode)⟩,
    ⟨[.rc6_0, .rc6_6a20, .rc6_6a24, .rc6_6a32, .rc6Mce],
      some fun protocol scancode => encodeFill (rc6Fill protocol scancode)⟩,
    ⟨[.rcmm32, .rcmm24, .rcmm12], some irRcmmEncode⟩,
    ⟨[.sanyo], some fun _ => irSanyoEncode⟩,
    ⟨[.sharp], some fun _ => irSharpEncode⟩,
    ⟨[.sony12, .sony15, .sony20], some irSonyEncode⟩]

/-! ## The room -/

/-- The events of a scancode. -/
def encodedFrame (protocol : RcProto) (scancode : ℕ) : List IrRawEvent :=
  match protocol with
  | .imon => (imonFront scancode).reverse
  | .jvc => pdFrame irJvcTimings JVC_NBITS (jvcRaw scancode)
  | .nec | .necx | .nec32 => pdFrame irNecTimings NEC_NBITS (irNecScancodeToRaw protocol scancode)
  | .rc5 | .rc5x20 | .rc5Sz => (rc5Frame protocol scancode).reverse
  | .rc6_0 => (manchester irRc6Timings₂ RC6_0_NBITS scancode (rc6Start (1 <<< 3))).reverse
  | .rc6_6a20 => (manchester irRc6Timings₂ 20 scancode (rc6Start (1 <<< 3 ||| 6))).reverse
  | .rc6_6a24 => (manchester irRc6Timings₂ 24 scancode (rc6Start (1 <<< 3 ||| 6))).reverse
  | .rc6_6a32 | .rc6Mce => (manchester irRc6Timings₂ 32 scancode (rc6Start (1 <<< 3 ||| 6))).reverse
  | .rcmm12 => rcmmFrame 6 scancode
  | .rcmm24 => rcmmFrame 12 scancode
  | .rcmm32 => rcmmFrame 16 scancode
  | .sanyo => pdFrame irSanyoTimings SANYO_NBITS (sanyoRaw scancode)
  | .sharp => pdFrame irSharpTimings SHARP_NBITS (sharpRaw scancode scancode <<< 2 ||| 2) ++
      pdFrame irSharpTimings SHARP_NBITS (sharpRaw scancode (scancode ^^^ 0xffffffff) <<< 2 ||| 1)
  | .sony12 | .sony15 | .sony20 =>
    plFrame irSonyTimings (sonyRaw protocol scancode).2 (sonyRaw protocol scancode).1
  | .mcir2Kbd | .mcir2Mse =>
    (manchester irMceKbdTimings (mceKbdRaw protocol scancode).2 (mceKbdRaw protocol scancode).1 []).reverse
  | _ => []

/-- An encoder keeps to the room it is given: it writes no event behind it, and returns the length of the
frame exactly if there is room for that. -/
def KeepsToRoom (e : Encoding) (max : ℕ) (frame : List IrRawEvent) : Prop :=
  e.written.length ≤ max ∧ e.ret = if frame.length ≤ max then .ok frame.length else .error .ENOBUFS

theorem keepsToRoom_of_fills {f : Fill} {max : ℕ} {ev : List IrRawEvent} (h : Fills f ⟨[], max⟩ ev) :
    KeepsToRoom (encodeWith f max) max ev.reverse := by
  obtain ⟨hfit, hfull⟩ := encodeWith_of_fills h
  unfold KeepsToRoom
  rw [List.length_reverse]
  rcases Nat.lt_or_ge max ev.length with hlt | hge
  · obtain ⟨hret, hlen⟩ := hfull hlt
    rw [if_neg (Nat.not_le.2 hlt)]
    exact ⟨hlen.le, hret⟩
  · rw [hfit hge, if_pos hge]
    exact ⟨by rwa [List.length_reverse], rfl⟩

theorem keepsToRoom_of_emits {f : Fill} {evs : List IrRawEvent} (h : Emits f evs) (max : ℕ) :
    KeepsToRoom (encodeWith f max) max evs := by
  have hkeeps := keepsToRoom_of_fills (h ⟨[], max⟩)
  rwa [List.append_nil, List.reverse_reverse] at hkeeps

theorem fills_rc6Frame (header bits scancode max : ℕ) :
    Fills (rc6FrameFill header bits scancode) ⟨[], max⟩
      (manchester irRc6Timings₂ bits scancode (rc6Start header)) :=
  (fills_manchester _ _ _ _).andThen fun max => (fills_manchester _ _ _ ⟨_, max⟩).andThen fun max =>
    fills_manchester _ _ _ ⟨_, max⟩

/-- **Sharp** forgets what the first frame has taken. -/
theorem keepsToRoom_sharp_iff (scancode max : ℕ) :
    KeepsToRoom (irSharpEncode scancode max) max (encodedFrame .sharp scancode) ↔ ¬(32 ≤ max ∧ max < 64) := by
  have hlength : ∀ raw, (pdFrame irSharpTimings SHARP_NBITS raw).length = 32 := fun raw => length_pdFrame _ _ _
  obtain ⟨hfit, hfull⟩ := thenAgain_of_emits
    (emits_pdFrame irSharpTimings SHARP_NBITS (sharpRaw scancode scancode <<< 2 ||| 2))
    (emits_pdFrame irSharpTimings SHARP_NBITS (sharpRaw scancode (scancode ^^^ 0xffffffff) <<< 2 ||| 1))
    ((hlength _).trans (hlength _).symm) max
  rw [List.length_append, hlength, hlength] at hfit
  rw [hlength] at hfull
  unfold KeepsToRoom irSharpEncode encodedFrame
  rw [List.length_append, hlength, hlength]
  rcases Nat.lt_or_ge max 32 with hlt | hge
  · obtain ⟨hret, hlen⟩ := hfull hlt
    rw [hret, hlen, if_neg (by omega)]
    exact iff_of_true ⟨Nat.le_refl _, rfl⟩ (by omega)
  · rw [hfit hge, List.length_append, hlength, hlength]
    by_cases h : 64 ≤ max
    · rw [if_pos h]
      exact iff_of_true ⟨h, rfl⟩ (by omega)
    · exact iff_of_false (fun hkeeps => h hkeeps.1) (by omega)

/-- **iMON** needs room for the spaces that it does not return. -/
theorem keepsToRoom_imon_iff (scancode max : ℕ) :
    KeepsToRoom (irImonEncode scancode max) max (encodedFrame .imon scancode) ↔
      ¬(scancode.testBit 0 = true ∧ max = (encodedFrame .imon scancode).length) := by
  obtain ⟨spaces, ⟨-, hfit, hfull⟩, hspaces⟩ := fills_imon scancode max
  rw [List.length_nil, Nat.zero_add] at hfit hfull
  have hlength : (encodedFrame .imon scancode).length = (imonFront scancode).length := List.length_reverse
  have hfails : max < (spaces ++ imonFront scancode).length →
      (irImonEncode scancode max).ret = .error .ENOBUFS ∧ (irImonEncode scancode max).written.length = max :=
    fun h => by
      obtain ⟨ev, hev, hlen⟩ := hfull h
      unfold irImonEncode
      rw [hev]
      exact ⟨rfl, List.length_reverse.trans hlen⟩
  have hwrites : (spaces ++ imonFront scancode).length ≤ max →
      (irImonEncode scancode max).ret = .ok (imonFront scancode).length ∧
        (irImonEncode scancode max).written.length = (spaces ++ imonFront scancode).length := fun h => by
    unfold irImonEncode
    rw [hfit h]
    refine ⟨congrArg Except.ok ?_, List.length_reverse⟩
    dsimp only
    rcases hspaces with ⟨rfl, -⟩ | ⟨e, he, rfl, -⟩
    · exact if_pos (lastPulse_imonFront scancode)
    · rw [List.singleton_append, lastPulse, he]
      exact if_neg Bool.false_ne_true
  unfold KeepsToRoom
  rw [hlength]
  rcases hspaces with ⟨rfl, hzero⟩ | ⟨e, -, rfl, hzero⟩
  · have hbit : scancode.testBit 0 = false := by
      rw [← hzero]
      exact testBit_trailingOnes (by rw [hzero]; exact (Nat.succ_ne_zero _).symm)
    rw [List.nil_append] at hfails hwrites
    refine iff_of_true ?_ (fun h => absurd (hbit.symm.trans h.1) Bool.false_ne_true)
    rcases Nat.lt_or_ge max (imonFront scancode).length with hlt | hge
    · obtain ⟨hret, hlen⟩ := hfails hlt
      rw [if_neg (Nat.not_le.2 hlt)]
      exact ⟨hlen.le, hret⟩
    · obtain ⟨hret, hlen⟩ := hwrites hge
      rw [if_pos hge]
      exact ⟨hlen.le.trans hge, hret⟩
  · have hbit : scancode.testBit 0 = true := testBit_of_lt_trailingOnes (Nat.pos_of_ne_zero hzero)
    rw [List.singleton_append, List.length_cons] at hfails hwrites
    rcases Nat.lt_or_ge max ((imonFront scancode).length + 1) with hlt | hge
    · obtain ⟨hret, hlen⟩ := hfails hlt
      rw [hret, hlen]
      by_cases hmax : max = (imonFront scancode).length
      · refine iff_of_false (fun h => ?_) fun h => h ⟨hbit, hmax⟩
        rw [if_pos hmax.ge] at h
        exact absurd h.2 (by simp)
      · rw [if_neg (by omega)]
        exact iff_of_true ⟨Nat.le_refl _, rfl⟩ fun h => hmax h.2
    · obtain ⟨hret, hlen⟩ := hwrites hge
      rw [hret, hlen, if_pos (by omega)]
      exact iff_of_true ⟨hge, rfl⟩ fun h => by omega

/-! ## Every encoder -/

/-- A return value that ends the search for a handler. -/
def Settles (e : Encoding) : Prop := (∃ n, e.ret = .ok n) ∨ e.ret = .error .ENOBUFS

theorem KeepsToRoom.settles {e : Encoding} {max : ℕ} {frame : List IrRawEvent} (h : KeepsToRoom e max frame) :
    Settles e := by
  have hret := h.2
  split_ifs at hret
  · exact Or.inl ⟨_, hret⟩
  · exact Or.inr hret

theorem settles_sharp (scancode max : ℕ) : Settles (irSharpEncode scancode max) := by
  obtain ⟨hfit, hfull⟩ := thenAgain_of_emits
    (emits_pdFrame irSharpTimings SHARP_NBITS (sharpRaw scancode scancode <<< 2 ||| 2))
    (emits_pdFrame irSharpTimings SHARP_NBITS (sharpRaw scancode (scancode ^^^ 0xffffffff) <<< 2 ||| 1))
    ((length_pdFrame _ _ _).trans (length_pdFrame _ _ _).symm) max
  rcases Nat.lt_or_ge max (pdFrame irSharpTimings SHARP_NBITS (sharpRaw scancode scancode <<< 2 ||| 2)).length
    with hlt | hge
  · exact Or.inr (hfull hlt).1
  · exact Or.inl ⟨_, congrArg Encoding.ret (hfit hge)⟩

theorem settles_imon (scancode max : ℕ) : Settles (irImonEncode scancode max) := by
  obtain ⟨spaces, ⟨-, hfit, hfull⟩, -⟩ := fills_imon scancode max
  unfold Settles irImonEncode
  rcases Nat.lt_or_ge (([] : List IrRawEvent).length + max) (spaces ++ imonFront scancode).length with hlt | hge
  · obtain ⟨ev, hev, -⟩ := hfull hlt
    rw [hev]
    exact Or.inr rfl
  · rw [hfit hge]
    exact Or.inl ⟨_, rfl⟩

/-- The inputs at which an encoder does not keep to its room. -/
def ExceedsRoom (protocol : RcProto) (scancode max : ℕ) : Prop :=
  protocol = .sharp ∧ 32 ≤ max ∧ max < 64 ∨
    protocol = .imon ∧ scancode.testBit 0 = true ∧ max = (encodedFrame .imon scancode).length

/-- What a handler does with a scancode of its protocol. -/
def HandlerSpec (protocol : RcProto) (scancode max : ℕ) (e : Encoding) : Prop :=
  Settles e ∧ (KeepsToRoom e max (encodedFrame protocol scancode) ↔ ¬ExceedsRoom protocol scancode max)

theorem handlerSpec_of_keeps {protocol : RcProto} (hsharp : protocol ≠ .sharp) (himon : protocol ≠ .imon)
    {scancode max : ℕ} {e : Encoding} (h : KeepsToRoom e max (encodedFrame protocol scancode)) :
    HandlerSpec protocol scancode max e :=
  ⟨h.settles, iff_of_true h (not_or.2 ⟨fun h' => hsharp h'.1, fun h' => himon h'.1⟩)⟩

theorem handlerSpec_of_fills {protocol : RcProto} (hsharp : protocol ≠ .sharp) (himon : protocol ≠ .imon)
    {scancode max : ℕ} {f : Fill} {ev : List IrRawEvent} (h : Fills f ⟨[], max⟩ ev)
    (hframe : encodedFrame protocol scancode = ev.reverse) : HandlerSpec protocol scancode max (encodeWith f max) :=
  handlerSpec_of_keeps hsharp himon (hframe ▸ keepsToRoom_of_fills h)

theorem handlerSpec_of_emits {protocol : RcProto} (hsharp : protocol ≠ .sharp) (himon : protocol ≠ .imon)
    {scancode max : ℕ} {f : Fill} (h : Emits f (encodedFrame protocol scancode)) :
    HandlerSpec protocol scancode max (encodeWith f max) :=
  handlerSpec_of_keeps hsharp himon (keepsToRoom_of_emits h max)

theorem handlerSpec_rc5 {protocol : RcProto} (h : Rc5Protocol protocol) (scancode max : ℕ) :
    HandlerSpec protocol scancode max (encodeFill (rc5Fill protocol scancode) max) := by
  rcases h with rfl | rfl | rfl
  · exact handlerSpec_of_fills RcProto.noConfusion RcProto.noConfusion (fills_manchester _ _ _ _) rfl
  · exact handlerSpec_of_fills RcProto.noConfusion RcProto.noConfusion
      ((fills_manchester _ _ _ _).andThen fun max => fills_manchester _ _ _ ⟨_, max⟩) rfl
  · exact handlerSpec_of_fills RcProto.noConfusion RcProto.noConfusion (fills_manchester _ _ _ _) rfl

/-- **Every handler** settles a scancode of its protocols, and where it keeps to its room. -/
theorem handlerSpec {handler : IrRawHandler} (hhandler : handler ∈ irRawHandlers) {protocol : RcProto}
    (hprotocol : protocol ∈ handler.protocols) (scancode max : ℕ) :
    ∃ encode, handler.encode = some encode ∧
      HandlerSpec protocol scancode max (encode protocol scancode max) := by
  unfold irRawHandlers at hhandler
  simp only [List.mem_cons, List.not_mem_nil, or_false] at hhandler
  rcases hhandler with rfl | rfl | rfl | rfl | rfl | rfl | rfl | rfl | rfl | rfl <;>
    refine ⟨_, rfl, ?_⟩ <;> simp only [List.mem_cons, List.not_mem_nil, or_false] at hprotocol
  · subst hprotocol
    refine ⟨settles_imon scancode max, (keepsToRoom_imon_iff scancode max).trans (not_congr ?_)⟩
    exact ⟨fun h => Or.inr ⟨rfl, h⟩, fun h => (h.resolve_left fun h => nomatch h.1).2⟩
  · subst hprotocol
    exact handlerSpec_of_emits RcProto.noConfusion RcProto.noConfusion (emits_pdFrame _ _ _)
  · rcases hprotocol with rfl | rfl <;>
      exact handlerSpec_of_fills RcProto.noConfusion RcProto.noConfusion (fills_manchester _ _ _ _) rfl
  · rcases hprotocol with rfl | rfl | rfl <;>
      exact handlerSpec_of_emits RcProto.noConfusion RcProto.noConfusion (emits_pdFrame _ _ _)
  · exact handlerSpec_rc5 hprotocol scancode max
  · rcases hprotocol with rfl | rfl | rfl | rfl | rfl <;>
      exact handlerSpec_of_fills RcProto.noConfusion RcProto.noConfusion (fills_rc6Frame _ _ _ _) rfl
  · rcases hprotocol with rfl | rfl | rfl <;>
      exact handlerSpec_of_emits RcProto.noConfusion RcProto.noConfusion (emits_rcmmFrame _ _)
  · subst hprotocol
    exact handlerSpec_of_emits RcProto.noConfusion RcProto.noConfusion (emits_pdFrame _ _ _)
  · subst hprotocol
    refine ⟨settles_sharp scancode max, (keepsToRoom_sharp_iff scancode max).trans (not_congr ?_)⟩
    exact ⟨fun h => Or.inl ⟨rfl, h⟩, fun h => (h.resolve_right fun h => nomatch h.1).2⟩
  · rcases hprotocol with rfl | rfl | rfl <;>
      exact handlerSpec_of_emits RcProto.noConfusion RcProto.noConfusion (emits_plFrame _ _ _)

/-- The loop ends at the first handler of the protocol. -/
theorem encodeLoop_spec {handlers : List IrRawHandler}
    (hknown : ∀ handler ∈ handlers, handler.encode = none ∨ handler ∈ irRawHandlers) {protocol : RcProto}
    (hprotocol : ∃ handler ∈ handlers, handler ∈ irRawHandlers ∧ protocol ∈ handler.protocols)
    (scancode max : ℕ) (last : Encoding) :
    HandlerSpec protocol scancode max (encodeLoop protocol scancode max handlers last) := by
  induction handlers with
  | nil =>
    obtain ⟨_, hmem, -⟩ := hprotocol
    exact absurd hmem List.not_mem_nil
  | cons handler handlers ih =>
    obtain ⟨hhandler, hhandlers⟩ := List.forall_mem_cons.1 hknown
    by_cases h : handler ∈ irRawHandlers ∧ protocol ∈ handler.protocols
    · obtain ⟨encode, hencode, hspec⟩ := handlerSpec h.1 h.2 scancode max
      have hloop : encodeLoop protocol scancode max (handler :: handlers) last =
          encode protocol scancode max := by
        rw [encodeLoop, hencode]
        dsimp only
        rw [if_pos h.2]
        rcases hspec.1 with ⟨n, hret⟩ | hret <;> rw [hret]
      rw [hloop]
      exact hspec
    · have hrest : ∃ handler ∈ handlers, handler ∈ irRawHandlers ∧ protocol ∈ handler.protocols := by
        obtain ⟨handler', hmem, hhandler'⟩ := hprotocol
        rcases List.mem_cons.1 hmem with rfl | hmem
        · exact absurd hhandler' h
        · exact ⟨handler', hmem, hhandler'⟩
      have hloop : encodeLoop protocol scancode max (handler :: handlers) last =
          encodeLoop protocol scancode max handlers last := by
        rw [encodeLoop]
        rcases hhandler with hnone | hmem
        · rw [hnone]
        · have hnot : protocol ∉ handler.protocols := fun hp => h ⟨hmem, hp⟩
          rcases handler.encode with _ | encode
          · rfl
          · exact if_neg hnot
      rw [hloop]
      exact ih hhandlers hrest

/-- **When encoding keeps to the room**: whatever the order in which the handlers have been registered,
exactly where the echo of Sharp does not fit behind its message, and where iMON returns all but the spaces it
has no room for, it does not. -/
theorem keepsToRoom_iff {handlers : List IrRawHandler}
    (hknown : ∀ handler ∈ handlers, handler.encode = none ∨ handler ∈ irRawHandlers) {protocol : RcProto}
    (hprotocol : ∃ handler ∈ handlers, handler ∈ irRawHandlers ∧ protocol ∈ handler.protocols)
    (scancode max : ℕ) :
    KeepsToRoom (irRawEncodeScancode handlers protocol scancode max) max (encodedFrame protocol scancode) ↔
      ¬ExceedsRoom protocol scancode max :=
  (encodeLoop_spec hknown hprotocol scancode max _).2

/-- A frame of Sharp in an array that it just fills. -/
theorem keepsToRoom_iff_sharp :
    KeepsToRoom (irRawEncodeScancode irRawHandlers .sharp 0x1a5 64) 64 (encodedFrame .sharp 0x1a5) :=
  (keepsToRoom_iff (fun _ h => Or.inr h)
    ⟨⟨[.sharp], some fun _ => irSharpEncode⟩, by simp [irRawHandlers], by simp [irRawHandlers], by simp⟩
    0x1a5 64).2 (by
      rintro (⟨-, h⟩ | ⟨h, -⟩)
      · exact absurd h.2 (by decide)
      · exact nomatch h)

/-- Sharp writes behind an array that has room for the message and not for its echo. -/
theorem not_keepsToRoom_sharp :
    ¬KeepsToRoom (irRawEncodeScancode irRawHandlers .sharp 0x1a5 40) 40 (encodedFrame .sharp 0x1a5) ∧
      (irRawEncodeScancode irRawHandlers .sharp 0x1a5 40).written.length = 64 := by
  have hwritten : (irRawEncodeScancode irRawHandlers .sharp 0x1a5 40).written.length = 64 := by decide +kernel
  refine ⟨fun hkeeps => ?_, hwritten⟩
  have hle := hkeeps.1
  rw [hwritten] at hle
  exact absurd hle (by decide)

end Rc
end TbsMedia
