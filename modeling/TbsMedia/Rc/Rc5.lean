import TbsMedia.Lib.BitFields
import TbsMedia.Rc.Manchester

/-!
# RC-5

The decoder takes a signal of half bits and reports a scancode behind the trailer.  The three variants
differ in the number of bits, and RC5X has a gap behind the first eight of them.

The first half of a bit comes in one event with the second half of the bit in front of it where both are of one
kind, so the decoder is either in front of a bit or about to take such an event (`Rc5Open`, `Rc5Pending`).
`rc5Demodulator` says what a bit does in each case; `Manchester` makes a frame of it.

* `irRc5Decode`, `irRc5Encode`: the two halves of `ir-rc5-decoder.c`.
* `rc5Demodulator`: how the decoder takes the bits of a frame.
* `irRc5Decode_irRc5Encode`: what is encoded is decoded.
-/

namespace TbsMedia
namespace Rc

open Lib

def RC5_NBITS : ℕ := 14
def RC5_SZ_NBITS : ℕ := 15
def RC5X_NBITS : ℕ := 20
def CHECK_RC5X_NBITS : ℕ := 8
def RC5_UNIT : ℕ := 888888
def RC5_BIT_START : ℕ := 1 * RC5_UNIT
def RC5_BIT_END : ℕ := 1 * RC5_UNIT
def RC5X_SPACE : ℕ := 4 * RC5_UNIT
def RC5_TRAILER : ℕ := 6 * RC5_UNIT

/-! ## The decoder -/

/-- `enum rc5_state`. -/
inductive Rc5State where
  | inactive | bitStart | bitEnd | checkRc5x | finished
  deriving DecidableEq, Repr

/-- `struct rc5_dec`. -/
structure Rc5Dec where
  state : Rc5State
  bits : ℕ
  count : ℕ
  isRc5x : Bool
  deriving DecidableEq, Repr

/-- What a decoder does with an event. -/
abbrev Rc5Result := Rc5Dec × Except Errno (Option Keydown)

/-- The label `out`. -/
def rc5Out (data : Rc5Dec) : Rc5Result := ({ data with state := .inactive }, .error .EINVAL)

/-- A jump to the label `again`, with the case that the new state selects.  No chain of jumps comes
back to a state. -/
def rc5Again (case : Rc5Dec → IrRawEvent → Rc5Result) (data : Rc5Dec) (ev : IrRawEvent) : Rc5Result :=
  if geqMargin ev.duration RC5_UNIT (RC5_UNIT / 2) then case data ev else (data, .ok none)

/-- A report, unless the protocol is switched off. -/
def rc5Report (enabled : RcProto → Bool) (data : Rc5Dec) (protocol : RcProto)
    (scancode toggle : ℕ) : Rc5Result :=
  if enabled protocol then
    ({ data with state := .inactive }, .ok (some ⟨protocol, scancode, toggle⟩))
  else ({ data with state := .inactive }, .ok none)

/-- `STATE_FINISHED`. -/
def rc5Finished (enabled : RcProto → Bool) (data : Rc5Dec) (ev : IrRawEvent) : Rc5Result :=
  if ev.pulse then rc5Out data
  else if data.isRc5x ∧ data.count = RC5X_NBITS then
    let xdata := (data.bits &&& 0x0003F) >>> 0
    let command := (data.bits &&& 0x00FC0) >>> 6
    let system := (data.bits &&& 0x1F000) >>> 12
    let toggle := if data.bits &&& 0x20000 ≠ 0 then 1 else 0
    let command := (command + if data.bits &&& 0x40000 ≠ 0 then 0 else 0x40) % 2 ^ 8
    rc5Report enabled data .rc5x20 (system <<< 16 ||| command <<< 8 ||| xdata) toggle
  else if ¬ data.isRc5x ∧ data.count = RC5_NBITS then
    let command := (data.bits &&& 0x0003F) >>> 0
    let system := (data.bits &&& 0x007C0) >>> 6
    let toggle := if data.bits &&& 0x00800 ≠ 0 then 1 else 0
    let command := (command + if data.bits &&& 0x01000 ≠ 0 then 0 else 0x40) % 2 ^ 8
    rc5Report enabled data .rc5 (system <<< 8 ||| command) toggle
  else if ¬ data.isRc5x ∧ data.count = RC5_SZ_NBITS then
    let command := (data.bits &&& 0x0003F) >>> 0
    let system := (data.bits &&& 0x02FC0) >>> 6
    let toggle := if data.bits &&& 0x01000 ≠ 0 then 1 else 0
    rc5Report enabled data .rc5Sz (system <<< 6 ||| command) toggle
  else rc5Out data

/-- `data->bits` with one more bit. -/
def rc5Shift (bits : ℕ) (pulse : Bool) : ℕ :=
  if pulse then (bits <<< 1) % 2 ^ 32 else (bits <<< 1) % 2 ^ 32 ||| 1

/-- `STATE_BIT_START`. -/
def rc5BitStart (enabled : RcProto → Bool) (data : Rc5Dec) (ev : IrRawEvent) : Rc5Result :=
  if ev.pulse = false ∧ geqMargin ev.duration RC5_TRAILER (RC5_UNIT / 2) then
    rc5Again (rc5Finished enabled) { data with state := .finished } ev
  else if ¬ eqMargin ev.duration RC5_BIT_START (RC5_UNIT / 2) then rc5Out data
  else
    ({ data with
      bits := rc5Shift data.bits ev.pulse
      count := data.count + 1
      state := .bitEnd }, .ok none)

/-- `STATE_CHECK_RC5X`. -/
def rc5CheckRc5x (enabled : RcProto → Bool) (data : Rc5Dec) (ev : IrRawEvent) : Rc5Result :=
  if ev.pulse = false ∧ geqMargin ev.duration RC5X_SPACE (RC5_UNIT / 2) then
    rc5Again (rc5BitStart enabled) { data with isRc5x := true, state := .bitStart }
      (decreaseDuration ev RC5X_SPACE)
  else rc5Again (rc5BitStart enabled) { data with isRc5x := false, state := .bitStart } ev

/-- `STATE_BIT_END`. -/
def rc5BitEnd (enabled : RcProto → Bool) (data : Rc5Dec) (ev : IrRawEvent) : Rc5Result :=
  if data.count = CHECK_RC5X_NBITS then
    rc5Again (rc5CheckRc5x enabled) { data with state := .checkRc5x }
      (decreaseDuration ev RC5_BIT_END)
  else
    rc5Again (rc5BitStart enabled) { data with state := .bitStart } (decreaseDuration ev RC5_BIT_END)

/-- `STATE_INACTIVE`. -/
def rc5Inactive (enabled : RcProto → Bool) (data : Rc5Dec) (ev : IrRawEvent) : Rc5Result :=
  if ev.pulse = false then rc5Out data
  else
    rc5Again (rc5BitStart enabled) { data with state := .bitStart, count := 1 }
      (decreaseDuration ev RC5_BIT_START)

/-- The `switch` over the state. -/
def rc5Switch (enabled : RcProto → Bool) (data : Rc5Dec) (ev : IrRawEvent) : Rc5Result :=
  match data.state with
  | .inactive => rc5Inactive enabled data ev
  | .bitStart => rc5BitStart enabled data ev
  | .bitEnd => rc5BitEnd enabled data ev
  | .checkRc5x => rc5CheckRc5x enabled data ev
  | .finished => rc5Finished enabled data ev

/-- `ir_rc5_decode`. -/
def irRc5Decode (enabled : RcProto → Bool) (data : Rc5Dec) (ev : IrRawEvent) : Rc5Result :=
  if isTimingEvent ev = false then
    (if ev.reset then { data with state := .inactive } else data, .ok none)
  else if ¬ geqMargin ev.duration RC5_UNIT (RC5_UNIT / 2) then rc5Out data
  else rc5Switch enabled data ev

/-! ## The encoder -/

/-- `ir_rc5_timings`. -/
def irRc5Timings : Timings where
  leaderPulse := RC5_UNIT
  clock := RC5_UNIT
  trailerSpace := RC5_UNIT * 10

/-- `ir_rc5x_timings[0]`. -/
def irRc5xTimings₀ : Timings where
  leaderPulse := RC5_UNIT
  clock := RC5_UNIT
  trailerSpace := RC5X_SPACE

/-- `ir_rc5x_timings[1]`. -/
def irRc5xTimings₁ : Timings where
  clock := RC5_UNIT
  trailerSpace := RC5_UNIT * 10

/-- `ir_rc5_sz_timings`. -/
def irRc5SzTimings : Timings where
  leaderPulse := RC5_UNIT
  clock := RC5_UNIT
  trailerSpace := RC5_UNIT * 10

/-- The data of a frame. -/
def rc5Data (protocol : RcProto) (scancode : ℕ) : ℕ :=
  match protocol with
  | .rc5 =>
    let command := (scancode &&& 0x003f) >>> 0
    let commandx := (scancode &&& 0x0040) >>> 6
    let system := (scancode &&& 0x1f00) >>> 8
    (if commandx = 0 then 1 else 0) <<< 12 ||| system <<< 6 ||| command
  | .rc5x20 =>
    let xdata := (scancode &&& 0x00003f) >>> 0
    let command := (scancode &&& 0x003f00) >>> 8
    let commandx := if scancode &&& 0x004000 = 0 then 1 else 0
    let system := (scancode &&& 0x1f0000) >>> 16
    commandx <<< 18 ||| system <<< 12 ||| command <<< 6 ||| xdata
  | _ => scancode &&& 0x2fff

/-- `ir_rc5_encode`. -/
def irRc5Encode (protocol : RcProto) (scancode max : ℕ) : Except Errno (List IrRawEvent) :=
  match protocol with
  | .rc5 =>
    (irRawGenManchester ⟨[], max⟩ irRc5Timings (RC5_NBITS - 1) (rc5Data .rc5 scancode)).map
      fun s => s.ev.reverse
  | .rc5x20 =>
    let data := rc5Data .rc5x20 scancode
    (irRawGenManchester ⟨[], max⟩ irRc5xTimings₀ (CHECK_RC5X_NBITS - 1)
        (data >>> (RC5X_NBITS - CHECK_RC5X_NBITS)) >>= fun s =>
      irRawGenManchester s irRc5xTimings₁ (RC5X_NBITS - CHECK_RC5X_NBITS) data).map
      fun s => s.ev.reverse
  | .rc5Sz =>
    (irRawGenManchester ⟨[], max⟩ irRc5SzTimings (RC5_SZ_NBITS - 1) (rc5Data .rc5Sz scancode)).map
      fun s => s.ev.reverse
  | _ => .error .EINVAL

/-! ## Taking a bit -/

variable {enabled : RcProto → Bool}

/-- The decoder in front of a bit; `x` is that the frame has the gap of RC5X. -/
inductive Rc5Open (x : Bool) : ℕ → ℕ → Rc5Dec → Prop
  | bitStart (m bits : ℕ) (isRc5x : Bool) (hgap : x = true → 7 ≤ m) (hx : 7 ≤ m → isRc5x = x) :
    Rc5Open x m (bits % 2 ^ m) ⟨.bitStart, bits, m + 1, isRc5x⟩
  | checkRc5x (bits : ℕ) (isRc5x : Bool) (hx : x = false) :
    Rc5Open x 7 (bits % 2 ^ 7) ⟨.checkRc5x, bits, 8, isRc5x⟩

/-- The decoder in front of the second half of a bit, of the leader or of the gap. -/
inductive Rc5Pending (x : Bool) : IrRawEvent → ℕ → ℕ → Rc5Dec → Prop
  | bitEnd (pulse : Bool) (m bits : ℕ) (isRc5x : Bool) (hgap : x = true → 7 < m)
      (hx : 7 < m → isRc5x = x) :
    Rc5Pending x (initIrRawEventDuration pulse RC5_UNIT) m (bits % 2 ^ m)
      ⟨.bitEnd, bits, m + 1, isRc5x⟩
  | leader (bits count : ℕ) (isRc5x : Bool) (hx : x = false) :
    Rc5Pending x (initIrRawEventDuration true RC5_UNIT) 0 0 ⟨.inactive, bits, count, isRc5x⟩
  | gap (bits : ℕ) (isRc5x : Bool) (hx : x = true) :
    Rc5Pending x (initIrRawEventDuration false RC5X_SPACE) 7 (bits % 2 ^ 7)
      ⟨.checkRc5x, bits, 8, isRc5x⟩
  | prolongedGap (bits : ℕ) (isRc5x : Bool) (hx : x = true) :
    Rc5Pending x (initIrRawEventDuration false (RC5_UNIT + RC5X_SPACE)) 7 (bits % 2 ^ 7)
      ⟨.bitEnd, bits, 8, isRc5x⟩

theorem rc5Shift_mod (bits : ℕ) (pulse : Bool) {m : ℕ} (hm : m < 32) :
    rc5Shift bits pulse % 2 ^ (m + 1) = 2 * (bits % 2 ^ m) + (!pulse).toNat := by
  have hshift : rc5Shift bits pulse = 2 * (bits % 2 ^ 31) + (!pulse).toNat := by
    unfold rc5Shift
    rw [shiftLeft_one_mod, two_mul_lor_one]
    cases pulse <;> rfl
  have hdvd : 2 ^ m ∣ 2 ^ 31 := Nat.pow_dvd_pow 2 (by omega)
  rw [hshift, two_mul_add_mod, Nat.mod_mod_of_dvd bits hdvd]

theorem rc5Pending_single {x : Bool} {m bits : ℕ} (isRc5x : Bool) (hm : m < 30)
    (hgap : x = true → 7 ≤ m) (hx : 7 ≤ m → isRc5x = x) (pulse : Bool) :
    Rc5Pending x (initIrRawEventDuration (!pulse) RC5_UNIT) (m + 1)
      (2 * (bits % 2 ^ m) + (!pulse).toNat) ⟨.bitEnd, rc5Shift bits pulse, m + 1 + 1, isRc5x⟩ := by
  rw [← rc5Shift_mod bits pulse (by omega)]
  exact .bitEnd _ (m + 1) _ isRc5x (fun h => Nat.lt_succ_of_le (hgap h))
    fun h => hx (Nat.le_of_lt_succ h)

/-! ## Single steps -/

/-- An event of a unit or more goes to the `switch`. -/
theorem irRc5Decode_add (data : Rc5Dec) (pulse : Bool) (d : ℕ) :
    irRc5Decode enabled data (initIrRawEventDuration pulse (RC5_UNIT + d)) =
      rc5Switch enabled data (initIrRawEventDuration pulse (RC5_UNIT + d)) := by
  have hunit : geqMargin (RC5_UNIT + d) RC5_UNIT (RC5_UNIT / 2) := by
    unfold geqMargin RC5_UNIT
    omega
  unfold irRc5Decode
  rw [if_neg (isTimingEvent_init pulse _)]
  exact if_neg (not_not.mpr hunit)

theorem rc5Again_add (case : Rc5Dec → IrRawEvent → Rc5Result) (data : Rc5Dec) (pulse : Bool) (d : ℕ) :
    rc5Again case data (initIrRawEventDuration pulse (RC5_UNIT + d)) =
      case data (initIrRawEventDuration pulse (RC5_UNIT + d)) := by
  have hunit : geqMargin (RC5_UNIT + d) RC5_UNIT (RC5_UNIT / 2) := by
    unfold geqMargin RC5_UNIT
    omega
  exact if_pos hunit

theorem irRc5Decode_gap (data : Rc5Dec) (d : ℕ) :
    irRc5Decode enabled data (initIrRawEventDuration false (RC5X_SPACE + d)) =
      rc5Switch enabled data (initIrRawEventDuration false (RC5X_SPACE + d)) := by
  have hspace : RC5X_SPACE + d = RC5_UNIT + (3 * RC5_UNIT + d) := by
    unfold RC5X_SPACE RC5_UNIT
    omega
  rw [hspace]
  exact irRc5Decode_add data false _

theorem rc5Again_gap (case : Rc5Dec → IrRawEvent → Rc5Result) (data : Rc5Dec) (d : ℕ) :
    rc5Again case data (initIrRawEventDuration false (RC5X_SPACE + d)) =
      case data (initIrRawEventDuration false (RC5X_SPACE + d)) := by
  have hspace : RC5X_SPACE + d = RC5_UNIT + (3 * RC5_UNIT + d) := by
    unfold RC5X_SPACE RC5_UNIT
    omega
  rw [hspace]
  exact rc5Again_add case data false _

theorem rc5Again_zero (case : Rc5Dec → IrRawEvent → Rc5Result) (data : Rc5Dec) (pulse : Bool) :
    rc5Again case data (initIrRawEventDuration pulse 0) = (data, .ok none) := by
  have hunit : ¬ geqMargin 0 RC5_UNIT (RC5_UNIT / 2) := by decide
  exact if_neg hunit

/-- A half bit in front of a bit. -/
theorem rc5BitStart_unit (data : Rc5Dec) (pulse : Bool) :
    rc5BitStart enabled data (initIrRawEventDuration pulse RC5_UNIT) =
      (⟨.bitEnd, rc5Shift data.bits pulse, data.count + 1, data.isRc5x⟩, .ok none) := by
  have htrailer : ¬ geqMargin RC5_UNIT RC5_TRAILER (RC5_UNIT / 2) := by decide
  have hunit : eqMargin RC5_UNIT RC5_BIT_START (RC5_UNIT / 2) := by decide
  unfold rc5BitStart
  rw [if_neg fun h => htrailer h.2]
  exact if_neg (not_not.mpr hunit)

/-- The trailer in front of a bit. -/
theorem rc5BitStart_trailer (data : Rc5Dec) :
    rc5BitStart enabled data (initIrRawEventDuration false (RC5_UNIT + RC5_UNIT * 9)) =
      rc5Finished enabled { data with state := .finished }
        (initIrRawEventDuration false (RC5_UNIT + RC5_UNIT * 9)) := by
  have htrailer : geqMargin (RC5_UNIT + RC5_UNIT * 9) RC5_TRAILER (RC5_UNIT / 2) := by decide
  unfold rc5BitStart
  rw [if_pos ⟨rfl, htrailer⟩, rc5Again_add]

/-- The check for the gap, with a half bit. -/
theorem rc5CheckRc5x_unit (data : Rc5Dec) (pulse : Bool) :
    rc5CheckRc5x enabled data (initIrRawEventDuration pulse (RC5_UNIT + 0)) =
      (⟨.bitEnd, rc5Shift data.bits pulse, data.count + 1, false⟩, .ok none) := by
  have hspace : ¬ geqMargin (RC5_UNIT + 0) RC5X_SPACE (RC5_UNIT / 2) := by decide
  unfold rc5CheckRc5x
  rw [if_neg fun h => hspace h.2, rc5Again_add]
  exact rc5BitStart_unit _ pulse

/-- The check for the gap, with the gap. -/
theorem rc5CheckRc5x_gap (data : Rc5Dec) (d : ℕ) :
    rc5CheckRc5x enabled data (initIrRawEventDuration false (RC5X_SPACE + d)) =
      rc5Again (rc5BitStart enabled) { data with isRc5x := true, state := .bitStart }
        (initIrRawEventDuration false d) := by
  have hspace : geqMargin (RC5X_SPACE + d) RC5X_SPACE (RC5_UNIT / 2) := by
    unfold geqMargin RC5X_SPACE RC5_UNIT
    omega
  unfold rc5CheckRc5x
  rw [if_pos ⟨rfl, hspace⟩, decreaseDuration_add]

/-- The second half of a bit. -/
theorem rc5BitEnd_add {data : Rc5Dec} (h : data.count ≠ CHECK_RC5X_NBITS) (pulse : Bool) (d : ℕ) :
    rc5BitEnd enabled data (initIrRawEventDuration pulse (RC5_UNIT + d)) =
      rc5Again (rc5BitStart enabled) { data with state := .bitStart }
        (initIrRawEventDuration pulse d) := by
  unfold rc5BitEnd RC5_BIT_END
  rw [if_neg h, Nat.one_mul, decreaseDuration_add]

/-- The second half of the eighth bit. -/
theorem rc5BitEnd_check {data : Rc5Dec} (h : data.count = CHECK_RC5X_NBITS) (pulse : Bool) (d : ℕ) :
    rc5BitEnd enabled data (initIrRawEventDuration pulse (RC5_UNIT + d)) =
      rc5Again (rc5CheckRc5x enabled) { data with state := .checkRc5x }
        (initIrRawEventDuration pulse d) := by
  unfold rc5BitEnd RC5_BIT_END
  rw [if_pos h, Nat.one_mul, decreaseDuration_add]

theorem rc5Inactive_add (data : Rc5Dec) (d : ℕ) :
    rc5Inactive enabled data (initIrRawEventDuration true (RC5_UNIT + d)) =
      rc5Again (rc5BitStart enabled) { data with state := .bitStart, count := 1 }
        (initIrRawEventDuration true d) := by
  unfold rc5Inactive RC5_BIT_START
  rw [if_neg Bool.noConfusion, Nat.one_mul, decreaseDuration_add]

theorem count_ne_check {m : ℕ} (h : m ≠ 7) : m + 1 ≠ CHECK_RC5X_NBITS := by
  unfold CHECK_RC5X_NBITS
  omega

/-- How the decoder takes the bits of a frame. -/
def rc5Demodulator (enabled : RcProto → Bool) (x : Bool) :
    Demodulator (irRc5Decode enabled) RC5_UNIT 30 (fun pulse => (!pulse).toNat) where
  Open := Rc5Open x
  Pending := Rc5Pending x
  close := by
    rintro ev m v data - (⟨pulse, m, bits, isRc5x, hgap, hx⟩ | ⟨bits, count, isRc5x, hx⟩ |
      ⟨bits, isRc5x, hx⟩ | ⟨bits, isRc5x, hx⟩)
    · by_cases h7 : m = 7
      · subst h7
        refine ⟨⟨.checkRc5x, bits, 8, isRc5x⟩, ?_, .checkRc5x bits isRc5x ?_⟩
        · exact (irRc5Decode_add _ pulse 0).trans
            ((rc5BitEnd_check rfl pulse 0).trans (rc5Again_zero _ _ pulse))
        · exact Bool.eq_false_iff.mpr fun h => absurd (hgap h) (by decide)
      · refine ⟨⟨.bitStart, bits, m + 1, isRc5x⟩, ?_,
          .bitStart m bits isRc5x (fun h => (hgap h).le) fun h => hx (by omega)⟩
        exact (irRc5Decode_add _ pulse 0).trans
          ((rc5BitEnd_add (count_ne_check h7) pulse 0).trans (rc5Again_zero _ _ pulse))
    · refine ⟨⟨.bitStart, bits, 1, isRc5x⟩, ?_, ?_⟩
      · exact (irRc5Decode_add _ true 0).trans
          ((rc5Inactive_add _ 0).trans (rc5Again_zero _ _ true))
      · have hopen : Rc5Open x 0 (bits % 2 ^ 0) ⟨.bitStart, bits, 0 + 1, isRc5x⟩ :=
          .bitStart 0 bits isRc5x (fun h => (nomatch hx.symm.trans h)) fun h => absurd h (by decide)
        rw [pow_zero, Nat.mod_one] at hopen
        exact hopen
    · refine ⟨⟨.bitStart, bits, 8, true⟩, ?_,
        .bitStart 7 bits true (fun _ => Nat.le_refl 7) fun _ => hx.symm⟩
      exact (irRc5Decode_gap _ 0).trans ((rc5CheckRc5x_gap _ 0).trans (rc5Again_zero _ _ false))
    · refine ⟨⟨.bitStart, bits, 8, true⟩, ?_,
        .bitStart 7 bits true (fun _ => Nat.le_refl 7) fun _ => hx.symm⟩
      rw [irRc5Decode_add]
      refine (rc5BitEnd_check rfl false RC5X_SPACE).trans ?_
      exact (rc5Again_gap _ _ 0).trans ((rc5CheckRc5x_gap _ 0).trans (rc5Again_zero _ _ false))
  single := by
    rintro pulse m v data hm (⟨m, bits, isRc5x, hgap, hx⟩ | ⟨bits, isRc5x, hx⟩)
    · refine ⟨_, ?_, rc5Pending_single isRc5x hm hgap hx pulse⟩
      exact (irRc5Decode_add _ pulse 0).trans (rc5BitStart_unit _ pulse)
    · refine ⟨_, ?_, rc5Pending_single false hm (fun _ => Nat.le_refl 7) (fun _ => hx.symm) pulse⟩
      exact (irRc5Decode_add _ pulse 0).trans (rc5CheckRc5x_unit _ pulse)
  merged := by
    rintro ev m v data hm (⟨pulse, m, bits, isRc5x, hgap, hx⟩ | ⟨bits, count, isRc5x, hx⟩ |
      ⟨bits, isRc5x, hx⟩ | ⟨bits, isRc5x, hx⟩)
    · by_cases h7 : m = 7
      · subst h7
        have hx' : x = false := Bool.eq_false_iff.mpr fun h => absurd (hgap h) (by decide)
        refine ⟨⟨.bitEnd, rc5Shift bits pulse, 9, false⟩, ?_,
          rc5Pending_single false hm (fun _ => Nat.le_refl 7) (fun _ => hx'.symm) pulse⟩
        refine (irRc5Decode_add _ pulse RC5_UNIT).trans ((rc5BitEnd_check rfl pulse RC5_UNIT).trans ?_)
        exact (rc5Again_add _ _ pulse 0).trans (rc5CheckRc5x_unit _ pulse)
      · refine ⟨_, ?_, rc5Pending_single isRc5x hm (fun h => (hgap h).le) (fun h => hx (by omega)) pulse⟩
        refine (irRc5Decode_add _ pulse RC5_UNIT).trans
          ((rc5BitEnd_add (count_ne_check h7) pulse RC5_UNIT).trans ?_)
        exact (rc5Again_add _ _ pulse 0).trans (rc5BitStart_unit _ pulse)
    · refine ⟨⟨.bitEnd, rc5Shift bits true, 2, isRc5x⟩, ?_, ?_⟩
      · refine (irRc5Decode_add _ true RC5_UNIT).trans ((rc5Inactive_add _ RC5_UNIT).trans ?_)
        exact (rc5Again_add _ _ true 0).trans (rc5BitStart_unit _ true)
      · have hpending := @rc5Pending_single x 0 bits isRc5x hm
          (fun h => (nomatch hx.symm.trans h)) (fun h => absurd h (by decide)) true
        rw [pow_zero, Nat.mod_one] at hpending
        exact hpending
    · refine ⟨⟨.bitEnd, rc5Shift bits false, 9, true⟩, ?_,
        rc5Pending_single true hm (fun _ => Nat.le_refl 7) (fun _ => hx.symm) false⟩
      refine (irRc5Decode_gap _ RC5_UNIT).trans ((rc5CheckRc5x_gap _ RC5_UNIT).trans ?_)
      exact (rc5Again_add _ _ false 0).trans (rc5BitStart_unit _ false)
    · refine ⟨⟨.bitEnd, rc5Shift bits false, 9, true⟩, ?_,
        rc5Pending_single true hm (fun _ => Nat.le_refl 7) (fun _ => hx.symm) false⟩
      change irRc5Decode enabled _ (initIrRawEventDuration false (RC5_UNIT + RC5X_SPACE + RC5_UNIT)) = _
      rw [Nat.add_assoc, irRc5Decode_add]
      refine (rc5BitEnd_check rfl false (RC5X_SPACE + RC5_UNIT)).trans ?_
      refine (rc5Again_gap _ _ RC5_UNIT).trans ((rc5CheckRc5x_gap _ RC5_UNIT).trans ?_)
      exact (rc5Again_add _ _ false 0).trans (rc5BitStart_unit _ false)

/-! ## The end of a frame -/

/-- `STATE_FINISHED` on the bits of a frame of `m + 1` bits reports `k`. -/
def Rc5Reports (enabled : RcProto → Bool) (x : Bool) (m v : ℕ) (k : Keydown) : Prop :=
  ∀ bits, bits % 2 ^ m = v → ∀ ev : IrRawEvent, ev.pulse = false →
    rc5Finished enabled ⟨.finished, bits, m + 1, x⟩ ev =
      (⟨.inactive, bits, m + 1, x⟩, .ok (some k))

theorem irRc5Decode_space_inactive (bits count : ℕ) (isRc5x : Bool) (gap : ℕ) :
    irRc5Decode enabled ⟨.inactive, bits, count, isRc5x⟩ (initIrRawEventDuration false gap) =
      (⟨.inactive, bits, count, isRc5x⟩, .error .EINVAL) := by
  unfold irRc5Decode
  rw [if_neg (isTimingEvent_init false gap)]
  split_ifs <;> rfl

/-- The trailer, with the second half of the last bit in front of it or in it. -/
theorem irRc5Decode_trailer {x : Bool} {m bits : ℕ} {k : Keydown} (hm : 7 < m)
    (hreports : Rc5Reports enabled x m (bits % 2 ^ m) k) :
    irRc5Decode enabled ⟨.bitStart, bits, m + 1, x⟩
          (initIrRawEventDuration false (RC5_UNIT + RC5_UNIT * 9)) =
        (⟨.inactive, bits, m + 1, x⟩, .ok (some k)) ∧
      irRc5Decode enabled ⟨.bitEnd, bits, m + 1, x⟩
          (initIrRawEventDuration false (RC5_UNIT + (RC5_UNIT + RC5_UNIT * 9))) =
        (⟨.inactive, bits, m + 1, x⟩, .ok (some k)) := by
  have hstart := (rc5BitStart_trailer ⟨.bitStart, bits, m + 1, x⟩).trans (hreports bits rfl _ rfl)
  constructor
  · exact (irRc5Decode_add _ false _).trans hstart
  · refine (irRc5Decode_add _ false _).trans ((rc5BitEnd_add (count_ne_check hm.ne') false _).trans ?_)
    exact (rc5Again_add _ _ false _).trans hstart

/-- Behind the trailer the frame is reported, and the space that follows is none. -/
theorem decodeAll_rc5Trailer {timings : Timings} (htrailer : timings.trailerSpace = RC5_UNIT * 10)
    {x : Bool} {m v : ℕ} {data₀ data : Rc5Dec} {ev : IrRawEvent} {evs : List IrRawEvent} {k : Keydown}
    (htaken : Taken (irRc5Decode enabled) data₀ evs data) (hpending : Rc5Pending x ev m v data)
    (hm : 7 < m) (hreports : Rc5Reports enabled x m v k) (gap : ℕ) :
    (decodeAll (irRc5Decode enabled) data₀
      ((codeTrailer timings (ev :: evs)).reverse ++ [initIrRawEventDuration false gap])).2 = [k] := by
  have hne : timings.trailerSpace ≠ 0 := by
    rw [htrailer]
    decide
  have hspace : RC5_UNIT * 10 = RC5_UNIT + RC5_UNIT * 9 := rfl
  unfold codeTrailer
  rw [if_pos hne, htrailer, hspace]
  obtain ⟨pulse, m, bits, isRc5x, hgap, hx⟩ | _ | _ | _ := hpending
  · obtain rfl := hx hm
    obtain ⟨hsingle, hmerged⟩ := irRc5Decode_trailer hm hreports
    have hinactive := @irRc5Decode_space_inactive enabled bits (m + 1) isRc5x gap
    cases pulse with
    | true =>
      have hclose : irRc5Decode enabled ⟨.bitEnd, bits, m + 1, isRc5x⟩
          (initIrRawEventDuration true RC5_UNIT) = (⟨.bitStart, bits, m + 1, isRc5x⟩, .ok none) :=
        (irRc5Decode_add _ true 0).trans
          ((rc5BitEnd_add (count_ne_check hm.ne') true 0).trans (rc5Again_zero _ _ true))
      exact (htaken.cons hclose).report hsingle hinactive
    | false => exact htaken.report hmerged hinactive
  all_goals omega

/-! ## What is in a frame -/

theorem scancode_rc5 {scancode : ℕ} (h : InScancodeBits .rc5 scancode) :
    scancode = scancode / 256 % 32 * 256 + (scancode / 64 % 2 * 64 + scancode % 64) := by
  have hsystem := land_eq_shiftLeft (by decide : 0x1f00 = (2 ^ 5 - 1) <<< 8) scancode
  have hcommand := Nat.and_two_pow_sub_one_eq_mod scancode 7
  have hmask : scancode &&& (0x1f00 ||| (2 ^ 7 - 1)) = scancode := h
  rw [Nat.and_or_distrib_left, hsystem, hcommand,
    shiftLeft_lor (by omega : scancode % 2 ^ 7 < 2 ^ 8)] at hmask
  omega

/-- Command and system of an RC-5 frame. -/
theorem rc5Data_rc5 (scancode : ℕ) :
    rc5Data .rc5 scancode =
      (1 - scancode / 64 % 2) * 4096 + (scancode / 256 % 32 * 64 + scancode % 64) := by
  have hcommand := land_shiftRight (by decide : 0x003f >>> 0 = 2 ^ 6 - 1) scancode
  have hcommandx := land_shiftRight (by decide : 0x0040 >>> 6 = 2 ^ 1 - 1) scancode
  have hsystem := land_shiftRight (by decide : 0x1f00 >>> 8 = 2 ^ 5 - 1) scancode
  have hlow := shiftLeft_lor (Nat.mod_lt (scancode / 2 ^ 0) (by decide : 0 < 2 ^ 6))
    (scancode / 2 ^ 8 % 2 ^ 5)
  unfold rc5Data
  dsimp only
  rw [hcommand, hcommandx, hsystem, Nat.lor_assoc, hlow, shiftLeft_lor (by omega)]
  split_ifs <;> omega

/-- The fields of a frame of RC-5, with the bit of the toggle between them. -/
theorem rc5_fields {bits x system command : ℕ} (hx : x < 2) (hsystem : system < 32)
    (hcommand : command < 64)
    (h : bits % 2 ^ 13 = (x * 4096 + (system * 64 + command)) % 2 ^ 13) :
    bits / 2 ^ 0 % 2 ^ 6 = command ∧ bits / 2 ^ 6 % 2 ^ 5 = system ∧ bits / 2 ^ 11 % 2 = 0 ∧
      bits / 2 ^ 12 % 2 = x := by
  omega

theorem rc5Reports_rc5 (henabled : enabled .rc5 = true) {scancode : ℕ}
    (h : InScancodeBits .rc5 scancode) :
    Rc5Reports enabled false 13 (rc5Data .rc5 scancode % 2 ^ 13) ⟨.rc5, scancode, 0⟩ := by
  intro bits hbits ev hev
  rw [rc5Data_rc5] at hbits
  obtain ⟨hcommand, hsystem, htoggle, hcommandx⟩ := rc5_fields (by omega) (by omega) (by omega) hbits
  have hzero := (land_eq_zero_iff (by decide : 0x00800 = 2 ^ 11) bits).mpr htoggle
  have hx := land_eq_zero_iff (by decide : 0x01000 = 2 ^ 12) bits
  unfold rc5Finished
  rw [if_neg (Bool.eq_false_iff.mp hev)]
  dsimp only
  rw [land_shiftRight (by decide : 0x0003F >>> 0 = 2 ^ 6 - 1),
    land_shiftRight (by decide : 0x007C0 >>> 6 = 2 ^ 5 - 1), hcommand, hsystem, hzero]
  have hcode : (scancode / 256 % 32) <<< 8 |||
      (scancode % 64 + if bits &&& 0x01000 ≠ 0 then 0 else 0x40) % 2 ^ 8 = scancode := by
    have hscancode := scancode_rc5 h
    rw [shiftLeft_lor (Nat.mod_lt _ (by decide)), ite_not, if_congr hx rfl rfl, hcommandx]
    split_ifs <;> omega
  rw [hcode]
  exact if_pos henabled

theorem scancode_rc5x {scancode : ℕ} (h : InScancodeBits .rc5x20 scancode) :
    scancode = scancode / 2 ^ 16 % 2 ^ 5 * 2 ^ 16 +
      ((scancode / 2 ^ 14 % 2 * 64 + scancode / 2 ^ 8 % 2 ^ 6) * 2 ^ 8 +
        scancode / 2 ^ 0 % 2 ^ 6) := by
  have hsystem := land_eq_shiftLeft (by decide : 0x1f0000 = (2 ^ 5 - 1) <<< 16) scancode
  have hcommand := land_eq_shiftLeft (by decide : 0x7f00 = (2 ^ 7 - 1) <<< 8) scancode
  have hxdata := Nat.and_two_pow_sub_one_eq_mod scancode 6
  have hmask : scancode &&& (0x1f0000 ||| (0x7f00 ||| (2 ^ 6 - 1))) = scancode := h
  rw [Nat.and_or_distrib_left, Nat.and_or_distrib_left, hsystem, hcommand, hxdata,
    shiftLeft_lor (by omega : scancode % 2 ^ 6 < 2 ^ 8), shiftLeft_lor (by omega)] at hmask
  omega

/-- System, command and data of an RC5X frame. -/
theorem rc5Data_rc5x (scancode : ℕ) :
    rc5Data .rc5x20 scancode =
      (1 - scancode / 2 ^ 14 % 2) * 2 ^ 18 + (scancode / 2 ^ 16 % 2 ^ 5 * 2 ^ 12 +
        (scancode / 2 ^ 8 % 2 ^ 6 * 2 ^ 6 + scancode / 2 ^ 0 % 2 ^ 6)) := by
  have hxdata := land_shiftRight (by decide : 0x00003f >>> 0 = 2 ^ 6 - 1) scancode
  have hcommand := land_shiftRight (by decide : 0x003f00 >>> 8 = 2 ^ 6 - 1) scancode
  have hcommandx := land_eq_zero_iff (by decide : 0x004000 = 2 ^ 14) scancode
  have hsystem := land_shiftRight (by decide : 0x1f0000 >>> 16 = 2 ^ 5 - 1) scancode
  have hlow := shiftLeft_lor (Nat.mod_lt (scancode / 2 ^ 0) (by decide : 0 < 2 ^ 6))
    (scancode / 2 ^ 8 % 2 ^ 6)
  have hmid := shiftLeft_lor (by omega : scancode / 2 ^ 8 % 2 ^ 6 * 2 ^ 6 + scancode / 2 ^ 0 % 2 ^ 6 <
    2 ^ 12) (scancode / 2 ^ 16 % 2 ^ 5)
  unfold rc5Data
  dsimp only
  rw [hxdata, hcommand, hsystem, Nat.lor_assoc, Nat.lor_assoc, hlow, hmid, shiftLeft_lor (by omega),
    if_congr hcommandx rfl rfl]
  split_ifs <;> omega

/-- The fields of a frame of RC5X. -/
theorem rc5x_fields {bits x system command xdata : ℕ} (hx : x < 2) (hsystem : system < 32)
    (hcommand : command < 64) (hxdata : xdata < 64)
    (h : bits % 2 ^ 19 =
      (x * 2 ^ 18 + (system * 2 ^ 12 + (command * 2 ^ 6 + xdata))) % 2 ^ 19) :
    bits / 2 ^ 0 % 2 ^ 6 = xdata ∧ bits / 2 ^ 6 % 2 ^ 6 = command ∧ bits / 2 ^ 12 % 2 ^ 5 = system ∧
      bits / 2 ^ 17 % 2 = 0 ∧ bits / 2 ^ 18 % 2 = x := by
  omega

theorem rc5Reports_rc5x (henabled : enabled .rc5x20 = true) {scancode : ℕ}
    (h : InScancodeBits .rc5x20 scancode) :
    Rc5Reports enabled true 19 (rc5Data .rc5x20 scancode % 2 ^ 19) ⟨.rc5x20, scancode, 0⟩ := by
  intro bits hbits ev hev
  rw [rc5Data_rc5x] at hbits
  obtain ⟨hxdata, hcommand, hsystem, htoggle, hcommandx⟩ :=
    rc5x_fields (by omega) (by omega) (by omega) (by omega) hbits
  have hzero := (land_eq_zero_iff (by decide : 0x20000 = 2 ^ 17) bits).mpr htoggle
  have hx := land_eq_zero_iff (by decide : 0x40000 = 2 ^ 18) bits
  unfold rc5Finished
  rw [if_neg (Bool.eq_false_iff.mp hev)]
  dsimp only
  rw [land_shiftRight (by decide : 0x0003F >>> 0 = 2 ^ 6 - 1),
    land_shiftRight (by decide : 0x00FC0 >>> 6 = 2 ^ 6 - 1),
    land_shiftRight (by decide : 0x1F000 >>> 12 = 2 ^ 5 - 1), hxdata, hcommand, hsystem, hzero]
  have hcode : (scancode / 2 ^ 16 % 2 ^ 5) <<< 16 |||
      ((scancode / 2 ^ 8 % 2 ^ 6 + if bits &&& 0x40000 ≠ 0 then 0 else 0x40) % 2 ^ 8) <<< 8 |||
        scancode / 2 ^ 0 % 2 ^ 6 = scancode := by
    have hscancode := scancode_rc5x h
    rw [Nat.lor_assoc, shiftLeft_lor (by omega : scancode / 2 ^ 0 % 2 ^ 6 < 2 ^ 8), shiftLeft_lor (by omega),
      ite_not, if_congr hx rfl rfl, hcommandx]
    split_ifs <;> omega
  rw [hcode]
  exact if_pos henabled

theorem rc5Reports_rc5Sz (henabled : enabled .rc5Sz = true) {scancode : ℕ}
    (h : InScancodeBits .rc5Sz scancode) :
    Rc5Reports enabled false 14 (rc5Data .rc5Sz scancode % 2 ^ 14) ⟨.rc5Sz, scancode, 0⟩ := by
  intro bits hbits ev hev
  have hdata : rc5Data .rc5Sz scancode = scancode := h
  have hlt : scancode < 2 ^ 14 := by
    have hsub : scancode &&& 0x2fff = scancode := h
    have hle : scancode ≤ 0x2fff := hsub.symm.le.trans Nat.and_le_right
    omega
  rw [hdata, Nat.mod_eq_of_lt hlt] at hbits
  have hmask (mask : ℕ) (hsub : (2 ^ 14 - 1) &&& mask = mask) : bits &&& mask = scancode &&& mask := by
    rw [← land_mod hsub, hbits]
  have hsystem := land_land_of_subset h (by decide : 0x2fff &&& 0x2FC0 = 0x2fff &&& 0x3FC0)
  have hzero : scancode &&& 0x1000 = 0 :=
    (land_land_of_subset h (by decide : 0x2fff &&& 0x1000 = 0x2fff &&& 0)).trans (Nat.and_zero _)
  unfold rc5Finished
  rw [if_neg (Bool.eq_false_iff.mp hev)]
  dsimp only
  rw [hmask 0x3F (by decide), hmask 0x2FC0 (by decide), hmask 0x1000 (by decide), hsystem, hzero,
    land_shiftRight (by decide : 0x3F >>> 0 = 2 ^ 6 - 1),
    land_shiftRight (by decide : 0x3FC0 >>> 6 = 2 ^ 8 - 1)]
  have hcode : (scancode / 2 ^ 6 % 2 ^ 8) <<< 6 ||| scancode / 2 ^ 0 % 2 ^ 6 = scancode := by
    rw [shiftLeft_lor (Nat.mod_lt _ (by decide))]
    omega
  rw [hcode]
  exact if_pos henabled

/-! ## The round trip -/

/-- A frame without the gap. -/
theorem decodeAll_rc5Frame {timings : Timings} (hleader : timings.leaderPulse = RC5_UNIT)
    (hspace : timings.leaderSpace = 0) (hclock : timings.clock = RC5_UNIT)
    (hinvert : timings.invert = false) (htrailer : timings.trailerSpace = RC5_UNIT * 10) {n : ℕ}
    (hn : 7 < n) (hn' : n ≤ 30) {bits : ℕ} {k : Keydown}
    (hreports : Rc5Reports enabled false n (bits % 2 ^ n) k) {data : Rc5Dec}
    (hdata : data.state = .inactive) (gap : ℕ) :
    (decodeAll (irRc5Decode enabled) data
      ((manchester timings n bits []).reverse ++ [initIrRawEventDuration false gap])).2 = [k] := by
  obtain ⟨_, bits₀, count, isRc5x⟩ := data
  obtain rfl : _ = Rc5State.inactive := hdata
  have hcode : codeLeader timings [] = [initIrRawEventDuration true RC5_UNIT] := by
    unfold codeLeader
    rw [hleader, hspace]
    rfl
  have hbit : ∀ b : Bool, (!(!b ^^ timings.invert)).toNat = b.toNat := by
    rw [hinvert]
    decide
  have hstart : (rc5Demodulator enabled false).Pending (initIrRawEventDuration true RC5_UNIT) 0 0
      ⟨.inactive, bits₀, count, isRc5x⟩ := Rc5Pending.leader bits₀ count isRc5x rfl
  obtain ⟨ev, evs, data', hbits, htaken, hpending⟩ := (rc5Demodulator enabled false).codeBits hclock
    hbit bits n (Taken.nil _) hstart (by omega)
  rw [Nat.mul_zero, Nat.zero_add, Nat.zero_add] at hpending
  unfold manchester
  rw [hcode, hbits]
  exact decodeAll_rc5Trailer htrailer htaken hpending hn hreports gap

/-- The gap behind the first bits of an RC5X frame. -/
theorem rc5_gap {data₀ data : Rc5Dec} {ev : IrRawEvent} {evs : List IrRawEvent} {v : ℕ}
    (htaken : Taken (irRc5Decode enabled) data₀ evs data) (hpending : Rc5Pending false ev 7 v data) :
    ∃ ev' evs' data', codeTrailer irRc5xTimings₀ (ev :: evs) = ev' :: evs' ∧
      Taken (irRc5Decode enabled) data₀ evs' data' ∧ Rc5Pending true ev' 7 v data' := by
  obtain ⟨pulse, _, bits, isRc5x, hgap, hx⟩ | _ | ⟨_, _, hx⟩ | ⟨_, _, hx⟩ := hpending
  · cases pulse with
    | true =>
      have hclose : irRc5Decode enabled ⟨.bitEnd, bits, 8, isRc5x⟩
          (initIrRawEventDuration true RC5_UNIT) = (⟨.checkRc5x, bits, 8, isRc5x⟩, .ok none) :=
        (irRc5Decode_add _ true 0).trans
          ((rc5BitEnd_check rfl true 0).trans (rc5Again_zero _ _ true))
      exact ⟨_, _, _, rfl, htaken.cons hclose, .gap bits isRc5x rfl⟩
    | false => exact ⟨_, _, _, rfl, htaken, .prolongedGap bits isRc5x rfl⟩
  · exact nomatch hx
  · exact nomatch hx

/-- A frame with the gap. -/
theorem decodeAll_rc5xFrame {bits : ℕ} {k : Keydown}
    (hreports : Rc5Reports enabled true 19 (bits % 2 ^ 19) k) {data : Rc5Dec}
    (hdata : data.state = .inactive) (gap : ℕ) :
    (decodeAll (irRc5Decode enabled) data
      ((manchester irRc5xTimings₁ 12 bits (manchester irRc5xTimings₀ 7 (bits >>> 12) [])).reverse ++
        [initIrRawEventDuration false gap])).2 = [k] := by
  obtain ⟨_, bits₀, count, isRc5x⟩ := data
  obtain rfl : _ = Rc5State.inactive := hdata
  have hbit : ∀ b : Bool, (!(!b ^^ false)).toNat = b.toNat := by decide
  have hstart : (rc5Demodulator enabled false).Pending (initIrRawEventDuration true RC5_UNIT) 0 0
      ⟨.inactive, bits₀, count, isRc5x⟩ := Rc5Pending.leader bits₀ count isRc5x rfl
  obtain ⟨ev, evs, data', hbits, htaken, hpending⟩ := (rc5Demodulator enabled false).codeBits
    (rfl : irRc5xTimings₀.clock = _) hbit (bits >>> 12) 7 (Taken.nil _) hstart (by decide)
  obtain ⟨ev₁, evs₁, data₁, hgap, htaken₁, hpending₁⟩ := rc5_gap htaken hpending
  obtain ⟨ev₂, evs₂, data₂, hbits₂, htaken₂, hpending₂⟩ := (rc5Demodulator enabled true).codeBits
    (rfl : irRc5xTimings₁.clock = _) hbit bits 12 htaken₁ hpending₁ (by decide)
  have hvalue : 2 ^ 12 * (2 ^ 7 * 0 + bits >>> 12 % 2 ^ 7) + bits % 2 ^ 12 = bits % 2 ^ 19 := by
    rw [Nat.shiftRight_eq_div_pow]
    omega
  rw [hvalue] at hpending₂
  have hfirst : manchester irRc5xTimings₀ 7 (bits >>> 12) [] = ev₁ :: evs₁ :=
    (congrArg (codeTrailer irRc5xTimings₀) hbits).trans hgap
  have hsecond : manchester irRc5xTimings₁ 12 bits (ev₁ :: evs₁) =
      codeTrailer irRc5xTimings₁ (ev₂ :: evs₂) := congrArg (codeTrailer irRc5xTimings₁) hbits₂
  rw [hfirst, hsecond]
  exact decodeAll_rc5Trailer rfl htaken₂ hpending₂ (by decide) hreports gap

/-- The variants that the decoder and the encoder have. -/
def Rc5Protocol (protocol : RcProto) : Prop := protocol = .rc5 ∨ protocol = .rc5x20 ∨ protocol = .rc5Sz

/-- The events of a frame, the last one first. -/
def rc5Frame (protocol : RcProto) (scancode : ℕ) : List IrRawEvent :=
  match protocol with
  | .rc5 => manchester irRc5Timings 13 (rc5Data .rc5 scancode) []
  | .rc5x20 =>
    manchester irRc5xTimings₁ 12 (rc5Data .rc5x20 scancode)
      (manchester irRc5xTimings₀ 7 (rc5Data .rc5x20 scancode >>> 12) [])
  | _ => manchester irRc5SzTimings 14 (rc5Data .rc5Sz scancode) []

theorem irRc5Encode_spec {protocol : RcProto} (h : Rc5Protocol protocol) (scancode max : ℕ) :
    (∀ events, irRc5Encode protocol scancode max = .ok events →
      events = (rc5Frame protocol scancode).reverse) ∧
      (44 ≤ max →
        irRc5Encode protocol scancode max = .ok (rc5Frame protocol scancode).reverse) := by
  rcases h with rfl | rfl | rfl
  · exact ((irRawGenManchester_spec _ _ _ _).mono (by decide : 2 + (2 * 13 + 1) ≤ 44)).map_reverse
  · refine (((irRawGenManchester_spec _ _ _ _).bind fun s hs => ?_).mono
      (by decide : 2 + (2 * 7 + 1) + (2 + (2 * 12 + 1)) ≤ 44)).map_reverse
    have hsecond := irRawGenManchester_spec s irRc5xTimings₁ 12 (rc5Data .rc5x20 scancode)
    rw [hs] at hsecond
    exact hsecond
  · exact ((irRawGenManchester_spec _ _ _ _).mono (by decide : 2 + (2 * 14 + 1) ≤ 44)).map_reverse

/-- **What is encoded is decoded**: the events of a scancode, with a space behind them, are reported as
one key of that scancode.  With enough room there always are such events. -/
theorem irRc5Decode_irRc5Encode {protocol : RcProto} (hprotocol : Rc5Protocol protocol)
    (henabled : enabled protocol = true) {scancode : ℕ} (hscancode : InScancodeBits protocol scancode)
    {data : Rc5Dec} (hdata : data.state = .inactive) (gap : ℕ) :
    (∃ room, ∀ max, room ≤ max → ∃ events, irRc5Encode protocol scancode max = .ok events) ∧
      ∀ max events, irRc5Encode protocol scancode max = .ok events →
        (decodeAll (irRc5Decode enabled) data (events ++ [initIrRawEventDuration false gap])).2 =
          [⟨protocol, scancode, 0⟩] := by
  refine ⟨⟨44, fun max hmax => ⟨_, (irRc5Encode_spec hprotocol scancode max).2 hmax⟩⟩, ?_⟩
  intro max events hevents
  rw [(irRc5Encode_spec hprotocol scancode max).1 events hevents]
  rcases hprotocol with rfl | rfl | rfl
  · exact decodeAll_rc5Frame rfl rfl rfl rfl rfl (by decide) (by decide)
      (rc5Reports_rc5 henabled hscancode) hdata gap
  · exact decodeAll_rc5xFrame (rc5Reports_rc5x henabled hscancode) hdata gap
  · exact decodeAll_rc5Frame rfl rfl rfl rfl rfl (by decide) (by decide)
      (rc5Reports_rc5Sz henabled hscancode) hdata gap

/-- A frame with the gap. -/
theorem irRc5Decode_irRc5Encode_rc5x :
    ∃ room, ∀ max, room ≤ max → ∃ events, irRc5Encode .rc5x20 0x1e410c max = .ok events ∧
      (decodeAll (irRc5Decode fun _ => true) ⟨.inactive, 7, 3, false⟩
        (events ++ [initIrRawEventDuration false 20000000])).2 = [⟨.rc5x20, 0x1e410c, 0⟩] := by
  obtain ⟨⟨room, hroom⟩, hdecode⟩ := @irRc5Decode_irRc5Encode (fun _ => true) _
    (Or.inr (Or.inl rfl) : Rc5Protocol .rc5x20) rfl _ (by decide : InScancodeBits .rc5x20 0x1e410c)
    ⟨.inactive, 7, 3, false⟩ rfl 20000000
  refine ⟨room, fun max hmax => ?_⟩
  obtain ⟨events, hevents⟩ := hroom max hmax
  exact ⟨events, hevents, hdecode max events hevents⟩

end Rc
end TbsMedia
