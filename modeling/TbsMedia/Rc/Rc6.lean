import TbsMedia.Lib.BitFields
import TbsMedia.Rc.Manchester

/-!
# RC-6

A frame has a leader, four header bits, a toggle bit of double length and a body.  In mode 0 the body
has 16 bits, in mode 6A it goes on to the trailer, and what its first bits are says whose remote control
it is.

* `irRc6Decode`, `irRc6Encode`: the two halves of `ir-rc6-decoder.c`.
* `Rebranded`: the 32-bit codes on which decoder and validation differ.
* `irRc6_accepted_iff`: everything else is decoded as it has been encoded, and what is decoded is valid.
-/

namespace TbsMedia
namespace Rc

open Lib

def RC6_UNIT : ℕ := 444444
def RC6_HEADER_NBITS : ℕ := 4
def RC6_0_NBITS : ℕ := 16
def RC6_6A_NBITS : ℕ := 128
def RC6_PREFIX_PULSE : ℕ := 6 * RC6_UNIT
def RC6_PREFIX_SPACE : ℕ := 2 * RC6_UNIT
def RC6_BIT_START : ℕ := 1 * RC6_UNIT
def RC6_BIT_END : ℕ := 1 * RC6_UNIT
def RC6_TOGGLE_START : ℕ := 2 * RC6_UNIT
def RC6_TOGGLE_END : ℕ := 2 * RC6_UNIT
def RC6_SUFFIX_SPACE : ℕ := 6 * RC6_UNIT
def RC6_MODE_MASK : ℕ := 0x07
def RC6_STARTBIT_MASK : ℕ := 0x08
def RC6_6A_MCE_TOGGLE_MASK : ℕ := 0x8000
def RC6_6A_LCC_MASK : ℕ := 0xffff0000
def RC6_6A_MCE_CC : ℕ := 0x800f0000
def RC6_6A_ZOTAC_CC : ℕ := 0x80340000
def RC6_6A_KATHREIN_CC : ℕ := 0x80460000

/-! ## The decoder -/

/-- `enum rc6_mode`. -/
inductive Rc6Mode where
  | mode0 | mode6A | unknown
  deriving DecidableEq, Repr

/-- `enum rc6_state`. -/
inductive Rc6State where
  | inactive | prefixSpace | headerBitStart | headerBitEnd | toggleStart | toggleEnd | bodyBitStart
  | bodyBitEnd | finished
  deriving DecidableEq, Repr

/-- `struct rc6_dec`. -/
structure Rc6Dec where
  state : Rc6State
  header : ℕ
  body : ℕ
  toggle : Bool
  count : ℕ
  wantedBits : ℕ
  deriving DecidableEq, Repr

/-- What a decoder does with an event. -/
abbrev Rc6Result := Rc6Dec × Except Errno (Option Keydown)

/-- `rc6_mode`. -/
def rc6Mode (data : Rc6Dec) : Rc6Mode :=
  match data.header &&& RC6_MODE_MASK with
  | 0 => .mode0
  | 6 => if data.toggle then .unknown else .mode6A
  | _ => .unknown

/-- The label `out`. -/
def rc6Out (data : Rc6Dec) : Rc6Result := ({ data with state := .inactive }, .error .EINVAL)

/-- A jump to the label `again`, with the case that the new state selects.  No chain of jumps comes
back to a state. -/
def rc6Again (case : Rc6Dec → IrRawEvent → Rc6Result) (data : Rc6Dec) (ev : IrRawEvent) : Rc6Result :=
  if geqMargin ev.duration RC6_UNIT (RC6_UNIT / 2) then case data ev else (data, .ok none)

/-- `rc_keydown` at the end of a frame. -/
def rc6Report (data : Rc6Dec) (protocol : RcProto) (scancode toggle : ℕ) : Rc6Result :=
  ({ data with state := .inactive }, .ok (some ⟨protocol, scancode, toggle⟩))

/-- `STATE_FINISHED`. -/
def rc6Finished (data : Rc6Dec) (ev : IrRawEvent) : Rc6Result :=
  if ev.pulse then rc6Out data
  else
    match rc6Mode data with
    | .mode0 => rc6Report data .rc6_0 data.body data.toggle.toNat
    | .mode6A =>
      if 32 < data.count then rc6Out data
      else if data.count = 20 then rc6Report data .rc6_6a20 data.body 0
      else if data.count = 24 then rc6Report data .rc6_6a24 data.body 0
      else if data.count = 32 then
        let cc := data.body &&& RC6_6A_LCC_MASK
        if cc = RC6_6A_MCE_CC ∨ cc = RC6_6A_KATHREIN_CC ∨ cc = RC6_6A_ZOTAC_CC then
          rc6Report data .rc6Mce (data.body &&& (RC6_6A_MCE_TOGGLE_MASK ^^^ 0xffffffff))
            (if data.body &&& RC6_6A_MCE_TOGGLE_MASK ≠ 0 then 1 else 0)
        else rc6Report data .rc6_6a32 data.body 0
      else rc6Out data
    | .unknown => rc6Out data

/-- `data->body` with one more bit. -/
def rc6Shift (body : ℕ) (pulse : Bool) : ℕ :=
  if pulse then (body <<< 1) % 2 ^ 32 ||| 1 else (body <<< 1) % 2 ^ 32

/-- `STATE_BODY_BIT_START`. -/
def rc6BodyBitStart (data : Rc6Dec) (ev : IrRawEvent) : Rc6Result :=
  if eqMargin ev.duration RC6_BIT_START (RC6_UNIT / 2) then
    ({ data with
      body := if data.count < 32 then rc6Shift data.body ev.pulse else data.body
      count := data.count + 1
      state := .bodyBitEnd }, .ok none)
  else if rc6Mode data = .mode6A ∧ ev.pulse = false ∧
      geqMargin ev.duration RC6_SUFFIX_SPACE (RC6_UNIT / 2) then
    rc6Again rc6Finished { data with state := .finished } ev
  else rc6Out data

/-- `STATE_BODY_BIT_END`. -/
def rc6BodyBitEnd (data : Rc6Dec) (ev : IrRawEvent) : Rc6Result :=
  if data.count = data.wantedBits then
    rc6Again rc6Finished { data with state := .finished } (decreaseDuration ev RC6_BIT_END)
  else rc6Again rc6BodyBitStart { data with state := .bodyBitStart } (decreaseDuration ev RC6_BIT_END)

/-- `STATE_TOGGLE_END`. -/
def rc6ToggleEnd (data : Rc6Dec) (ev : IrRawEvent) : Rc6Result :=
  if data.header &&& RC6_STARTBIT_MASK = 0 then rc6Out data
  else
    let data := { data with state := .bodyBitStart, count := 0, body := 0 }
    match rc6Mode data with
    | .mode0 =>
      rc6Again rc6BodyBitStart { data with wantedBits := RC6_0_NBITS }
        (decreaseDuration ev RC6_TOGGLE_END)
    | .mode6A =>
      rc6Again rc6BodyBitStart { data with wantedBits := RC6_6A_NBITS }
        (decreaseDuration ev RC6_TOGGLE_END)
    | .unknown => rc6Out data

/-- `STATE_TOGGLE_START`. -/
def rc6ToggleStart (data : Rc6Dec) (ev : IrRawEvent) : Rc6Result :=
  if ¬ eqMargin ev.duration RC6_TOGGLE_START (RC6_UNIT / 2) then rc6Out data
  else ({ data with toggle := ev.pulse, state := .toggleEnd }, .ok none)

/-- `STATE_HEADER_BIT_START`. -/
def rc6HeaderBitStart (data : Rc6Dec) (ev : IrRawEvent) : Rc6Result :=
  if ¬ eqMargin ev.duration RC6_BIT_START (RC6_UNIT / 2) then rc6Out data
  else
    ({ data with
      header := (data.header <<< 1) % 2 ^ 8 ||| ev.pulse.toNat
      count := data.count + 1
      state := .headerBitEnd }, .ok none)

/-- `STATE_HEADER_BIT_END`. -/
def rc6HeaderBitEnd (data : Rc6Dec) (ev : IrRawEvent) : Rc6Result :=
  if data.count = RC6_HEADER_NBITS then
    rc6Again rc6ToggleStart { data with state := .toggleStart } (decreaseDuration ev RC6_BIT_END)
  else
    rc6Again rc6HeaderBitStart { data with state := .headerBitStart }
      (decreaseDuration ev RC6_BIT_END)

/-- `STATE_PREFIX_SPACE`. -/
def rc6PrefixSpace (data : Rc6Dec) (ev : IrRawEvent) : Rc6Result :=
  if ev.pulse then rc6Out data
  else if ¬ eqMargin ev.duration RC6_PREFIX_SPACE (RC6_UNIT / 2) then rc6Out data
  else ({ data with state := .headerBitStart, header := 0 }, .ok none)

/-- `STATE_INACTIVE`. -/
def rc6Inactive (data : Rc6Dec) (ev : IrRawEvent) : Rc6Result :=
  if ev.pulse = false then rc6Out data
  else if ¬ eqMargin ev.duration RC6_PREFIX_PULSE RC6_UNIT then rc6Out data
  else ({ data with state := .prefixSpace, count := 0 }, .ok none)

/-- The `switch` over the state. -/
def rc6Switch (data : Rc6Dec) (ev : IrRawEvent) : Rc6Result :=
  match data.state with
  | .inactive => rc6Inactive data ev
  | .prefixSpace => rc6PrefixSpace data ev
  | .headerBitStart => rc6HeaderBitStart data ev
  | .headerBitEnd => rc6HeaderBitEnd data ev
  | .toggleStart => rc6ToggleStart data ev
  | .toggleEnd => rc6ToggleEnd data ev
  | .bodyBitStart => rc6BodyBitStart data ev
  | .bodyBitEnd => rc6BodyBitEnd data ev
  | .finished => rc6Finished data ev

/-- `ir_rc6_decode`. -/
def irRc6Decode (data : Rc6Dec) (ev : IrRawEvent) : Rc6Result :=
  if isTimingEvent ev = false then
    (if ev.reset then { data with state := .inactive } else data, .ok none)
  else if ¬ geqMargin ev.duration RC6_UNIT (RC6_UNIT / 2) then rc6Out data
  else rc6Switch data ev

/-! ## The encoder -/

/-- `ir_rc6_timings[0]`. -/
def irRc6Timings₀ : Timings where
  leaderPulse := RC6_PREFIX_PULSE
  leaderSpace := RC6_PREFIX_SPACE
  clock := RC6_UNIT
  invert := true

/-- `ir_rc6_timings[1]`. -/
def irRc6Timings₁ : Timings where
  clock := RC6_UNIT * 2
  invert := true

/-- `ir_rc6_timings[2]`. -/
def irRc6Timings₂ : Timings where
  clock := RC6_UNIT
  invert := true
  trailerSpace := RC6_SUFFIX_SPACE

/-- Header, toggle bit and body of a frame. -/
def rc6Encode (header bits scancode max : ℕ) : Except Errno (List IrRawEvent) :=
  (irRawGenManchester ⟨[], max⟩ irRc6Timings₀ RC6_HEADER_NBITS header >>= fun s =>
    irRawGenManchester s irRc6Timings₁ 1 0 >>= fun s =>
    irRawGenManchester s irRc6Timings₂ bits scancode).map fun s => s.ev.reverse

/-- `ir_rc6_encode`. -/
def irRc6Encode (protocol : RcProto) (scancode max : ℕ) : Except Errno (List IrRawEvent) :=
  match protocol with
  | .rc6_0 => rc6Encode (1 <<< 3) RC6_0_NBITS scancode max
  | .rc6Mce => rc6Encode (1 <<< 3 ||| 6) 32 scancode max
  | .rc6_6a32 => rc6Encode (1 <<< 3 ||| 6) 32 scancode max
  | .rc6_6a24 => rc6Encode (1 <<< 3 ||| 6) 24 scancode max
  | .rc6_6a20 => rc6Encode (1 <<< 3 ||| 6) 20 scancode max
  | _ => .error .EINVAL

/-! ## What is reported -/

/-- The customer codes that the decoder takes for those of MCE remotes, beside that of MCE. -/
def RebrandedCc (scancode : ℕ) : Prop :=
  scancode &&& RC6_6A_LCC_MASK = RC6_6A_KATHREIN_CC ∨ scancode &&& RC6_6A_LCC_MASK = RC6_6A_ZOTAC_CC

instance (scancode : ℕ) : Decidable (RebrandedCc scancode) := inferInstanceAs (Decidable (_ ∨ _))

/-- The body of the frame is a 32-bit code with such a customer code. -/
def RebrandedBody (data : Rc6Dec) : Prop :=
  rc6Mode data = .mode6A ∧ data.count = 32 ∧ RebrandedCc data.body

theorem land_lcc (body : ℕ) :
    body &&& (RC6_6A_MCE_TOGGLE_MASK ^^^ 0xffffffff) &&& 0xffff0000 = body &&& RC6_6A_LCC_MASK := by
  rw [Nat.land_assoc]
  rfl

/-- What the end of a frame can report. -/
inductive Rc6Key (data : Rc6Dec) : Keydown → Prop
  | short (protocol : RcProto) (scancode toggle : ℕ) (hvalid : rcValidateScancode protocol scancode = true)
      (hbody : ¬ RebrandedBody data) : Rc6Key data ⟨protocol, scancode, toggle⟩
  | mce (toggle : ℕ) (hmode : rc6Mode data = .mode6A) (hcount : data.count = 32)
      (hcc : data.body &&& RC6_6A_LCC_MASK = RC6_6A_MCE_CC ∨ RebrandedCc data.body) :
    Rc6Key data ⟨.rc6Mce, data.body &&& (RC6_6A_MCE_TOGGLE_MASK ^^^ 0xffffffff), toggle⟩

theorem rc6Key_of_report {data data' : Rc6Dec} {protocol : RcProto} {scancode toggle : ℕ} {k : Keydown}
    (h : rc6Report data protocol scancode toggle = (data', .ok (some k)))
    (hkey : Rc6Key data ⟨protocol, scancode, toggle⟩) : Rc6Key data k := by
  obtain rfl := Option.some.inj (Except.ok.inj (Prod.ext_iff.mp h).2)
  exact hkey

/-- A frame of mode 6A. -/
theorem rc6Key_mode6A {data data' : Rc6Dec} {ev : IrRawEvent} {k : Keydown}
    (hpulse : ¬ ev.pulse = true) (hmode : rc6Mode data = .mode6A)
    (h : rc6Finished data ev = (data', .ok (some k))) : Rc6Key data k := by
  unfold rc6Finished at h
  rw [if_neg hpulse, hmode] at h
  dsimp only at h
  by_cases hmany : 32 < data.count
  · rw [if_pos hmany] at h
    exact nomatch h
  rw [if_neg hmany] at h
  by_cases h20 : data.count = 20
  · rw [if_pos h20] at h
    exact rc6Key_of_report h (.short _ _ _ rfl fun hbody => absurd (h20.symm.trans hbody.2.1) (by decide))
  rw [if_neg h20] at h
  by_cases h24 : data.count = 24
  · rw [if_pos h24] at h
    exact rc6Key_of_report h (.short _ _ _ rfl fun hbody => absurd (h24.symm.trans hbody.2.1) (by decide))
  rw [if_neg h24] at h
  by_cases h32 : data.count = 32
  · rw [if_pos h32] at h
    by_cases hcc : data.body &&& RC6_6A_LCC_MASK = RC6_6A_MCE_CC ∨
        data.body &&& RC6_6A_LCC_MASK = RC6_6A_KATHREIN_CC ∨
        data.body &&& RC6_6A_LCC_MASK = RC6_6A_ZOTAC_CC
    · rw [if_pos hcc] at h
      exact rc6Key_of_report h (.mce _ hmode h32 hcc)
    · rw [if_neg hcc] at h
      obtain ⟨hmce, hnot⟩ := not_or.mp hcc
      have hvalid : rcValidateScancode .rc6_6a32 data.body = true := bne_iff_ne.mpr hmce
      exact rc6Key_of_report h (.short _ _ _ hvalid fun hbody => hnot hbody.2.2)
  · rw [if_neg h32] at h
    exact nomatch h

theorem rc6Finished_key {data data' : Rc6Dec} {ev : IrRawEvent} {k : Keydown}
    (h : rc6Finished data ev = (data', .ok (some k))) : Rc6Key data k := by
  by_cases hpulse : ev.pulse = true
  · unfold rc6Finished at h
    rw [if_pos hpulse] at h
    exact nomatch h
  cases hmode : rc6Mode data with
  | mode0 =>
    unfold rc6Finished at h
    rw [if_neg hpulse, hmode] at h
    exact rc6Key_of_report h (.short _ _ _ rfl fun hbody => (nomatch hmode.symm.trans hbody.1))
  | mode6A => exact rc6Key_mode6A hpulse hmode h
  | unknown =>
    unfold rc6Finished at h
    rw [if_neg hpulse, hmode] at h
    exact nomatch h

/-- What is reported is valid, except for rebranded codes. -/
theorem Rc6Key.valid_iff {data : Rc6Dec} {k : Keydown} (h : Rc6Key data k) :
    rcValidateScancode k.protocol k.scancode = true ↔ ¬ RebrandedBody data := by
  obtain ⟨protocol, scancode, toggle, hvalid, hbody⟩ | ⟨toggle, hmode, hcount, hcc⟩ := h
  · exact ⟨fun _ => hbody, fun _ => hvalid⟩
  · unfold rcValidateScancode
    dsimp only
    rw [land_lcc, beq_iff_eq]
    constructor
    · rintro hmce ⟨-, -, hkathrein | hzotac⟩
      · exact absurd (hmce.symm.trans hkathrein) (by decide)
      · exact absurd (hmce.symm.trans hzotac) (by decide)
    · intro hbody
      exact hcc.resolve_right fun hcc => hbody ⟨hmode, hcount, hcc⟩

/-! ## Which steps report -/

theorem rc6Again_report {case : Rc6Dec → IrRawEvent → Rc6Result} {data data' : Rc6Dec}
    {ev : IrRawEvent} {k : Keydown} (h : rc6Again case data ev = (data', .ok (some k))) :
    case data ev = (data', .ok (some k)) := by
  unfold rc6Again at h
  split_ifs at h
  · exact h
  · exact nomatch h

theorem rc6BodyBitStart_key {data data' : Rc6Dec} {ev : IrRawEvent} {k : Keydown}
    (h : rc6BodyBitStart data ev = (data', .ok (some k))) :
    rc6Mode data = .mode6A ∧ Rc6Key { data with state := .finished } k := by
  unfold rc6BodyBitStart at h
  by_cases hunit : eqMargin ev.duration RC6_BIT_START (RC6_UNIT / 2)
  · rw [if_pos hunit] at h
    exact nomatch h
  rw [if_neg hunit] at h
  by_cases hsuffix : rc6Mode data = .mode6A ∧ ev.pulse = false ∧
      geqMargin ev.duration RC6_SUFFIX_SPACE (RC6_UNIT / 2)
  · rw [if_pos hsuffix] at h
    exact ⟨hsuffix.1, rc6Finished_key (rc6Again_report h)⟩
  · rw [if_neg hsuffix] at h
    exact nomatch h

theorem Rc6Key.of_state {data : Rc6Dec} {state : Rc6State} {k : Keydown}
    (h : Rc6Key { data with state } k) : Rc6Key data k := by
  obtain ⟨protocol, scancode, toggle, hvalid, hbody⟩ | ⟨toggle, hmode, hcount, hcc⟩ := h
  · exact .short protocol scancode toggle hvalid hbody
  · exact .mce toggle hmode hcount hcc

theorem rc6BodyBitEnd_key {data data' : Rc6Dec} {ev : IrRawEvent} {k : Keydown}
    (h : rc6BodyBitEnd data ev = (data', .ok (some k))) : Rc6Key data k := by
  unfold rc6BodyBitEnd at h
  split_ifs at h
  · exact (rc6Finished_key (rc6Again_report h)).of_state
  · exact (rc6BodyBitStart_key (rc6Again_report h)).2.of_state.of_state

/-- A body without bits is none. -/
theorem not_rc6BodyBitStart {data data' : Rc6Dec} {ev : IrRawEvent} {k : Keydown}
    (hcount : data.count = 0) : rc6BodyBitStart data ev ≠ (data', .ok (some k)) := by
  intro h
  unfold rc6BodyBitStart at h
  by_cases hunit : eqMargin ev.duration RC6_BIT_START (RC6_UNIT / 2)
  · rw [if_pos hunit] at h
    exact nomatch h
  rw [if_neg hunit] at h
  by_cases hsuffix : rc6Mode data = .mode6A ∧ ev.pulse = false ∧
      geqMargin ev.duration RC6_SUFFIX_SPACE (RC6_UNIT / 2)
  · rw [if_pos hsuffix] at h
    have hfinished := rc6Again_report h
    have hpulse : ¬ ev.pulse = true := Bool.eq_false_iff.mp hsuffix.2.1
    have hmode : rc6Mode { data with state := .finished } = .mode6A := hsuffix.1
    have hmany : ¬ 32 < data.count := by omega
    have h20 : data.count ≠ 20 := by omega
    have h24 : data.count ≠ 24 := by omega
    have h32 : data.count ≠ 32 := by omega
    unfold rc6Finished at hfinished
    rw [if_neg hpulse, hmode] at hfinished
    dsimp only at hfinished
    rw [if_neg hmany, if_neg h20, if_neg h24, if_neg h32] at hfinished
    exact nomatch hfinished
  · rw [if_neg hsuffix] at h
    exact nomatch h

theorem not_rc6ToggleEnd {data data' : Rc6Dec} {ev : IrRawEvent} {k : Keydown} :
    rc6ToggleEnd data ev ≠ (data', .ok (some k)) := by
  intro h
  unfold rc6ToggleEnd at h
  split_ifs at h
  · exact nomatch h
  · dsimp only at h
    split at h
    · exact not_rc6BodyBitStart rfl (rc6Again_report h)
    · exact not_rc6BodyBitStart rfl (rc6Again_report h)
    · exact nomatch h

theorem not_rc6Header {data data' : Rc6Dec} {ev : IrRawEvent} {k : Keydown} :
    rc6HeaderBitStart data ev ≠ (data', .ok (some k)) ∧
      rc6ToggleStart data ev ≠ (data', .ok (some k)) := by
  constructor
  · intro h
    unfold rc6HeaderBitStart at h
    split_ifs at h
    · exact nomatch h
    · exact nomatch h
  · intro h
    unfold rc6ToggleStart at h
    split_ifs at h
    · exact nomatch h
    · exact nomatch h

/-- **A report** of the decoder, from whatever state. -/
theorem irRc6Decode_key {data data' : Rc6Dec} {ev : IrRawEvent} {k : Keydown}
    (h : irRc6Decode data ev = (data', .ok (some k))) : Rc6Key data k := by
  unfold irRc6Decode at h
  by_cases htiming : isTimingEvent ev = false
  · rw [if_pos htiming] at h
    exact nomatch h
  rw [if_neg htiming] at h
  by_cases hunit : ¬ geqMargin ev.duration RC6_UNIT (RC6_UNIT / 2)
  · rw [if_pos hunit] at h
    exact nomatch h
  rw [if_neg hunit] at h
  obtain ⟨state, header, body, toggle, count, wantedBits⟩ := data
  cases state with
  | inactive =>
    change rc6Inactive _ ev = _ at h
    unfold rc6Inactive at h
    split_ifs at h <;> exact nomatch h
  | prefixSpace =>
    change rc6PrefixSpace _ ev = _ at h
    unfold rc6PrefixSpace at h
    split_ifs at h <;> exact nomatch h
  | headerBitStart => exact absurd h not_rc6Header.1
  | headerBitEnd =>
    change rc6HeaderBitEnd _ ev = _ at h
    unfold rc6HeaderBitEnd at h
    split_ifs at h
    · exact absurd (rc6Again_report h) not_rc6Header.2
    · exact absurd (rc6Again_report h) not_rc6Header.1
  | toggleStart => exact absurd h not_rc6Header.2
  | toggleEnd => exact absurd h not_rc6ToggleEnd
  | bodyBitStart => exact (rc6BodyBitStart_key h).2.of_state
  | bodyBitEnd => exact rc6BodyBitEnd_key h
  | finished => exact rc6Finished_key h

/-- The reports on a sequence of events, each with the state in front of it. -/
def rc6Reports : Rc6Dec → List IrRawEvent → List (Rc6Dec × Keydown)
  | _, [] => []
  | data, ev :: evs =>
    match irRc6Decode data ev with
    | (data', .ok (some k)) => (data, k) :: rc6Reports data' evs
    | (data', _) => rc6Reports data' evs

theorem rc6Reports_key {data : Rc6Dec} {evs : List IrRawEvent} {r : Rc6Dec × Keydown}
    (h : r ∈ rc6Reports data evs) : Rc6Key r.1 r.2 := by
  induction evs generalizing data with
  | nil => exact nomatch h
  | cons ev evs ih =>
    unfold rc6Reports at h
    split at h
    · next data' k hdecode =>
      rcases List.mem_cons.mp h with rfl | h
      · exact irRc6Decode_key hdecode
      · exact ih h
    · exact ih h

/-! ## Single steps -/

/-- An event of a unit or more goes to the `switch`. -/
theorem irRc6Decode_add (data : Rc6Dec) (pulse : Bool) (d : ℕ) :
    irRc6Decode data (initIrRawEventDuration pulse (RC6_UNIT + d)) =
      rc6Switch data (initIrRawEventDuration pulse (RC6_UNIT + d)) := by
  have hunit : geqMargin (RC6_UNIT + d) RC6_UNIT (RC6_UNIT / 2) := by
    unfold geqMargin RC6_UNIT
    omega
  unfold irRc6Decode
  rw [if_neg (isTimingEvent_init pulse _)]
  exact if_neg (not_not.mpr hunit)

theorem rc6Again_add (case : Rc6Dec → IrRawEvent → Rc6Result) (data : Rc6Dec) (pulse : Bool) (d : ℕ) :
    rc6Again case data (initIrRawEventDuration pulse (RC6_UNIT + d)) =
      case data (initIrRawEventDuration pulse (RC6_UNIT + d)) := by
  have hunit : geqMargin (RC6_UNIT + d) RC6_UNIT (RC6_UNIT / 2) := by
    unfold geqMargin RC6_UNIT
    omega
  exact if_pos hunit

theorem rc6Again_zero (case : Rc6Dec → IrRawEvent → Rc6Result) (data : Rc6Dec) (pulse : Bool) :
    rc6Again case data (initIrRawEventDuration pulse 0) = (data, .ok none) := by
  have hunit : ¬ geqMargin 0 RC6_UNIT (RC6_UNIT / 2) := by decide
  exact if_neg hunit

/-- The leader. -/
theorem irRc6Decode_leader (header body : ℕ) (toggle : Bool) (count wantedBits : ℕ) :
    irRc6Decode ⟨.inactive, header, body, toggle, count, wantedBits⟩
        (initIrRawEventDuration true RC6_PREFIX_PULSE) =
        (⟨.prefixSpace, header, body, toggle, 0, wantedBits⟩, .ok none) ∧
      irRc6Decode ⟨.prefixSpace, header, body, toggle, 0, wantedBits⟩
        (initIrRawEventDuration false RC6_PREFIX_SPACE) =
        (⟨.headerBitStart, 0, body, toggle, 0, wantedBits⟩, .ok none) := by
  have hpulse : RC6_PREFIX_PULSE = RC6_UNIT + 5 * RC6_UNIT := rfl
  have hspace : RC6_PREFIX_SPACE = RC6_UNIT + RC6_UNIT := rfl
  have hmargin : eqMargin (RC6_UNIT + 5 * RC6_UNIT) RC6_PREFIX_PULSE RC6_UNIT := by decide
  have hmargin' : eqMargin (RC6_UNIT + RC6_UNIT) RC6_PREFIX_SPACE (RC6_UNIT / 2) := by decide
  constructor
  · rw [hpulse, irRc6Decode_add]
    change rc6Inactive _ _ = _
    unfold rc6Inactive
    rw [if_neg Bool.noConfusion]
    exact if_neg (not_not.mpr hmargin)
  · rw [hspace, irRc6Decode_add]
    change rc6PrefixSpace _ _ = _
    unfold rc6PrefixSpace
    rw [if_neg Bool.noConfusion]
    exact if_neg (not_not.mpr hmargin')

/-- A half bit in front of a header bit. -/
theorem rc6HeaderBitStart_unit (data : Rc6Dec) (pulse : Bool) :
    rc6HeaderBitStart data (initIrRawEventDuration pulse RC6_UNIT) =
      (⟨.headerBitEnd, (data.header <<< 1) % 2 ^ 8 ||| pulse.toNat, data.body, data.toggle,
        data.count + 1, data.wantedBits⟩, .ok none) := by
  have hunit : eqMargin RC6_UNIT RC6_BIT_START (RC6_UNIT / 2) := by decide
  exact if_neg (not_not.mpr hunit)

/-- The second half of a header bit. -/
theorem rc6HeaderBitEnd_add {data : Rc6Dec} (h : data.count ≠ RC6_HEADER_NBITS) (pulse : Bool) (d : ℕ) :
    rc6HeaderBitEnd data (initIrRawEventDuration pulse (RC6_UNIT + d)) =
      rc6Again rc6HeaderBitStart { data with state := .headerBitStart }
        (initIrRawEventDuration pulse d) := by
  unfold rc6HeaderBitEnd RC6_BIT_END
  rw [if_neg h, Nat.one_mul, decreaseDuration_add]

/-- The second half of the last header bit. -/
theorem rc6HeaderBitEnd_last {data : Rc6Dec} (h : data.count = RC6_HEADER_NBITS) (pulse : Bool) (d : ℕ) :
    rc6HeaderBitEnd data (initIrRawEventDuration pulse (RC6_UNIT + d)) =
      rc6Again rc6ToggleStart { data with state := .toggleStart }
        (initIrRawEventDuration pulse d) := by
  unfold rc6HeaderBitEnd RC6_BIT_END
  rw [if_pos h, Nat.one_mul, decreaseDuration_add]

theorem rc6ToggleStart_two (data : Rc6Dec) (pulse : Bool) :
    rc6ToggleStart data (initIrRawEventDuration pulse (RC6_UNIT + RC6_UNIT)) =
      ({ data with toggle := pulse, state := .toggleEnd }, .ok none) := by
  have hunit : eqMargin (RC6_UNIT + RC6_UNIT) RC6_TOGGLE_START (RC6_UNIT / 2) := by decide
  exact if_neg (not_not.mpr hunit)

/-- The mode of a header, and the number of bits that the body is to have. -/
def Rc6Header (header wantedBits : ℕ) : Prop :=
  (header = 8 ∧ wantedBits = RC6_0_NBITS) ∨ (header = 14 ∧ wantedBits = RC6_6A_NBITS)

theorem rc6Mode_mode0 {data : Rc6Dec} (h : data.header = 8) : rc6Mode data = .mode0 := by
  have hmode : 8 &&& RC6_MODE_MASK = 0 := by decide
  unfold rc6Mode
  rw [h, hmode]
  rfl

theorem rc6Mode_mode6A {data : Rc6Dec} (h : data.header = 14) (htoggle : data.toggle = false) :
    rc6Mode data = .mode6A := by
  have hmode : 14 &&& RC6_MODE_MASK = 6 := by decide
  unfold rc6Mode
  rw [h, hmode, htoggle]
  rfl

/-- The second half of the toggle bit. -/
theorem rc6ToggleEnd_add {header wantedBits : ℕ} (h : Rc6Header header wantedBits)
    (body count wanted d : ℕ) :
    rc6ToggleEnd ⟨.toggleEnd, header, body, false, count, wanted⟩
        (initIrRawEventDuration true (RC6_UNIT * 2 + d)) =
      rc6Again rc6BodyBitStart ⟨.bodyBitStart, header, 0, false, 0, wantedBits⟩
        (initIrRawEventDuration true d) := by
  have hdecrease : decreaseDuration (initIrRawEventDuration true (RC6_UNIT * 2 + d)) RC6_TOGGLE_END =
      initIrRawEventDuration true d := by
    unfold RC6_TOGGLE_END
    rw [Nat.mul_comm 2]
    exact decreaseDuration_add true _ d
  unfold rc6ToggleEnd
  rw [hdecrease]
  rcases h with ⟨rfl, rfl⟩ | ⟨rfl, rfl⟩
  · rw [if_neg (by decide : 8 &&& RC6_STARTBIT_MASK ≠ 0)]
    dsimp only
    rw [rc6Mode_mode0 rfl]
  · rw [if_neg (by decide : 14 &&& RC6_STARTBIT_MASK ≠ 0)]
    dsimp only
    rw [rc6Mode_mode6A rfl rfl]

/-- A half bit in front of a bit of the body. -/
theorem rc6BodyBitStart_unit {data : Rc6Dec} (h : data.count < 32) (pulse : Bool) :
    rc6BodyBitStart data (initIrRawEventDuration pulse RC6_UNIT) =
      (⟨.bodyBitEnd, data.header, rc6Shift data.body pulse, data.toggle, data.count + 1,
        data.wantedBits⟩, .ok none) := by
  have hunit : eqMargin (initIrRawEventDuration pulse RC6_UNIT).duration RC6_BIT_START
      (RC6_UNIT / 2) := by
    change eqMargin RC6_UNIT RC6_BIT_START (RC6_UNIT / 2)
    decide
  unfold rc6BodyBitStart
  rw [if_pos hunit, if_pos h]
  rfl

/-- The second half of a bit of the body. -/
theorem rc6BodyBitEnd_add {data : Rc6Dec} (h : data.count ≠ data.wantedBits) (pulse : Bool) (d : ℕ) :
    rc6BodyBitEnd data (initIrRawEventDuration pulse (RC6_UNIT + d)) =
      rc6Again rc6BodyBitStart { data with state := .bodyBitStart }
        (initIrRawEventDuration pulse d) := by
  unfold rc6BodyBitEnd RC6_BIT_END
  rw [if_neg h, Nat.one_mul, decreaseDuration_add]

/-- The second half of the last bit of the body. -/
theorem rc6BodyBitEnd_last {data : Rc6Dec} (h : data.count = data.wantedBits) (pulse : Bool) (d : ℕ) :
    rc6BodyBitEnd data (initIrRawEventDuration pulse (RC6_UNIT + d)) =
      rc6Again rc6Finished { data with state := .finished } (initIrRawEventDuration pulse d) := by
  unfold rc6BodyBitEnd RC6_BIT_END
  rw [if_pos h, Nat.one_mul, decreaseDuration_add]

/-! ## Header and body -/

/-- How the decoder takes the header bits behind the first one. -/
def rc6HeaderDemodulator : Demodulator irRc6Decode RC6_UNIT 4 Bool.toNat where
  Open m v data := v < 2 ^ m ∧ ∃ body toggle wantedBits,
    data = ⟨.headerBitStart, v, body, toggle, m, wantedBits⟩
  Pending ev m v data := v < 2 ^ m ∧ ∃ pulse body toggle wantedBits,
    ev = initIrRawEventDuration pulse RC6_UNIT ∧
      data = ⟨.headerBitEnd, v, body, toggle, m, wantedBits⟩
  close := by
    rintro ev m v data hm ⟨hv, pulse, body, toggle, wantedBits, rfl, rfl⟩
    refine ⟨_, ?_, hv, body, toggle, wantedBits, rfl⟩
    exact (irRc6Decode_add _ pulse 0).trans
      ((rc6HeaderBitEnd_add hm.ne pulse 0).trans (rc6Again_zero _ _ pulse))
  single := by
    rintro pulse m v data hm ⟨hv, body, toggle, wantedBits, rfl⟩
    have hlt : 2 * v < 2 ^ 8 := by
      have hpow : 2 ^ m ≤ 2 ^ 4 := Nat.pow_le_pow_right Nat.two_pos hm.le
      omega
    refine ⟨_, (irRc6Decode_add _ pulse 0).trans (rc6HeaderBitStart_unit _ pulse), ?_⟩
    rw [shiftLeft_one_lor hlt]
    exact ⟨two_mul_add_lt hv pulse, _, body, toggle, wantedBits, rfl, rfl⟩
  merged := by
    rintro ev m v data hm ⟨hv, pulse, body, toggle, wantedBits, rfl, rfl⟩
    have hlt : 2 * v < 2 ^ 8 := by
      have hpow : 2 ^ m ≤ 2 ^ 4 := Nat.pow_le_pow_right Nat.two_pos hm.le
      omega
    refine ⟨_, (irRc6Decode_add _ pulse RC6_UNIT).trans
      ((rc6HeaderBitEnd_add hm.ne pulse RC6_UNIT).trans
        ((rc6Again_add _ _ pulse 0).trans (rc6HeaderBitStart_unit _ pulse))), ?_⟩
    rw [shiftLeft_one_lor hlt]
    exact ⟨two_mul_add_lt hv pulse, _, body, toggle, wantedBits, rfl, rfl⟩

/-- The decoder in front of the second half of a bit of the body, or of the toggle bit. -/
inductive Rc6Pending (header wantedBits : ℕ) : IrRawEvent → ℕ → ℕ → Rc6Dec → Prop
  | bitEnd (pulse : Bool) {m v : ℕ} (hv : v < 2 ^ m) :
    Rc6Pending header wantedBits (initIrRawEventDuration pulse RC6_UNIT) m v
      ⟨.bodyBitEnd, header, v, false, m, wantedBits⟩
  | toggle (body count wanted : ℕ) :
    Rc6Pending header wantedBits (initIrRawEventDuration true (RC6_UNIT * 2)) 0 0
      ⟨.toggleEnd, header, body, false, count, wanted⟩

theorem rc6Pending_single {header wantedBits m v : ℕ} (hv : v < 2 ^ m) (hm : m < 32) (pulse : Bool) :
    Rc6Pending header wantedBits (initIrRawEventDuration (!pulse) RC6_UNIT) (m + 1)
      (2 * v + pulse.toNat) ⟨.bodyBitEnd, header, rc6Shift v pulse, false, m + 1, wantedBits⟩ := by
  have hlt : 2 * v < 2 ^ 32 := by
    have hpow : 2 ^ m ≤ 2 ^ 31 := Nat.pow_le_pow_right Nat.two_pos (by omega)
    omega
  have hshift : rc6Shift v pulse = 2 * v + pulse.toNat := by
    rw [← shiftLeft_one_lor hlt]
    cases pulse with
    | true => rfl
    | false => exact (Nat.or_zero _).symm
  rw [hshift]
  exact .bitEnd _ (two_mul_add_lt hv pulse)

/-- How the decoder takes the bits of a body. -/
def rc6Demodulator {header wantedBits limit : ℕ} (hheader : Rc6Header header wantedBits)
    (hwanted : limit ≤ wantedBits) (hlimit : limit ≤ 32) :
    Demodulator irRc6Decode RC6_UNIT limit Bool.toNat where
  Open m v data := v < 2 ^ m ∧ data = ⟨.bodyBitStart, header, v, false, m, wantedBits⟩
  Pending := Rc6Pending header wantedBits
  close := by
    rintro ev m v data hm (⟨pulse, hv⟩ | ⟨body, count, wanted⟩)
    · have hne : m ≠ wantedBits := by omega
      refine ⟨_, ?_, hv, rfl⟩
      exact (irRc6Decode_add _ pulse 0).trans
        ((rc6BodyBitEnd_add hne pulse 0).trans (rc6Again_zero _ _ pulse))
    · refine ⟨_, ?_, Nat.one_pos, rfl⟩
      rw [Nat.mul_two]
      refine (irRc6Decode_add _ true RC6_UNIT).trans ?_
      rw [← Nat.mul_two]
      exact (rc6ToggleEnd_add hheader body count wanted 0).trans (rc6Again_zero _ _ true)
  single := by
    rintro pulse m v data hm ⟨hv, rfl⟩
    have h32 : m < 32 := by omega
    exact ⟨_, (irRc6Decode_add _ pulse 0).trans (rc6BodyBitStart_unit h32 pulse),
      rc6Pending_single hv h32 pulse⟩
  merged := by
    rintro ev m v data hm (⟨pulse, hv⟩ | ⟨body, count, wanted⟩)
    · have hne : m ≠ wantedBits := by omega
      have h32 : m < 32 := by omega
      exact ⟨_, (irRc6Decode_add _ pulse RC6_UNIT).trans
        ((rc6BodyBitEnd_add hne pulse RC6_UNIT).trans
          ((rc6Again_add _ _ pulse 0).trans (rc6BodyBitStart_unit h32 pulse))),
        rc6Pending_single hv h32 pulse⟩
    · refine ⟨_, ?_, rc6Pending_single Nat.one_pos (by decide) true⟩
      have hduration : RC6_UNIT * 2 + RC6_UNIT = RC6_UNIT + (RC6_UNIT + RC6_UNIT) := by omega
      change irRc6Decode _ (initIrRawEventDuration true (RC6_UNIT * 2 + RC6_UNIT)) = _
      rw [hduration, irRc6Decode_add, ← hduration]
      exact (rc6ToggleEnd_add hheader body count wanted RC6_UNIT).trans
        ((rc6Again_add _ _ true 0).trans (rc6BodyBitStart_unit (Nat.zero_lt_succ 31) true))

/-! ## A frame -/

/-- Leader, header and toggle bit of a frame. -/
def rc6Start (header : ℕ) : List IrRawEvent :=
  manchester irRc6Timings₁ 1 0 (manchester irRc6Timings₀ RC6_HEADER_NBITS header [])

/-- The decoder behind the first half of the toggle bit. -/
theorem rc6Start_taken {header wantedBits : ℕ} (hheader : Rc6Header header wantedBits) {data : Rc6Dec}
    (hdata : data.state = .inactive) :
    ∃ ev evs data', rc6Start header = ev :: evs ∧ Taken irRc6Decode data evs data' ∧
      Rc6Pending header wantedBits ev 0 0 data' := by
  obtain ⟨_, header₀, body, toggle, count, wanted⟩ := data
  obtain rfl : _ = Rc6State.inactive := hdata
  obtain ⟨hpulse, hspace⟩ := irRc6Decode_leader header₀ body toggle count wanted
  have hleader : Taken irRc6Decode ⟨.inactive, header₀, body, toggle, count, wanted⟩
      (codeLeader irRc6Timings₀ []) ⟨.headerBitStart, 0, body, toggle, 0, wanted⟩ :=
    ((Taken.nil _).cons hpulse).cons hspace
  obtain ⟨data₁, hfirst, hpending₁⟩ := rc6HeaderDemodulator.single true 0 0 _ (by decide)
    ⟨Nat.one_pos, body, toggle, wanted, rfl⟩
  have hbit : ∀ b, Bool.toNat (!b ^^ true) = b.toNat := by decide
  obtain ⟨ev₂, evs₂, data₂, hbits, htaken₂, hpending₂⟩ := rc6HeaderDemodulator.codeBits
    (rfl : irRc6Timings₀.clock = _) hbit header 3 (hleader.cons hfirst) hpending₁ (by decide)
  obtain ⟨evs₂', hhead⟩ := codeBits_head irRc6Timings₀ header 2
    (initIrRawEventDuration (!true) RC6_UNIT :: initIrRawEventDuration true RC6_UNIT ::
      codeLeader irRc6Timings₀ [])
  obtain ⟨hv, pulse, body', toggle', wanted', hev, rfl⟩ := hpending₂
  have hlow : header.testBit 0 = false ∧ header.testBit 3 = true ∧
      2 ^ 3 * (2 * 0 + true.toNat) + header % 2 ^ 3 = header := by
    rcases hheader with ⟨rfl, -⟩ | ⟨rfl, -⟩ <;> decide
  obtain ⟨hlast, hstart, hvalue⟩ := hlow
  have hneed : needPulse irRc6Timings₀ header 0 = false := by
    unfold needPulse
    rw [hlast]
    rfl
  have hcodes : manchester irRc6Timings₀ RC6_HEADER_NBITS header [] = ev₂ :: evs₂ := by
    have hneed₃ : needPulse irRc6Timings₀ header 3 = true := by
      unfold needPulse
      rw [hstart]
      rfl
    change codeBits irRc6Timings₀ header 3 (codeBit RC6_UNIT (needPulse irRc6Timings₀ header 3)
      (codeLeader irRc6Timings₀ [])) = _
    rw [hneed₃]
    exact hbits
  obtain rfl : pulse = true := by
    rw [hhead] at hbits
    have hpulse := congrArg IrRawEvent.pulse ((List.cons.inj hbits).1.trans hev)
    rw [hneed] at hpulse
    exact hpulse.symm
  subst hev
  have hclose : irRc6Decode ⟨.headerBitEnd, 2 ^ 3 * (2 * 0 + true.toNat) + header % 2 ^ 3, body',
      toggle', 0 + 1 + 3, wanted'⟩ (initIrRawEventDuration true RC6_UNIT) = _ :=
    (irRc6Decode_add _ true 0).trans ((rc6HeaderBitEnd_last rfl true 0).trans (rc6Again_zero _ _ true))
  have htoggle := (irRc6Decode_add ⟨.toggleStart, 2 ^ 3 * (2 * 0 + true.toNat) + header % 2 ^ 3, body',
    toggle', 0 + 1 + 3, wanted'⟩ false RC6_UNIT).trans (rc6ToggleStart_two _ false)
  rw [← Nat.mul_two] at htoggle
  refine ⟨initIrRawEventDuration true (RC6_UNIT * 2), _, _, ?_, (htaken₂.cons hclose).cons htoggle, ?_⟩
  · unfold rc6Start
    rw [hcodes]
    rfl
  · rw [hvalue]
    exact .toggle body' _ wanted'

/-- The keys that the codes of a frame are decoded as. -/
def Rc6Decodes (header wantedBits n v : ℕ) (k : Keydown) : Prop :=
  ∀ ev : IrRawEvent, ev.pulse = false →
    rc6Finished ⟨.finished, header, v, false, n, wantedBits⟩ ev =
      (⟨.inactive, header, v, false, n, wantedBits⟩, .ok (some k))

theorem irRc6Decode_space_inactive (header body count wantedBits : ℕ) (toggle : Bool) (gap : ℕ) :
    irRc6Decode ⟨.inactive, header, body, toggle, count, wantedBits⟩ (initIrRawEventDuration false gap) =
      (⟨.inactive, header, body, toggle, count, wantedBits⟩, .error .EINVAL) := by
  unfold irRc6Decode
  rw [if_neg (isTimingEvent_init false gap)]
  split_ifs <;> rfl

/-- The trailer of mode 6A in front of a bit that does not come. -/
theorem rc6BodyBitStart_trailer {data : Rc6Dec} (hmode : rc6Mode data = .mode6A) :
    rc6BodyBitStart data (initIrRawEventDuration false (RC6_UNIT + RC6_UNIT * 5)) =
      rc6Finished { data with state := .finished }
        (initIrRawEventDuration false (RC6_UNIT + RC6_UNIT * 5)) := by
  have hunit : ¬ eqMargin (RC6_UNIT + RC6_UNIT * 5) RC6_BIT_START (RC6_UNIT / 2) := by decide
  have hsuffix : geqMargin (RC6_UNIT + RC6_UNIT * 5) RC6_SUFFIX_SPACE (RC6_UNIT / 2) := by decide
  unfold rc6BodyBitStart
  refine (if_neg hunit).trans ?_
  rw [if_pos ⟨hmode, rfl, hsuffix⟩, rc6Again_add]

/-- The end of a frame: all bits are there in mode 0, and a length that is known in mode 6A. -/
def Rc6Complete (header wantedBits n : ℕ) : Prop :=
  (header = 8 ∧ wantedBits = RC6_0_NBITS ∧ n = 16) ∨
    (header = 14 ∧ wantedBits = RC6_6A_NBITS ∧ n ≤ 32)

/-- The trailer, with the second half of the last bit in front of it or in it. -/
theorem irRc6Decode_trailer {header wantedBits n v : ℕ} {k : Keydown}
    (h : Rc6Complete header wantedBits n) (hdecodes : Rc6Decodes header wantedBits n v k) :
    (∃ data, irRc6Decode ⟨.bodyBitEnd, header, v, false, n, wantedBits⟩
          (initIrRawEventDuration true RC6_UNIT) = (data, .ok none) ∧
        irRc6Decode data (initIrRawEventDuration false (RC6_UNIT + RC6_UNIT * 5)) =
          (⟨.inactive, header, v, false, n, wantedBits⟩, .ok (some k))) ∧
      irRc6Decode ⟨.bodyBitEnd, header, v, false, n, wantedBits⟩
          (initIrRawEventDuration false (RC6_UNIT + (RC6_UNIT + RC6_UNIT * 5))) =
        (⟨.inactive, header, v, false, n, wantedBits⟩, .ok (some k)) := by
  have hfinished := hdecodes (initIrRawEventDuration false (RC6_UNIT + RC6_UNIT * 5)) rfl
  rcases h with ⟨rfl, rfl, rfl⟩ | ⟨rfl, rfl, hn⟩
  · refine ⟨⟨_, (irRc6Decode_add _ true 0).trans
      ((rc6BodyBitEnd_last rfl true 0).trans (rc6Again_zero _ _ true)), ?_⟩, ?_⟩
    · exact (irRc6Decode_add _ false _).trans hfinished
    · refine (irRc6Decode_add _ false _).trans ((rc6BodyBitEnd_last rfl false _).trans ?_)
      exact (rc6Again_add _ _ false _).trans hfinished
  · have hne : n ≠ RC6_6A_NBITS := by
      unfold RC6_6A_NBITS
      omega
    have hstart := (rc6BodyBitStart_trailer
      (@rc6Mode_mode6A ⟨.bodyBitStart, 14, v, false, n, RC6_6A_NBITS⟩ rfl rfl)).trans hfinished
    refine ⟨⟨_, (irRc6Decode_add _ true 0).trans
      ((rc6BodyBitEnd_add hne true 0).trans (rc6Again_zero _ _ true)), ?_⟩, ?_⟩
    · exact (irRc6Decode_add _ false _).trans hstart
    · refine (irRc6Decode_add _ false _).trans ((rc6BodyBitEnd_add hne false _).trans ?_)
      exact (rc6Again_add _ _ false _).trans hstart

/-- A frame is reported once. -/
theorem decodeAll_rc6Frame {header wantedBits n : ℕ} (h : Rc6Complete header wantedBits n) (hn : 0 < n)
    {bits : ℕ} {k : Keydown} (hdecodes : Rc6Decodes header wantedBits n (bits % 2 ^ n) k)
    {data : Rc6Dec} (hdata : data.state = .inactive) (gap : ℕ) :
    (decodeAll irRc6Decode data ((manchester irRc6Timings₂ n bits (rc6Start header)).reverse ++
      [initIrRawEventDuration false gap])).2 = [k] := by
  have hheader : Rc6Header header wantedBits :=
    h.imp (fun h => ⟨h.1, h.2.1⟩) fun h => ⟨h.1, h.2.1⟩
  have hlimit : n ≤ wantedBits ∧ n ≤ 32 := by
    rcases h with ⟨-, rfl, rfl⟩ | ⟨-, rfl, hn⟩
    · decide
    · exact ⟨hn.trans (by decide), hn⟩
  obtain ⟨ev, evs, data₁, hstart, htaken, hpending⟩ := rc6Start_taken hheader hdata
  have hbit : ∀ b, Bool.toNat (!b ^^ true) = b.toNat := by decide
  obtain ⟨ev', evs', data', hbits, htaken', hpending'⟩ :=
    (rc6Demodulator hheader hlimit.1 hlimit.2).codeBits (rfl : irRc6Timings₂.clock = _) hbit bits n
      htaken hpending (by omega)
  rw [Nat.mul_zero, Nat.zero_add, Nat.zero_add] at hpending'
  have hframe : manchester irRc6Timings₂ n bits (rc6Start header) =
      codeTrailer irRc6Timings₂ (ev' :: evs') := by
    rw [hstart]
    exact congrArg (codeTrailer irRc6Timings₂) hbits
  rw [hframe]
  generalize bits % 2 ^ n = v at hpending' hdecodes
  obtain ⟨pulse, hv⟩ | _ := hpending'
  · obtain ⟨⟨data₂, hclose, hsingle⟩, hmerged⟩ := irRc6Decode_trailer h hdecodes
    have hinactive := irRc6Decode_space_inactive header v n wantedBits false gap
    have hspace : RC6_SUFFIX_SPACE = RC6_UNIT + RC6_UNIT * 5 := rfl
    unfold codeTrailer
    rw [if_pos (by decide : irRc6Timings₂.trailerSpace ≠ 0)]
    change (decodeAll irRc6Decode data ((if pulse = true then
      initIrRawEventDuration false RC6_SUFFIX_SPACE :: initIrRawEventDuration pulse RC6_UNIT :: evs'
      else initIrRawEventDuration pulse (RC6_UNIT + RC6_SUFFIX_SPACE) :: evs').reverse ++ _)).2 = _
    rw [hspace]
    cases pulse with
    | true => exact (htaken'.cons hclose).report hsingle hinactive
    | false => exact htaken'.report hmerged hinactive
  · omega

/-! ## The round trip -/

/-- The variants that the decoder and the encoder have. -/
def Rc6Protocol (protocol : RcProto) : Prop :=
  protocol = .rc6_0 ∨ protocol = .rc6_6a20 ∨ protocol = .rc6_6a24 ∨ protocol = .rc6_6a32 ∨
    protocol = .rc6Mce

/-- The scancodes of 32 bits that are not MCE codes for `rc_validate_scancode`, but are for the
decoder. -/
def Rebranded (protocol : RcProto) (scancode : ℕ) : Prop :=
  protocol = .rc6_6a32 ∧ RebrandedCc scancode

instance (protocol : RcProto) (scancode : ℕ) : Decidable (Rebranded protocol scancode) :=
  inferInstanceAs (Decidable (_ ∧ _))

theorem writes_rc6Encode (header n scancode max : ℕ) :
    Writes (irRawGenManchester ⟨[], max⟩ irRc6Timings₀ RC6_HEADER_NBITS header >>= fun s =>
        irRawGenManchester s irRc6Timings₁ 1 0 >>= fun s =>
        irRawGenManchester s irRc6Timings₂ n scancode) ⟨[], max⟩
      (manchester irRc6Timings₂ n scancode (rc6Start header))
      (2 + (2 * RC6_HEADER_NBITS + 1) + (2 + (2 * 1 + 1) + (2 + (2 * n + 1)))) := by
  refine (irRawGenManchester_spec _ _ _ _).bind fun s hs => ?_
  have hsecond := irRawGenManchester_spec s irRc6Timings₁ 1 0
  rw [hs] at hsecond
  refine hsecond.bind fun s' hs' => ?_
  have hthird := irRawGenManchester_spec s' irRc6Timings₂ n scancode
  rw [hs'] at hthird
  exact hthird

/-- The frames of `header` with `n` bits are encoded where there is room, and decoded as one key. -/
theorem rc6Encode_decodes {header wantedBits n : ℕ} (h : Rc6Complete header wantedBits n) (hn : 0 < n)
    {scancode : ℕ} {k : Keydown} (hdecodes : Rc6Decodes header wantedBits n (scancode % 2 ^ n) k)
    {data : Rc6Dec} (hdata : data.state = .inactive) (gap : ℕ) :
    (∃ room, ∀ max, room ≤ max → ∃ events, rc6Encode header n scancode max = .ok events) ∧
      ∀ max events, rc6Encode header n scancode max = .ok events →
        (decodeAll irRc6Decode data (events ++ [initIrRawEventDuration false gap])).2 = [k] := by
  refine ⟨⟨_, fun max hmax => ⟨_, ((writes_rc6Encode header n scancode max).map_reverse).2 hmax⟩⟩, ?_⟩
  intro max events hevents
  rw [((writes_rc6Encode header n scancode max).map_reverse).1 events hevents]
  exact decodeAll_rc6Frame h hn hdecodes hdata gap

theorem rc6Decodes_mode0 (v : ℕ) : Rc6Decodes 8 RC6_0_NBITS 16 v ⟨.rc6_0, v, 0⟩ := by
  intro ev hev
  unfold rc6Finished
  rw [if_neg (Bool.eq_false_iff.mp hev), rc6Mode_mode0 rfl]
  rfl

theorem rc6Decodes_20 (v : ℕ) : Rc6Decodes 14 RC6_6A_NBITS 20 v ⟨.rc6_6a20, v, 0⟩ := by
  intro ev hev
  unfold rc6Finished
  rw [if_neg (Bool.eq_false_iff.mp hev), rc6Mode_mode6A rfl rfl]
  rfl

theorem rc6Decodes_24 (v : ℕ) : Rc6Decodes 14 RC6_6A_NBITS 24 v ⟨.rc6_6a24, v, 0⟩ := by
  intro ev hev
  unfold rc6Finished
  rw [if_neg (Bool.eq_false_iff.mp hev), rc6Mode_mode6A rfl rfl]
  rfl

/-- A code of 32 bits is an MCE code by its customer code. -/
theorem rc6Decodes_32 (v : ℕ) :
    ∃ toggle, Rc6Decodes 14 RC6_6A_NBITS 32 v
      (if v &&& RC6_6A_LCC_MASK = RC6_6A_MCE_CC ∨ RebrandedCc v then
        ⟨.rc6Mce, v &&& (RC6_6A_MCE_TOGGLE_MASK ^^^ 0xffffffff), toggle⟩
      else ⟨.rc6_6a32, v, 0⟩) := by
  refine ⟨if v &&& RC6_6A_MCE_TOGGLE_MASK ≠ 0 then 1 else 0, fun ev hev => ?_⟩
  unfold rc6Finished
  rw [if_neg (Bool.eq_false_iff.mp hev), rc6Mode_mode6A rfl rfl]
  dsimp only
  rw [if_neg (by decide : ¬ 32 < 32), if_neg (by decide : (32 : ℕ) ≠ 20),
    if_neg (by decide : (32 : ℕ) ≠ 24), if_pos rfl]
  unfold RebrandedCc
  split_ifs <;> rfl

/-- What is encoded is decoded, from whatever the decoder has left of earlier frames. -/
def Rc6RoundTrips (protocol : RcProto) (scancode : ℕ) : Prop :=
  ∀ data : Rc6Dec, data.state = .inactive → ∀ gap,
    (∃ room, ∀ max, room ≤ max → ∃ events, irRc6Encode protocol scancode max = .ok events) ∧
      ∀ max events, irRc6Encode protocol scancode max = .ok events →
        ∃ toggle, (decodeAll irRc6Decode data (events ++ [initIrRawEventDuration false gap])).2 =
          [⟨protocol, scancode, toggle⟩]

/-- A frame that is decoded as one key round trips exactly if it is that key. -/
theorem rc6RoundTrips_iff {protocol : RcProto} {scancode header wantedBits n : ℕ} {k : Keydown}
    (hencode : ∀ max, irRc6Encode protocol scancode max = rc6Encode header n scancode max)
    (h : Rc6Complete header wantedBits n) (hn : 0 < n)
    (hdecodes : Rc6Decodes header wantedBits n (scancode % 2 ^ n) k) :
    Rc6RoundTrips protocol scancode ↔ k.protocol = protocol ∧ k.scancode = scancode := by
  unfold Rc6RoundTrips
  simp only [hencode]
  constructor
  · intro htrips
    obtain ⟨⟨room, hroom⟩, hdecode⟩ := htrips ⟨.inactive, 0, 0, false, 0, 0⟩ rfl 0
    obtain ⟨events, hevents⟩ := hroom room (Nat.le_refl room)
    obtain ⟨toggle, hkeys⟩ := hdecode room events hevents
    rw [(rc6Encode_decodes h hn hdecodes rfl 0).2 room events hevents] at hkeys
    obtain ⟨rfl, -⟩ := List.cons.inj hkeys
    exact ⟨rfl, rfl⟩
  · rintro ⟨rfl, rfl⟩ data hdata gap
    obtain ⟨hroom, hdecode⟩ := rc6Encode_decodes h hn hdecodes hdata gap
    exact ⟨hroom, fun max events hevents => ⟨k.toggle, hdecode max events hevents⟩⟩

theorem mod_of_land {scancode n : ℕ} (h : scancode &&& (2 ^ n - 1) = scancode) :
    scancode % 2 ^ n = scancode :=
  (Nat.and_two_pow_sub_one_eq_mod scancode n).symm.trans h

/-- The codes of 32 bits. -/
theorem rc6RoundTrips_32 {protocol : RcProto} (hprotocol : protocol = .rc6_6a32 ∨ protocol = .rc6Mce)
    {scancode : ℕ} (hbits : InScancodeBits protocol scancode)
    (hvalid : rcValidateScancode protocol scancode = true) :
    Rc6RoundTrips protocol scancode ↔ ¬ Rebranded protocol scancode := by
  obtain ⟨toggle, hdecodes⟩ := rc6Decodes_32 (scancode % 2 ^ 32)
  rcases hprotocol with rfl | rfl
  · have hmod : scancode % 2 ^ 32 = scancode := mod_of_land hbits
    rw [rc6RoundTrips_iff (fun max => rfl) (Or.inr ⟨rfl, rfl, by decide⟩) (by decide) hdecodes, hmod]
    have hmce : scancode &&& RC6_6A_LCC_MASK ≠ RC6_6A_MCE_CC := bne_iff_ne.mp hvalid
    unfold Rebranded
    by_cases hcc : RebrandedCc scancode
    · rw [if_pos (Or.inr hcc)]
      exact ⟨fun h => (nomatch h.1), fun h => absurd ⟨rfl, hcc⟩ h⟩
    · rw [if_neg (not_or.mpr ⟨hmce, hcc⟩)]
      exact ⟨fun _ h => hcc h.2, fun _ => ⟨rfl, rfl⟩⟩
  · have hsub : scancode &&& 0xffff7fff = scancode := hbits
    have hle : scancode ≤ 0xffff7fff := hsub.symm.le.trans Nat.and_le_right
    have hmod : scancode % 2 ^ 32 = scancode := Nat.mod_eq_of_lt (by omega)
    rw [rc6RoundTrips_iff (fun max => rfl) (Or.inr ⟨rfl, rfl, by decide⟩) (by decide) hdecodes, hmod]
    have hmce : scancode &&& RC6_6A_LCC_MASK = RC6_6A_MCE_CC := beq_iff_eq.mp hvalid
    rw [if_pos (Or.inl hmce)]
    exact ⟨fun _ h => (nomatch h.1), fun _ => ⟨rfl, hsub⟩⟩

/-- **Decoder and validation agree** except on rebranded codes: every other valid scancode is decoded
as it has been encoded, and every key that is reported on any events is valid. -/
theorem irRc6_accepted_iff (protocol : RcProto) (scancode : ℕ) (data : Rc6Dec) (evs : List IrRawEvent) :
    (Rc6Protocol protocol → InScancodeBits protocol scancode →
      rcValidateScancode protocol scancode = true →
        (Rc6RoundTrips protocol scancode ↔ ¬ Rebranded protocol scancode)) ∧
    ∀ r ∈ rc6Reports data evs,
      (rcValidateScancode r.2.protocol r.2.scancode = true ↔ ¬ RebrandedBody r.1) := by
  refine ⟨fun hprotocol hbits hvalid => ?_, fun r hr => (rc6Reports_key hr).valid_iff⟩
  rcases hprotocol with rfl | rfl | rfl | rfl | rfl
  · rw [rc6RoundTrips_iff (fun max => rfl) (Or.inl ⟨rfl, rfl, rfl⟩) (by decide) (rc6Decodes_mode0 _)]
    exact ⟨fun _ h => (nomatch h.1), fun _ => ⟨rfl, mod_of_land hbits⟩⟩
  · rw [rc6RoundTrips_iff (fun max => rfl) (Or.inr ⟨rfl, rfl, by decide⟩) (by decide) (rc6Decodes_20 _)]
    exact ⟨fun _ h => (nomatch h.1), fun _ => ⟨rfl, mod_of_land hbits⟩⟩
  · rw [rc6RoundTrips_iff (fun max => rfl) (Or.inr ⟨rfl, rfl, by decide⟩) (by decide) (rc6Decodes_24 _)]
    exact ⟨fun _ h => (nomatch h.1), fun _ => ⟨rfl, mod_of_land hbits⟩⟩
  · exact rc6RoundTrips_32 (Or.inl rfl) hbits hvalid
  · exact rc6RoundTrips_32 (Or.inr rfl) hbits hvalid

theorem irRc6_accepted_mce : Rc6RoundTrips .rc6Mce 0x800f0404 :=
  ((irRc6_accepted_iff .rc6Mce 0x800f0404 ⟨.inactive, 0, 0, false, 0, 0⟩ []).1
    (by unfold Rc6Protocol; decide) (by decide) (by decide)).mpr (by decide)

/-- A valid code of 32 bits is decoded as an MCE code, which is not valid. -/
theorem not_irRc6_accepted_kathrein :
    ∃ events, irRc6Encode .rc6_6a32 0x80460001 100 = .ok events ∧
      rcValidateScancode .rc6_6a32 0x80460001 = true ∧
      (decodeAll irRc6Decode ⟨.inactive, 0, 0, false, 0, 0⟩
        (events ++ [initIrRawEventDuration false 20000000])).2 = [⟨.rc6Mce, 0x80460001, 0⟩] ∧
      rcValidateScancode .rc6Mce 0x80460001 = false := by
  refine ⟨_, rfl, ?_, ?_, ?_⟩ <;> decide +kernel

end Rc
end TbsMedia
