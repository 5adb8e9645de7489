import TbsMedia.Rc.RawGen

/-!
# Receivers of single bits

A decoder that takes a pulse and a space for every bit shifts the bit into its register.  In between it
waits in a state that depends only on how many bits it has and what is in the register.

* `Report`: what a decoder tells the core.
* `reportAll`: the reports on a sequence of events.
* `BitReceiver.bits`: how a decoder takes the bits of a frame.
-/

namespace TbsMedia
namespace Rc

open Lib

/-! ## Reports -/

/-- What a decoder tells the core: `rc_keydown`, or `rc_repeat`. -/
inductive Report where
  | keydown (k : Keydown)
  | again
  deriving DecidableEq, Repr

variable {δ ρ : Type*} {decode : δ → IrRawEvent → δ × Except Errno (List ρ)}

/-- The events of an array, in the order they have been written in. -/
def reportAll (decode : δ → IrRawEvent → δ × Except Errno (List ρ)) : δ → List IrRawEvent → δ × List ρ
  | data, [] => (data, [])
  | data, ev :: evs =>
    match decode data ev with
    | (data', .ok reports) => ((reportAll decode data' evs).1, reports ++ (reportAll decode data' evs).2)
    | (data', .error _) => reportAll decode data' evs

theorem reportAll_append (data : δ) (evs evs' : List IrRawEvent) :
    reportAll decode data (evs ++ evs') =
      ((reportAll decode (reportAll decode data evs).1 evs').1,
        (reportAll decode data evs).2 ++ (reportAll decode (reportAll decode data evs).1 evs').2) := by
  induction evs generalizing data with
  | nil => rfl
  | cons ev evs ih =>
    rw [List.cons_append, reportAll, reportAll]
    obtain ⟨data', _ | reports⟩ := decode data ev
    · exact ih data'
    · dsimp only
      rw [ih, List.append_assoc]

/-- The decoder takes some events and makes these reports. -/
def Takes (decode : δ → IrRawEvent → δ × Except Errno (List ρ)) (data : δ) (evs : List IrRawEvent)
    (data' : δ) (reports : List ρ) : Prop :=
  reportAll decode data evs = (data', reports)

theorem takes_nil (data : δ) : Takes decode data [] data [] := rfl

theorem takes_single {data data' : δ} {ev : IrRawEvent} {reports : List ρ}
    (h : decode data ev = (data', .ok reports)) : Takes decode data [ev] data' reports := by
  unfold Takes reportAll
  rw [h]
  exact congrArg _ (List.append_nil reports)

/-- An event that is an error makes no report. -/
theorem takes_error {data data' : δ} {ev : IrRawEvent} {e : Errno} (h : decode data ev = (data', .error e)) :
    Takes decode data [ev] data' [] := by
  unfold Takes reportAll
  rw [h]
  rfl

theorem Takes.append {data data' data'' : δ} {evs evs' : List IrRawEvent} {reports reports' : List ρ}
    (h : Takes decode data evs data' reports) (h' : Takes decode data' evs' data'' reports') :
    Takes decode data (evs ++ evs') data'' (reports ++ reports') := by
  unfold Takes at *
  rw [reportAll_append, h]
  dsimp only
  rw [h']

/-- Events that are taken one after the other without a report. -/
theorem Takes.cons {data data' data'' : δ} {ev : IrRawEvent} {evs : List IrRawEvent} {reports : List ρ}
    (h : decode data ev = (data', .ok [])) (h' : Takes decode data' evs data'' reports) :
    Takes decode data (ev :: evs) data'' reports :=
  (takes_single h).append h'

/-! ## Bits -/

/-- `bitrev8`. -/
def bitrev8 (x : ℕ) : ℕ := bitrev 8 x

/-- `bitrev16`. -/
def bitrev16 (x : ℕ) : ℕ := bitrev 16 x

theorem land_byte (x : ℕ) : x &&& 0xff = x % 2 ^ 8 := Nat.and_two_pow_sub_one_eq_mod x 8

/-- A decoder that takes the events of `code b` for a bit `b`, up to `n` of them, with its register of `w`
bits.  `opened m v` is what it is with `m` bits taken and `v` in the register. -/
structure BitReceiver (decode : δ → IrRawEvent → δ × Except Errno (List ρ)) (code : Bool → List IrRawEvent)
    (w n : ℕ) (opened : ℕ → ℕ → δ) : Prop where
  bit : ∀ m v b, m < n → Takes decode (opened m v) (code b) (opened (m + 1) (shiftIn w v b)) []

/-- **A receiver takes the bits** of a frame. -/
theorem BitReceiver.bits {code : Bool → List IrRawEvent} {w n : ℕ} {opened : ℕ → ℕ → δ}
    (rec : BitReceiver decode code w n opened) (bs : List Bool) {m : ℕ} (hm : m + bs.length ≤ n) (v : ℕ) :
    Takes decode (opened m v) (bs.flatMap code) (opened (m + bs.length) (shiftAll w v bs)) [] := by
  induction bs generalizing m v with
  | nil => exact takes_nil _
  | cons b bs ih =>
    rw [List.length_cons] at hm
    have hrest := ih (m := m + 1) (by omega) (shiftIn w v b)
    rw [List.flatMap_cons, List.length_cons, shiftAll_cons, Nat.add_comm bs.length, ← Nat.add_assoc]
    exact (rec.bit m v b (by omega)).append hrest

/-- **A receiver takes a frame** in pulse distance code: behind the header it is ready for the first bit,
and what it makes of the trailer depends on the register. -/
theorem BitReceiver.pdFrame {timings : TimingsPd} {w n : ℕ} {opened : ℕ → ℕ → δ} {data : δ} {v : ℕ}
    {closed : ℕ → δ} {reports : ℕ → List ρ}
    (rec : BitReceiver decode (fun b => pulseSpace timings.bitPulse (timings.bitSpace b)) w n opened)
    (hheader : Takes decode data (if timings.headerPulse ≠ 0 then
      pulseSpace timings.headerPulse timings.headerSpace else []) (opened 0 v) [])
    (htrailer : ∀ v, Takes decode (opened n v) (pulseSpace timings.trailerPulse timings.trailerSpace)
      (closed v) (reports v)) (raw : ℕ) :
    Takes decode data (pdFrame timings n raw)
      (closed (shiftAll w v (bitOrder timings.msbFirst raw n)))
      (reports (shiftAll w v (bitOrder timings.msbFirst raw n))) := by
  have hbits := rec.bits (bitOrder timings.msbFirst raw n) (m := 0) (by rw [length_bitOrder]; omega) v
  rw [length_bitOrder, Nat.zero_add] at hbits
  exact hheader.append (hbits.append (htrailer _))

/-! ## Round trips -/

/-- **A round trip**: the scancode is encoded where there is room, and its frame with a space behind it is
decoded as one key, the one that it has been encoded from, from whatever the decoder has left of earlier
frames. -/
def RoundTrips (decode : δ → IrRawEvent → δ × Except Errno (List Report)) (inactive : δ → Prop)
    (encode : ℕ → Encoding) (protocol : RcProto) (scancode : ℕ) : Prop :=
  (∃ room, ∀ max, room ≤ max → ∃ events, (encode max).events = .ok events) ∧
    ∀ data, inactive data → ∀ gap max events, (encode max).events = .ok events → ∃ toggle,
      (reportAll decode data (events ++ [initIrRawEventDuration false gap])).2 =
        [.keydown ⟨protocol, scancode, toggle⟩]

/-- A frame that is written whole or not at all round trips if the decoder reports it. -/
theorem roundTrips_of_events {decode : δ → IrRawEvent → δ × Except Errno (List Report)}
    {inactive : δ → Prop} {encode : ℕ → Encoding} {evs : List IrRawEvent} {protocol : RcProto}
    {scancode : ℕ} (hroom : ∃ room, ∀ max, room ≤ max → (encode max).events = .ok evs)
    (hevents : ∀ max events, (encode max).events = .ok events → events = evs)
    (hframe : ∀ data, inactive data → ∀ gap, ∃ data' toggle, Takes decode data
      (evs ++ [initIrRawEventDuration false gap]) data' [.keydown ⟨protocol, scancode, toggle⟩]) :
    RoundTrips decode inactive encode protocol scancode := by
  obtain ⟨room, hroom⟩ := hroom
  refine ⟨⟨room, fun max hmax => ⟨evs, hroom max hmax⟩⟩, ?_⟩
  intro data hdata gap max events hev
  obtain ⟨data', toggle, htakes⟩ := hframe data hdata gap
  rw [hevents max events hev, htakes]
  exact ⟨toggle, rfl⟩

/-- A frame of one generator round trips if the decoder reports it. -/
theorem roundTrips_of_emits {decode : δ → IrRawEvent → δ × Except Errno (List Report)}
    {inactive : δ → Prop} {f : Fill} {evs : List IrRawEvent} {protocol : RcProto} {scancode : ℕ}
    (hemits : Emits f evs)
    (hframe : ∀ data, inactive data → ∀ gap, ∃ data' toggle, Takes decode data
      (evs ++ [initIrRawEventDuration false gap]) data' [.keydown ⟨protocol, scancode, toggle⟩]) :
    RoundTrips decode inactive (encodeWith f) protocol scancode :=
  roundTrips_of_events ⟨evs.length, fun _ hmax => (encodeWith_of_emits hemits).2 hmax⟩
    (fun _ => (encodeWith_of_emits hemits).1) hframe

end Rc
end TbsMedia
