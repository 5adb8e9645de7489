import TbsMedia.Lib.ShiftRegister
import TbsMedia.Rc.Manchester

/-!
# The generators of raw events

The generators of `rc-ir-raw.c` fill an array for which they count down the room.  Where the room runs out
in the middle of a frame, they leave what they have written.

* `Fill`: a generator, with the array it leaves in either case.
* `irRawGenPd`, `irRawGenPl`: pulse distance and pulse length.
* `Fills`: a generator that writes a frame exactly if there is room for it.
* `Encoding`: what an encoder writes and returns.
-/

namespace TbsMedia
namespace Rc

open Lib

/-! ## Filling an array -/

/-- A generator: what it makes of the array, and what it returns. -/
abbrev Fill := RawEvents → RawEvents × Except Errno Unit

namespace Fill

/-- A generator that writes nothing. -/
def done : Fill := fun s => (s, .ok ())

/-- One generator behind the other, unless the first fails. -/
def andThen (f g : Fill) : Fill := fun s =>
  match f s with
  | (s', .ok ()) => g s'
  | (s', .error e) => (s', .error e)

/-- One more event, if there is room. -/
def push (pulse : Bool) (duration : ℕ) : Fill := fun s =>
  if s.max = 0 then (s, .error .ENOBUFS)
  else (⟨initIrRawEventDuration pulse duration :: s.ev, s.max - 1⟩, .ok ())

/-- `(*ev)->duration += duration`. -/
def prolong (duration : ℕ) : Fill := fun s => (⟨Rc.prolong duration s.ev, s.max⟩, .ok ())

/-- What a caller sees that does not look at the array of a generator that has failed. -/
def toExcept (f : Fill) (s : RawEvents) : Except Errno RawEvents :=
  match f s with
  | (s', .ok ()) => .ok s'
  | (_, .error e) => .error e

theorem toExcept_andThen (f g : Fill) (s : RawEvents) :
    (f.andThen g).toExcept s = f.toExcept s >>= g.toExcept := by
  unfold toExcept andThen
  obtain ⟨s', _ | _⟩ := f s <;> rfl

theorem toExcept_push (pulse : Bool) (duration : ℕ) (s : RawEvents) :
    (push pulse duration).toExcept s = s.push pulse duration := by
  unfold toExcept push RawEvents.push
  split_ifs <;> rfl

end Fill

/-! ## Manchester code -/

/-- A half bit, which prolongs the last event if it is alike. -/
def fillHalf (pulse : Bool) (clock : ℕ) : Fill := fun s =>
  if pulse = lastPulse s.ev then Fill.prolong clock s else Fill.push pulse clock s

/-- The loop of `ir_raw_gen_manchester`, with the array it leaves. -/
def fillBits (timings : Timings) (data : ℕ) : ℕ → Fill
  | 0 => .done
  | n + 1 => (fillHalf (needPulse timings data n) timings.clock).andThen
      ((Fill.push (!needPulse timings data n) timings.clock).andThen (fillBits timings data n))

/-- The leader of Manchester code. -/
def fillLeader (timings : Timings) : Fill :=
  if timings.leaderPulse ≠ 0 then
    (Fill.push true timings.leaderPulse).andThen
      (if timings.leaderSpace ≠ 0 then .push false timings.leaderSpace else .done)
  else .done

/-- The trailer of Manchester code. -/
def fillTrailer (timings : Timings) : Fill := fun s =>
  if timings.trailerSpace ≠ 0 then fillHalf false timings.trailerSpace s else Fill.done s

/-- `ir_raw_gen_manchester`, with the array it leaves. -/
def fillManchester (timings : Timings) (n data : ℕ) : Fill :=
  (fillLeader timings).andThen ((fillBits timings data n).andThen (fillTrailer timings))

/-! ## Pulse distance and pulse length -/

/-- `ir_raw_gen_pulse_space`. -/
def irRawGenPulseSpace (pulseWidth spaceWidth : ℕ) : Fill :=
  (Fill.push true pulseWidth).andThen (.push false spaceWidth)

/-- `struct ir_raw_timings_pd`. -/
structure TimingsPd where
  headerPulse : ℕ
  headerSpace : ℕ
  bitPulse : ℕ
  bitSpace : Bool → ℕ
  trailerPulse : ℕ
  trailerSpace : ℕ
  msbFirst : Bool

/-- The bits of the data in the order they are sent in. -/
def bitOrder (msbFirst : Bool) (data n : ℕ) : List Bool :=
  if msbFirst then msbBits data n else lsbBits data n

/-- The loops of `ir_raw_gen_pd`. -/
def genPdBits (timings : TimingsPd) : List Bool → Fill
  | [] => .done
  | b :: bs => (irRawGenPulseSpace timings.bitPulse (timings.bitSpace b)).andThen (genPdBits timings bs)

/-- `ir_raw_gen_pd`. -/
def irRawGenPd (timings : TimingsPd) (n data : ℕ) : Fill :=
  (if timings.headerPulse ≠ 0 then irRawGenPulseSpace timings.headerPulse timings.headerSpace
    else .done).andThen
    ((genPdBits timings (bitOrder timings.msbFirst data n)).andThen
      (irRawGenPulseSpace timings.trailerPulse timings.trailerSpace))

/-- `struct ir_raw_timings_pl`. -/
structure TimingsPl where
  headerPulse : ℕ
  bitSpace : ℕ
  bitPulse : Bool → ℕ
  trailerSpace : ℕ
  msbFirst : Bool

/-- The loops of `ir_raw_gen_pl`. -/
def genPlBits (timings : TimingsPl) : List Bool → Fill
  | [] => .done
  | b :: bs => (Fill.push false timings.bitSpace).andThen
      ((Fill.push true (timings.bitPulse b)).andThen (genPlBits timings bs))

/-- `ir_raw_gen_pl`. -/
def irRawGenPl (timings : TimingsPl) (n data : ℕ) : Fill :=
  (Fill.push true timings.headerPulse).andThen
    ((genPlBits timings (bitOrder timings.msbFirst data n)).andThen (.push false timings.trailerSpace))

/-! ## Frames that fit -/

/-- The generator turns the array into `ev` if there is room for that; else it fails, and has used up the
room. -/
def Fills (f : Fill) (s : RawEvents) (ev : List IrRawEvent) : Prop :=
  s.ev.length ≤ ev.length ∧
    (ev.length ≤ s.ev.length + s.max → f s = (⟨ev, s.ev.length + s.max - ev.length⟩, .ok ())) ∧
    (s.ev.length + s.max < ev.length →
      ∃ ev', f s = (⟨ev', 0⟩, .error .ENOBUFS) ∧ ev'.length = s.ev.length + s.max)

theorem fills_done (s : RawEvents) : Fills .done s s.ev := by
  refine ⟨Nat.le_refl _, fun _ => ?_, fun h => absurd h (by omega)⟩
  rw [Nat.add_sub_cancel_left]
  rfl

theorem fills_push (pulse : Bool) (duration : ℕ) (s : RawEvents) :
    Fills (.push pulse duration) s (initIrRawEventDuration pulse duration :: s.ev) := by
  refine ⟨Nat.le_succ _, fun h => ?_, fun h => ?_⟩
  · rw [List.length_cons] at h ⊢
    rw [Nat.add_sub_add_left]
    exact if_neg (by omega)
  · rw [List.length_cons] at h
    obtain ⟨ev, max⟩ := s
    obtain rfl : max = 0 := by
      dsimp only at h
      omega
    exact ⟨ev, rfl, rfl⟩

@[simp] theorem length_prolong (duration : ℕ) (ev : List IrRawEvent) :
    (Rc.prolong duration ev).length = ev.length := by
  cases ev <;> rfl

theorem fills_prolong (duration : ℕ) (s : RawEvents) :
    Fills (.prolong duration) s (Rc.prolong duration s.ev) := by
  unfold Fills
  rw [length_prolong]
  refine ⟨Nat.le_refl _, fun _ => ?_, fun h => absurd h (by omega)⟩
  rw [Nat.add_sub_cancel_left]
  rfl

theorem Fills.congr {f g : Fill} {s : RawEvents} {ev : List IrRawEvent} (hf : Fills f s ev) (h : f s = g s) :
    Fills g s ev := by
  unfold Fills at *
  rwa [← h]

theorem Fills.congr_events {f : Fill} {s : RawEvents} {ev ev' : List IrRawEvent} (hf : Fills f s ev)
    (h : ev = ev') : Fills f s ev' :=
  h ▸ hf

/-- Generators one behind the other. -/
theorem Fills.andThen {f g : Fill} {s : RawEvents} {ev ev' : List IrRawEvent} (hf : Fills f s ev)
    (hg : ∀ max, Fills g ⟨ev, max⟩ ev') : Fills (f.andThen g) s ev' := by
  obtain ⟨hle, hfit, hfull⟩ := hf
  have hle' := (hg 0).1
  dsimp only at hle'
  refine ⟨hle.trans hle', fun h => ?_, fun h => ?_⟩
  · unfold Fill.andThen
    rw [hfit (by omega)]
    dsimp only
    rw [(hg _).2.1 (by dsimp only; omega)]
    refine congrArg (fun n => ((⟨ev', n⟩ : RawEvents), Except.ok ())) ?_
    dsimp only
    omega
  · unfold Fill.andThen
    by_cases hroom : ev.length ≤ s.ev.length + s.max
    · rw [hfit hroom]
      obtain ⟨ev'', hev, hlen⟩ := (hg (s.ev.length + s.max - ev.length)).2.2 (by dsimp only; omega)
      dsimp only at hlen ⊢
      exact ⟨ev'', hev, by omega⟩
    · obtain ⟨ev'', hev, hlen⟩ := hfull (by omega)
      rw [hev]
      exact ⟨ev'', rfl, hlen⟩

/-- The events with one more half bit. -/
def withHalf (clock : ℕ) (ev : List IrRawEvent) (pulse : Bool) : List IrRawEvent :=
  if pulse = lastPulse ev then Rc.prolong clock ev else initIrRawEventDuration pulse clock :: ev

theorem fills_half (pulse : Bool) (clock : ℕ) (s : RawEvents) :
    Fills (fillHalf pulse clock) s (withHalf clock s.ev pulse) := by
  unfold withHalf
  by_cases h : pulse = lastPulse s.ev
  · rw [if_pos h]
    exact (fills_prolong clock s).congr (if_pos h).symm
  · rw [if_neg h]
    exact (fills_push pulse clock s).congr (if_neg h).symm

/-- **What `ir_raw_gen_manchester` writes**, where there is room for it. -/
theorem fills_manchester (timings : Timings) (n data : ℕ) (s : RawEvents) :
    Fills (fillManchester timings n data) s (manchester timings n data s.ev) := by
  have hbits : ∀ n ev max, Fills (fillBits timings data n) ⟨ev, max⟩ (codeBits timings data n ev) := fun n => by
    induction n with
    | zero => exact fun ev max => fills_done ⟨ev, max⟩
    | succ n ih => exact fun ev max => (fills_half _ _ ⟨ev, max⟩).andThen fun max =>
        (fills_push _ _ ⟨_, max⟩).andThen fun max => ih _ max
  have hleader : Fills (fillLeader timings) s (codeLeader timings s.ev) := by
    unfold fillLeader codeLeader
    split_ifs
    · exact (fills_push true _ s).andThen fun max => fills_push false _ ⟨_, max⟩
    · exact (fills_push true _ s).andThen fun max => fills_done ⟨_, max⟩
    · exact fills_done s
  have htrailer : ∀ ev max, Fills (fillTrailer timings) ⟨ev, max⟩ (codeTrailer timings ev) := fun ev max => by
    have hhalf := fills_half false timings.trailerSpace ⟨ev, max⟩
    unfold codeTrailer
    split_ifs with h hpulse
    · refine hhalf.congr (if_pos h).symm |>.congr_events (if_neg ?_)
      rw [hpulse]
      exact nofun
    · refine hhalf.congr (if_pos h).symm |>.congr_events (if_pos ?_)
      exact (Bool.eq_false_iff.2 hpulse).symm
    · exact (fills_done ⟨ev, max⟩).congr (if_neg h).symm
  exact hleader.andThen fun max => (hbits n _ max).andThen fun max => htrailer _ max

theorem toExcept_fillHalf (pulse : Bool) (clock : ℕ) (s : RawEvents) : (fillHalf pulse clock).toExcept s =
    if pulse = lastPulse s.ev then .ok { s with ev := prolong clock s.ev } else s.push pulse clock := by
  unfold Fill.toExcept fillHalf
  split_ifs
  · rfl
  · exact Fill.toExcept_push pulse clock s

/-- The generator is the one that keeps the array where it fails. -/
theorem toExcept_fillManchester (timings : Timings) (n data : ℕ) (s : RawEvents) :
    (fillManchester timings n data).toExcept s = irRawGenManchester s timings n data := by
  have hbits : ∀ n s, (fillBits timings data n).toExcept s = genBits timings data n s := fun n => by
    induction n with
    | zero => exact fun s => rfl
    | succ n ih =>
      intro s
      rw [fillBits, genBits, Fill.toExcept_andThen]
      refine congrArg₂ _ (toExcept_fillHalf _ _ s) (funext fun s => ?_)
      · rw [Fill.toExcept_andThen, Fill.toExcept_push]
        exact congrArg _ (funext ih)
  unfold fillManchester irRawGenManchester
  rw [Fill.toExcept_andThen]
  refine congrArg₂ _ ?_ (funext fun s => ?_)
  · unfold fillLeader
    split_ifs
    · rw [Fill.toExcept_andThen, Fill.toExcept_push]
      exact congrArg _ (funext fun s => Fill.toExcept_push _ _ s)
    · rw [Fill.toExcept_andThen, Fill.toExcept_push]
      rfl
    · rfl
  · rw [Fill.toExcept_andThen, hbits]
    refine congrArg _ (funext fun s => ?_)
    have htrailer : (fillTrailer timings).toExcept s = if timings.trailerSpace ≠ 0 then
        (fillHalf false timings.trailerSpace).toExcept s else .ok s := by
      unfold fillTrailer Fill.toExcept
      beta_reduce
      split_ifs <;> rfl
    rw [htrailer, toExcept_fillHalf]
    cases lastPulse s.ev <;> rfl

/-! ## The frames -/

/-- A pulse and the space behind it. -/
def pulseSpace (pulse space : ℕ) : List IrRawEvent :=
  [initIrRawEventDuration true pulse, initIrRawEventDuration false space]

/-- A generator that writes some events, whatever there is in the array. -/
def Emits (f : Fill) (evs : List IrRawEvent) : Prop := ∀ s, Fills f s (evs.reverse ++ s.ev)

theorem emits_done : Emits .done [] := fills_done

theorem emits_push (pulse : Bool) (duration : ℕ) :
    Emits (.push pulse duration) [initIrRawEventDuration pulse duration] :=
  fills_push pulse duration

theorem Emits.andThen {f g : Fill} {evs evs' : List IrRawEvent} (hf : Emits f evs) (hg : Emits g evs') :
    Emits (f.andThen g) (evs ++ evs') := fun s => by
  rw [List.reverse_append, List.append_assoc]
  exact (hf s).andThen fun max => hg ⟨_, max⟩

theorem emits_pulseSpace (pulse space : ℕ) : Emits (irRawGenPulseSpace pulse space) (pulseSpace pulse space) :=
  (emits_push true pulse).andThen (emits_push false space)

/-- The bits of a frame in pulse distance code. -/
def pdBits (timings : TimingsPd) (bs : List Bool) : List IrRawEvent :=
  bs.flatMap fun b => pulseSpace timings.bitPulse (timings.bitSpace b)

/-- A frame in pulse distance code. -/
def pdFrame (timings : TimingsPd) (n data : ℕ) : List IrRawEvent :=
  (if timings.headerPulse ≠ 0 then pulseSpace timings.headerPulse timings.headerSpace else []) ++
    (pdBits timings (bitOrder timings.msbFirst data n) ++
      pulseSpace timings.trailerPulse timings.trailerSpace)

theorem emits_pdBits (timings : TimingsPd) (bs : List Bool) : Emits (genPdBits timings bs) (pdBits timings bs) := by
  induction bs with
  | nil => exact emits_done
  | cons b bs ih => exact (emits_pulseSpace _ _).andThen ih

/-- **What `ir_raw_gen_pd` writes.** -/
theorem emits_pdFrame (timings : TimingsPd) (n data : ℕ) :
    Emits (irRawGenPd timings n data) (pdFrame timings n data) := by
  unfold irRawGenPd pdFrame
  refine Emits.andThen ?_ ((emits_pdBits _ _).andThen (emits_pulseSpace _ _))
  split_ifs
  · exact emits_pulseSpace _ _
  · exact emits_done

/-- The bits of a frame in pulse length code. -/
def plBits (timings : TimingsPl) (bs : List Bool) : List IrRawEvent :=
  bs.flatMap fun b => [initIrRawEventDuration false timings.bitSpace,
    initIrRawEventDuration true (timings.bitPulse b)]

/-- A frame in pulse length code. -/
def plFrame (timings : TimingsPl) (n data : ℕ) : List IrRawEvent :=
  initIrRawEventDuration true timings.headerPulse ::
    (plBits timings (bitOrder timings.msbFirst data n) ++ [initIrRawEventDuration false timings.trailerSpace])

theorem emits_plBits (timings : TimingsPl) (bs : List Bool) : Emits (genPlBits timings bs) (plBits timings bs) := by
  induction bs with
  | nil => exact emits_done
  | cons b bs ih => exact (emits_push _ _).andThen ((emits_push _ _).andThen ih)

/-- **What `ir_raw_gen_pl` writes.** -/
theorem emits_plFrame (timings : TimingsPl) (n data : ℕ) :
    Emits (irRawGenPl timings n data) (plFrame timings n data) :=
  (emits_push _ _).andThen ((emits_plBits _ _).andThen (emits_push _ _))

theorem length_pdBits (timings : TimingsPd) (bs : List Bool) : (pdBits timings bs).length = 2 * bs.length := by
  induction bs with
  | nil => rfl
  | cons b bs ih =>
    change (pulseSpace _ _ ++ pdBits timings bs).length = _
    rw [List.length_append, ih, List.length_cons]
    change 2 + _ = _
    omega

@[simp] theorem length_bitOrder (msbFirst : Bool) (data n : ℕ) : (bitOrder msbFirst data n).length = n := by
  unfold bitOrder
  split_ifs
  · exact length_msbBits data n
  · exact length_lsbBits data n

theorem length_pdFrame (timings : TimingsPd) (n data : ℕ) : (pdFrame timings n data).length =
    (if timings.headerPulse ≠ 0 then 2 else 0) + (2 * n + 2) := by
  unfold pdFrame
  rw [List.length_append, List.length_append, length_pdBits, length_bitOrder, apply_ite List.length]
  rfl

/-! ## Encoders -/

/-- What an encoder has written to its array when it returns, and what it returns: the number of events
that are the frame. -/
structure Encoding where
  written : List IrRawEvent
  ret : Except Errno ℕ

/-- `return e - events`. -/
def encodeWith (f : Fill) (max : ℕ) : Encoding where
  written := (f ⟨[], max⟩).1.ev.reverse
  ret := (f ⟨[], max⟩).2.map fun _ => (f ⟨[], max⟩).1.ev.length

/-- The events that the caller is told of. -/
def Encoding.events (e : Encoding) : Except Errno (List IrRawEvent) := e.ret.map e.written.take

/-- **An encoder that fills its array** with a frame. -/
theorem encodeWith_of_fills {f : Fill} {max : ℕ} {ev : List IrRawEvent} (h : Fills f ⟨[], max⟩ ev) :
    (ev.length ≤ max → encodeWith f max = ⟨ev.reverse, .ok ev.length⟩) ∧
      (max < ev.length →
        (encodeWith f max).ret = .error .ENOBUFS ∧ (encodeWith f max).written.length = max) := by
  obtain ⟨-, hfit, hfull⟩ := h
  rw [List.length_nil, Nat.zero_add] at hfit hfull
  unfold encodeWith
  constructor
  · intro hle
    rw [hfit hle]
    rfl
  · intro hlt
    obtain ⟨ev', hev, hlen⟩ := hfull hlt
    rw [hev]
    exact ⟨rfl, List.length_reverse.trans hlen⟩

/-- What the caller is told of is what is left of the array where nothing fails. -/
theorem encodeWith_events (f : Fill) (max : ℕ) :
    (encodeWith f max).events = (f.toExcept ⟨[], max⟩).map fun s => s.ev.reverse := by
  unfold encodeWith Encoding.events Fill.toExcept
  obtain ⟨⟨ev, room⟩, _ | _⟩ := f ⟨[], max⟩
  · rfl
  · refine congrArg Except.ok ?_
    dsimp only
    rw [← List.length_reverse, List.take_length]

/-- A frame that is written as it stands is what the caller is told of. -/
theorem encodeWith_of_emits {f : Fill} {evs : List IrRawEvent} (h : Emits f evs) {max : ℕ} :
    (∀ events, (encodeWith f max).events = .ok events → events = evs) ∧
      (evs.length ≤ max → (encodeWith f max).events = .ok evs) := by
  have hfills := h ⟨[], max⟩
  rw [List.append_nil] at hfills
  obtain ⟨hfit, hfull⟩ := encodeWith_of_fills hfills
  rw [List.length_reverse, List.reverse_reverse] at hfit
  rw [List.length_reverse] at hfull
  have hevents : evs.length ≤ max → (encodeWith f max).events = .ok evs := fun hle => by
    rw [hfit hle]
    exact congrArg Except.ok (List.take_length)
  refine ⟨fun events hev => ?_, hevents⟩
  by_cases hle : evs.length ≤ max
  · exact Except.ok.inj (hev.symm.trans (hevents hle))
  · unfold Encoding.events at hev
    rw [(hfull (Nat.lt_of_not_le hle)).1] at hev
    exact nomatch hev

end Rc
end TbsMedia
