import TbsMedia.Rc.RcMain
import Mathlib.Tactic.Ring

/-!
# Raw events and Manchester code

An infrared signal is a sequence of pulses and spaces.  In Manchester code a bit is a pulse and a
space of one clock each, in an order that says which bit it is; where two pulses or two spaces meet
they are one event.

* `irRawGenManchester`: the encoder, which prolongs the last event it has written.
* `irRawGenManchester_spec`: with enough room it writes `manchester`.
* `Demodulator.bits`: a decoder that takes single and merged half bits takes what the encoder writes.
-/

namespace TbsMedia
namespace Rc

/-! ## Raw events -/

/-- `struct ir_raw_event`. -/
structure IrRawEvent where
  duration : ℕ
  pulse : Bool
  reset : Bool := false
  carrierReport : Bool := false
  deriving DecidableEq, Repr

/-- `init_ir_raw_event_duration`. -/
def initIrRawEventDuration (pulse : Bool) (duration : ℕ) : IrRawEvent := { duration, pulse }

/-- `is_timing_event`. -/
def isTimingEvent (ev : IrRawEvent) : Bool := !ev.carrierReport && !ev.reset

/-- `geq_margin`. -/
def geqMargin (d1 d2 margin : ℕ) : Prop := d2 - margin < d1

/-- `eq_margin`. -/
def eqMargin (d1 d2 margin : ℕ) : Prop := d2 - margin < d1 ∧ d1 < d2 + margin

instance (d1 d2 margin : ℕ) : Decidable (geqMargin d1 d2 margin) :=
  inferInstanceAs (Decidable (_ < _))

instance (d1 d2 margin : ℕ) : Decidable (eqMargin d1 d2 margin) :=
  inferInstanceAs (Decidable (_ ∧ _))

/-- `decrease_duration`. -/
def decreaseDuration (ev : IrRawEvent) (duration : ℕ) : IrRawEvent :=
  { ev with duration := ev.duration - duration }

/-- What a decoder reports with `rc_keydown`. -/
structure Keydown where
  protocol : RcProto
  scancode : ℕ
  toggle : ℕ
  deriving DecidableEq, Repr

/-! ## The encoder -/

/-- `struct ir_raw_timings_manchester`. -/
structure Timings where
  leaderPulse : ℕ := 0
  leaderSpace : ℕ := 0
  clock : ℕ
  invert : Bool := false
  trailerSpace : ℕ := 0

/-- The array of an encoder: the events that are written, the last one first, and the room that is
left. -/
structure RawEvents where
  ev : List IrRawEvent
  max : ℕ

/-- One more event, if there is room. -/
def RawEvents.push (s : RawEvents) (pulse : Bool) (duration : ℕ) : Except Errno RawEvents :=
  if s.max = 0 then .error .ENOBUFS
  else .ok ⟨initIrRawEventDuration pulse duration :: s.ev, s.max - 1⟩

/-- `(*ev)->pulse` of the last event. -/
def lastPulse : List IrRawEvent → Bool
  | [] => false
  | e :: _ => e.pulse

/-- `(*ev)->duration += duration`. -/
def prolong (duration : ℕ) : List IrRawEvent → List IrRawEvent
  | [] => []
  | e :: ev => { e with duration := e.duration + duration } :: ev

/-- `need_pulse` of bit `i`. -/
def needPulse (timings : Timings) (data i : ℕ) : Bool := !data.testBit i ^^ timings.invert

/-- The loop of `ir_raw_gen_manchester` over the `n` low bits of `data`. -/
def genBits (timings : Timings) (data : ℕ) : ℕ → RawEvents → Except Errno RawEvents
  | 0, s => .ok s
  | n + 1, s =>
    (if needPulse timings data n = lastPulse s.ev then
      .ok { s with ev := prolong timings.clock s.ev }
    else s.push (needPulse timings data n) timings.clock) >>= fun s =>
    s.push (!needPulse timings data n) timings.clock >>= fun s =>
    genBits timings data n s

/-- `ir_raw_gen_manchester`.  Without a leader it goes on with the last event. -/
def irRawGenManchester (s : RawEvents) (timings : Timings) (n data : ℕ) :
    Except Errno RawEvents :=
  (if timings.leaderPulse ≠ 0 then
    s.push true timings.leaderPulse >>= fun s =>
    if timings.leaderSpace ≠ 0 then s.push false timings.leaderSpace else .ok s
  else .ok s) >>= fun s =>
  genBits timings data n s >>= fun s =>
  if timings.trailerSpace ≠ 0 then
    if lastPulse s.ev then s.push false timings.trailerSpace
    else .ok { s with ev := prolong timings.trailerSpace s.ev }
  else .ok s

/-! ## What it writes -/

/-- The events with one more bit. -/
def codeBit (clock : ℕ) (pulse : Bool) (ev : List IrRawEvent) : List IrRawEvent :=
  initIrRawEventDuration (!pulse) clock ::
    if pulse = lastPulse ev then prolong clock ev else initIrRawEventDuration pulse clock :: ev

/-- The events with `n` more bits. -/
def codeBits (timings : Timings) (data : ℕ) : ℕ → List IrRawEvent → List IrRawEvent
  | 0, ev => ev
  | n + 1, ev => codeBits timings data n (codeBit timings.clock (needPulse timings data n) ev)

/-- The last event is the second half of the last bit. -/
theorem codeBits_head (timings : Timings) (data n : ℕ) (ev : List IrRawEvent) :
    ∃ evs, codeBits timings data (n + 1) ev =
      initIrRawEventDuration (!needPulse timings data 0) timings.clock :: evs := by
  induction n generalizing ev with
  | zero => exact ⟨_, rfl⟩
  | succ n ih => exact ih _

/-- The events with a leader. -/
def codeLeader (timings : Timings) (ev : List IrRawEvent) : List IrRawEvent :=
  if timings.leaderPulse ≠ 0 then
    if timings.leaderSpace ≠ 0 then
      initIrRawEventDuration false timings.leaderSpace ::
        initIrRawEventDuration true timings.leaderPulse :: ev
    else initIrRawEventDuration true timings.leaderPulse :: ev
  else ev

/-- The events with a trailer. -/
def codeTrailer (timings : Timings) (ev : List IrRawEvent) : List IrRawEvent :=
  if timings.trailerSpace ≠ 0 then
    if lastPulse ev then initIrRawEventDuration false timings.trailerSpace :: ev
    else prolong timings.trailerSpace ev
  else ev

/-- What `ir_raw_gen_manchester` writes where there is room. -/
def manchester (timings : Timings) (n data : ℕ) (ev : List IrRawEvent) : List IrRawEvent :=
  codeTrailer timings (codeBits timings data n (codeLeader timings ev))

/-- A step of the encoder writes `ev` with up to `k` pushes, or finds no room for them. -/
def Writes (r : Except Errno RawEvents) (s : RawEvents) (ev : List IrRawEvent) (k : ℕ) : Prop :=
  (r = .error .ENOBUFS ∧ s.max < k) ∨ ∃ s', r = .ok s' ∧ s'.ev = ev ∧ s.max ≤ s'.max + k

theorem writes_push (s : RawEvents) (pulse : Bool) (duration : ℕ) :
    Writes (s.push pulse duration) s (initIrRawEventDuration pulse duration :: s.ev) 1 := by
  unfold Writes RawEvents.push
  split_ifs with hmax
  · exact Or.inl ⟨rfl, by omega⟩
  · exact Or.inr ⟨_, rfl, rfl, by dsimp only; omega⟩

theorem writes_ok (s : RawEvents) (ev : List IrRawEvent) : Writes (.ok { s with ev }) s ev 0 :=
  Or.inr ⟨_, rfl, rfl, Nat.le_refl _⟩

/-- Steps one after the other. -/
theorem Writes.bind {r : Except Errno RawEvents} {f : RawEvents → Except Errno RawEvents}
    {s : RawEvents} {ev ev' : List IrRawEvent} {k k' : ℕ} (h : Writes r s ev k)
    (hf : ∀ s', s'.ev = ev → Writes (f s') s' ev' k') : Writes (r >>= f) s ev' (k + k') := by
  rcases h with ⟨rfl, hlt⟩ | ⟨s', rfl, hev, hle⟩
  · exact Or.inl ⟨rfl, by omega⟩
  · rcases hf s' hev with ⟨herr, hlt⟩ | ⟨s'', hok, hev', hle'⟩
    · exact Or.inl ⟨herr, by omega⟩
    · exact Or.inr ⟨s'', hok, hev', by omega⟩

theorem Writes.mono {r : Except Errno RawEvents} {s : RawEvents} {ev : List IrRawEvent} {k k' : ℕ}
    (h : Writes r s ev k) (hk : k ≤ k') : Writes r s ev k' := by
  rcases h with ⟨rfl, hlt⟩ | ⟨s', rfl, hev, hle⟩
  · exact Or.inl ⟨rfl, by omega⟩
  · exact Or.inr ⟨s', rfl, hev, by omega⟩

theorem writes_genBits (timings : Timings) (data n : ℕ) (s : RawEvents) :
    Writes (genBits timings data n s) s (codeBits timings data n s.ev) (2 * n) := by
  induction n generalizing s with
  | zero => exact writes_ok s s.ev
  | succ n ih =>
    have hfirst : Writes (if needPulse timings data n = lastPulse s.ev then
          .ok { s with ev := prolong timings.clock s.ev }
        else s.push (needPulse timings data n) timings.clock) s
        (if needPulse timings data n = lastPulse s.ev then prolong timings.clock s.ev
          else initIrRawEventDuration (needPulse timings data n) timings.clock :: s.ev) 1 := by
      split_ifs
      · exact (writes_ok s _).mono (Nat.zero_le 1)
      · exact writes_push s _ _
    refine (hfirst.bind fun s₁ hs₁ => (writes_push s₁ _ _).bind fun s₂ hs₂ => ?_).mono
      (by omega : 1 + (1 + 2 * n) ≤ 2 * (n + 1))
    have hrest := ih s₂
    rw [hs₂, hs₁] at hrest
    exact hrest

theorem writes_leader (timings : Timings) (s : RawEvents) :
    Writes (if timings.leaderPulse ≠ 0 then
        s.push true timings.leaderPulse >>= fun s =>
        if timings.leaderSpace ≠ 0 then s.push false timings.leaderSpace else .ok s
      else .ok s) s (codeLeader timings s.ev) 2 := by
  unfold codeLeader
  by_cases hpulse : timings.leaderPulse ≠ 0
  · rw [if_pos hpulse, if_pos hpulse]
    refine ((writes_push s _ _).bind fun s₁ hs₁ => ?_).mono (Nat.le_refl (1 + 1))
    by_cases hspace : timings.leaderSpace ≠ 0
    · rw [if_pos hspace, if_pos hspace, ← hs₁]
      exact writes_push s₁ _ _
    · rw [if_neg hspace, if_neg hspace, ← hs₁]
      exact (writes_ok s₁ s₁.ev).mono (Nat.zero_le 1)
  · rw [if_neg hpulse, if_neg hpulse]
    exact (writes_ok s s.ev).mono (Nat.zero_le 2)

theorem writes_trailer (timings : Timings) (s : RawEvents) :
    Writes (if timings.trailerSpace ≠ 0 then
        if lastPulse s.ev then s.push false timings.trailerSpace
        else .ok { s with ev := prolong timings.trailerSpace s.ev }
      else .ok s) s (codeTrailer timings s.ev) 1 := by
  unfold codeTrailer
  split_ifs
  · exact writes_push s _ _
  · exact (writes_ok s _).mono (Nat.zero_le 1)
  · exact (writes_ok s s.ev).mono (Nat.zero_le 1)

/-- **The encoder** writes the code of the data, or has too little room for it. -/
theorem irRawGenManchester_spec (s : RawEvents) (timings : Timings) (n data : ℕ) :
    Writes (irRawGenManchester s timings n data) s (manchester timings n data s.ev)
      (2 + (2 * n + 1)) := by
  refine (writes_leader timings s).bind fun s₁ hs₁ => ?_
  refine (writes_genBits timings data n s₁).bind fun s₂ hs₂ => ?_
  rw [hs₁] at hs₂
  unfold manchester
  rw [← hs₂]
  exact writes_trailer timings s₂

/-- An encoder that writes a frame returns it, or has too little room. -/
theorem Writes.map_reverse {r : Except Errno RawEvents} {max : ℕ} {ev : List IrRawEvent} {k : ℕ}
    (h : Writes r ⟨[], max⟩ ev k) :
    (∀ events, (r.map fun s => s.ev.reverse) = .ok events → events = ev.reverse) ∧
      (k ≤ max → (r.map fun s => s.ev.reverse) = .ok ev.reverse) := by
  rcases h with ⟨rfl, hlt⟩ | ⟨s', rfl, rfl, hle⟩
  · exact ⟨fun events h => (nomatch h), fun hk => absurd hlt (Nat.not_lt.mpr hk)⟩
  · exact ⟨fun events h => (Except.ok.inj h).symm, fun _ => rfl⟩

/-! ## Decoders -/

theorem isTimingEvent_init (pulse : Bool) (duration : ℕ) :
    isTimingEvent (initIrRawEventDuration pulse duration) ≠ false :=
  Bool.noConfusion

theorem decreaseDuration_add (pulse : Bool) (a d : ℕ) :
    decreaseDuration (initIrRawEventDuration pulse (a + d)) a = initIrRawEventDuration pulse d :=
  congrArg (initIrRawEventDuration pulse) (Nat.add_sub_cancel_left a d)

/-- A word of 32 bits that is shifted by one. -/
theorem shiftLeft_one_mod (bits : ℕ) : (bits <<< 1) % 2 ^ 32 = 2 * (bits % 2 ^ 31) := by
  rw [Nat.shiftLeft_eq]
  omega

theorem two_mul_lor_one (n : ℕ) : 2 * n ||| 1 = 2 * n + 1 := by
  have h := Nat.shiftLeft_add_eq_or_of_lt (by decide : 1 < 2 ^ 1) n
  rw [Nat.shiftLeft_eq, pow_one, Nat.mul_comm] at h
  exact h.symm

/-- A word of `w` bits with one more bit, where none is lost. -/
theorem shiftLeft_one_lor {v w : ℕ} (h : 2 * v < 2 ^ w) (b : Bool) :
    (v <<< 1) % 2 ^ w ||| b.toNat = 2 * v + b.toNat := by
  have hshift : (v <<< 1) % 2 ^ w = 2 * v := by
    rw [Nat.shiftLeft_eq, pow_one, Nat.mul_comm]
    exact Nat.mod_eq_of_lt h
  rw [hshift]
  cases b with
  | false => exact Nat.or_zero _
  | true => exact two_mul_lor_one v

theorem two_mul_add_lt {v m : ℕ} (h : v < 2 ^ m) (b : Bool) : 2 * v + b.toNat < 2 ^ (m + 1) := by
  have hb := Bool.toNat_le b
  rw [pow_succ]
  omega

theorem two_mul_add_mod (n m : ℕ) (b : Bool) :
    (2 * n + b.toNat) % 2 ^ (m + 1) = 2 * (n % 2 ^ m) + b.toNat := by
  have hb := Bool.toNat_le b
  have hdiv : (2 * n + b.toNat) / 2 = n := by omega
  rw [pow_succ, Nat.mul_comm (2 ^ m) 2, Nat.mod_mul, hdiv]
  omega

/-- The events of an array, in the order they have been written in. -/
def decodeAll {δ : Type*} (decode : δ → IrRawEvent → δ × Except Errno (Option Keydown)) :
    δ → List IrRawEvent → δ × List Keydown
  | data, [] => (data, [])
  | data, ev :: evs =>
    let (data, r) := decode data ev
    let (data, ks) := decodeAll decode data evs
    match r with
    | .ok (some k) => (data, k :: ks)
    | _ => (data, ks)

variable {δ : Type*} {decode : δ → IrRawEvent → δ × Except Errno (Option Keydown)}

theorem decodeAll_append (data : δ) (evs evs' : List IrRawEvent) :
    decodeAll decode data (evs ++ evs') =
      ((decodeAll decode (decodeAll decode data evs).1 evs').1,
        (decodeAll decode data evs).2 ++ (decodeAll decode (decodeAll decode data evs).1 evs').2) := by
  induction evs generalizing data with
  | nil => rfl
  | cons ev evs ih =>
    rw [List.cons_append, decodeAll, decodeAll]
    dsimp only
    rw [ih]
    split <;> rfl

/-- The decoder has taken the events, and nothing is reported so far. -/
def Taken (decode : δ → IrRawEvent → δ × Except Errno (Option Keydown)) (data₀ : δ)
    (evs : List IrRawEvent) (data : δ) : Prop :=
  decodeAll decode data₀ evs.reverse = (data, [])

theorem Taken.nil (data : δ) : Taken decode data [] data := rfl

theorem Taken.cons {data₀ data data' : δ} {ev : IrRawEvent} {evs : List IrRawEvent}
    (h : Taken decode data₀ evs data) (hev : decode data ev = (data', .ok none)) :
    Taken decode data₀ (ev :: evs) data' := by
  unfold Taken at *
  rw [List.reverse_cons, decodeAll_append, h]
  dsimp only [decodeAll]
  rw [hev]
  rfl

/-- The event behind those that are taken is reported, and the one behind it fails. -/
theorem Taken.report {data₀ data data' data'' : δ} {ev ev' : IrRawEvent} {evs : List IrRawEvent}
    {k : Keydown} {e : Errno} (h : Taken decode data₀ evs data)
    (hev : decode data ev = (data', .ok (some k))) (hnext : decode data' ev' = (data'', .error e)) :
    (decodeAll decode data₀ ((ev :: evs).reverse ++ [ev'])).2 = [k] := by
  unfold Taken at h
  rw [List.reverse_cons, List.append_assoc, decodeAll_append, h]
  dsimp only [decodeAll, List.cons_append, List.nil_append]
  rw [hev]
  dsimp only
  rw [hnext]

/-- A decoder that takes up to `limit` bits of Manchester code.  `Open m v data` is that it stands in
front of a bit, with the `m` bits behind it in `v`; `Pending ev m v data` that it is about to take `ev`,
which may have been prolonged by the first half of the next bit. -/
structure Demodulator (decode : δ → IrRawEvent → δ × Except Errno (Option Keydown))
    (clock limit : ℕ) (bit : Bool → ℕ) where
  Open : ℕ → ℕ → δ → Prop
  Pending : IrRawEvent → ℕ → ℕ → δ → Prop
  close : ∀ ev m v data, m < limit → Pending ev m v data →
    ∃ data', decode data ev = (data', .ok none) ∧ Open m v data'
  single : ∀ pulse m v data, m < limit → Open m v data →
    ∃ data', decode data (initIrRawEventDuration pulse clock) = (data', .ok none) ∧
      Pending (initIrRawEventDuration (!pulse) clock) (m + 1) (2 * v + bit pulse) data'
  merged : ∀ ev m v data, m < limit → Pending ev m v data →
    ∃ data', decode data { ev with duration := ev.duration + clock } = (data', .ok none) ∧
      Pending (initIrRawEventDuration (!ev.pulse) clock) (m + 1) (2 * v + bit ev.pulse) data'

variable {clock limit : ℕ} {bit : Bool → ℕ}

/-- One bit, merged with the event in front of it or not. -/
theorem Demodulator.codeBit (dem : Demodulator decode clock limit bit) {data₀ data : δ}
    {ev : IrRawEvent} {evs : List IrRawEvent} {m v : ℕ} (htaken : Taken decode data₀ evs data)
    (hpending : dem.Pending ev m v data) (hm : m < limit) (pulse : Bool) :
    ∃ ev' evs' data', Rc.codeBit clock pulse (ev :: evs) = ev' :: evs' ∧
      Taken decode data₀ evs' data' ∧ dem.Pending ev' (m + 1) (2 * v + bit pulse) data' := by
  unfold Rc.codeBit
  by_cases hpulse : pulse = lastPulse (ev :: evs)
  · rw [if_pos hpulse]
    obtain ⟨data', hdecode, hpending'⟩ := dem.merged ev m v data hm hpending
    obtain rfl : pulse = ev.pulse := hpulse
    exact ⟨_, _, data', rfl, htaken.cons hdecode, hpending'⟩
  · rw [if_neg hpulse]
    obtain ⟨data₁, hclose, hopen⟩ := dem.close ev m v data hm hpending
    obtain ⟨data', hdecode, hpending'⟩ := dem.single pulse m v data₁ hm hopen
    exact ⟨_, _, data', rfl, (htaken.cons hclose).cons hdecode, hpending'⟩

/-- **A demodulator takes the code**: behind `n` bits it has them. -/
theorem Demodulator.codeBits (dem : Demodulator decode clock limit bit) {timings : Timings}
    (hclock : timings.clock = clock) (hbit : ∀ b, bit (!b ^^ timings.invert) = b.toNat) {data₀ : δ}
    (bits n : ℕ) {data : δ} {ev : IrRawEvent} {evs : List IrRawEvent} {m v : ℕ}
    (htaken : Taken decode data₀ evs data) (hpending : dem.Pending ev m v data)
    (hm : m + n ≤ limit) :
    ∃ ev' evs' data', Rc.codeBits timings bits n (ev :: evs) = ev' :: evs' ∧
      Taken decode data₀ evs' data' ∧
      dem.Pending ev' (m + n) (2 ^ n * v + bits % 2 ^ n) data' := by
  induction n generalizing data ev evs m v with
  | zero =>
    refine ⟨ev, evs, data, rfl, htaken, ?_⟩
    rw [pow_zero, Nat.mod_one, one_mul]
    exact hpending
  | succ n ih =>
    obtain ⟨ev₁, evs₁, data₁, hcode, htaken₁, hpending₁⟩ :=
      dem.codeBit htaken hpending (by omega) (needPulse timings bits n)
    obtain ⟨ev', evs', data', hcode', htaken', hpending'⟩ := ih htaken₁ hpending₁ (by omega)
    refine ⟨ev', evs', data', ?_, htaken', ?_⟩
    · rw [Rc.codeBits, hclock, hcode]
      exact hcode'
    · have hvalue : 2 ^ (n + 1) * v + bits % 2 ^ (n + 1) =
          2 ^ n * (2 * v + bit (needPulse timings bits n)) + bits % 2 ^ n := by
        rw [needPulse, hbit, Nat.toNat_testBit, Nat.mod_pow_succ, pow_succ]
        ring
      rw [hvalue, Nat.add_comm n 1, ← Nat.add_assoc]
      exact hpending'

end Rc
end TbsMedia
