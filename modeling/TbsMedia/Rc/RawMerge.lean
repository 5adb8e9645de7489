import Mathlib

/-!
# Merging raw samples

A driver hands its samples to `ir_raw_event_store_with_filter`, which merges those of one kind into one
event, leaves out the spaces between two bursts, and ends a burst with an event that has the timeout
flag.  The duration of an event is a word of 32 bits.

A sample that is accepted adds its duration to the events, unless the event that it prolongs runs over, and then
the events have less than the samples (`step_total`).  No later sample brings that time back, so the times agree
only where no event runs over; and while none does, `Good` describes the events.

* `RawDev.step_total`: what a sample adds to the time of the events.
* `RawDev.Good.step`: the form of the events behind one more sample.
* `storeWithFilter_merges_iff`: the samples whose events are bursts that keep the time.
-/

namespace TbsMedia
namespace Rc

/-! ## The events -/

/-- `struct ir_raw_event`, as far as it is a pulse or a space. -/
structure RawEvent where
  duration : UInt32
  pulse : Bool
  timeout : Bool
  deriving DecidableEq, Repr

/-- `(struct ir_raw_event) {}`. -/
def RawEvent.zero : RawEvent := ⟨0, false, false⟩

/-- The part of `struct rc_dev` that the filter works on.  `kfifo` are the events that have been
stored, for which there was always room. -/
structure RawDev where
  idle : Bool
  thisEv : RawEvent
  kfifo : List RawEvent
  deriving DecidableEq, Repr

/-- A device that has stored nothing. -/
def RawDev.new (idle : Bool) : RawDev := ⟨idle, .zero, []⟩

/-- `ir_raw_event_store`. -/
def irRawEventStore (dev : RawDev) (ev : RawEvent) : RawDev := { dev with kfifo := dev.kfifo ++ [ev] }

/-- `ir_raw_event_set_idle`. -/
def irRawEventSetIdle (dev : RawDev) (idle : Bool) : RawDev :=
  let dev := if idle then
      { irRawEventStore dev { dev.thisEv with timeout := true } with thisEv := .zero }
    else dev
  { dev with idle := idle }

/-- The sample is merged into the event that is pending, or takes its place. -/
def RawDev.take (dev : RawDev) (ev : RawEvent) : RawDev :=
  if dev.thisEv.duration = 0 then { dev with thisEv := ev }
  else if ev.pulse = dev.thisEv.pulse then
    { dev with thisEv := { dev.thisEv with duration := dev.thisEv.duration + ev.duration } }
  else { irRawEventStore dev dev.thisEv with thisEv := ev }

/-- `ir_raw_event_store_with_filter`: the device behind the sample, and whether it was accepted. -/
def irRawEventStoreWithFilter (dev : RawDev) (timeout : UInt32) (ev : RawEvent) : RawDev × Bool :=
  -- ignore spaces in idle mode
  if dev.idle = true ∧ ev.pulse = false then (dev, false)
  else
    let dev := if dev.idle then irRawEventSetIdle dev false else dev
    let dev := dev.take ev
    -- enter idle mode if necessary
    let dev := if ev.pulse = false ∧ timeout ≠ 0 ∧ timeout ≤ dev.thisEv.duration then
        irRawEventSetIdle dev true
      else dev
    (dev, true)

/-- A sample, and the timeout that the device has when it comes. -/
structure Sample where
  timeout : UInt32
  ev : RawEvent
  deriving DecidableEq, Repr

/-- A pulse or a space.  A driver that sets the timeout flag itself does so on a space that is as long
as the timeout. -/
def Sample.Valid (c : Sample) : Prop :=
  1 ≤ c.ev.duration ∧
    (c.ev.timeout = true → c.ev.pulse = false ∧ c.timeout ≠ 0 ∧ c.timeout ≤ c.ev.duration)

instance (c : Sample) : Decidable c.Valid := inferInstanceAs (Decidable (_ ∧ (_ → _)))

/-- The filter on a sample. -/
def RawDev.step (dev : RawDev) (c : Sample) : RawDev := (irRawEventStoreWithFilter dev c.timeout c.ev).1

/-- The device behind all samples. -/
def RawDev.run : RawDev → List Sample → RawDev := List.foldl RawDev.step

/-- The samples that the filter accepts. -/
def RawDev.accepted : RawDev → List Sample → List RawEvent
  | _, [] => []
  | dev, c :: calls =>
    if (irRawEventStoreWithFilter dev c.timeout c.ev).2 then c.ev :: (dev.step c).accepted calls
    else (dev.step c).accepted calls

/-! ## What the events are for -/

/-- The event that is pending, if there is one. -/
def RawDev.pendingEv (dev : RawDev) : List RawEvent :=
  if dev.thisEv.duration = 0 then [] else [dev.thisEv]

/-- The events that are stored and the one that is pending. -/
def RawDev.events (dev : RawDev) : List RawEvent := dev.kfifo ++ dev.pendingEv

/-- The time of all pulses, or of all spaces. -/
def total (pulse : Bool) (l : List RawEvent) : ℕ :=
  ((l.filter fun e => e.pulse == pulse).map fun e => e.duration.toNat).sum

/-- In a burst pulses and spaces alternate; behind a timeout comes the pulse of the next burst. -/
def Follows (a b : RawEvent) : Prop := if a.timeout then b.pulse = true else b.pulse = !a.pulse

/-- Events in bursts: each starts with a pulse, alternates and ends with a space that is the timeout
event; the last burst is complete if the device is idle. -/
structure Bursts (idle : Bool) (events : List RawEvent) : Prop where
  starts : ∀ e ∈ events.head?, e.pulse = true
  alternates : events.IsChain Follows
  ends : ∀ e ∈ events, e.timeout = true → e.pulse = false
  complete : idle = true → ∀ e ∈ events.getLast?, e.timeout = true

/-- The time that a sample of this kind and duration brings the pending event to. -/
def mergedTime (pending : Option (Bool × ℕ)) (ev : RawEvent) : ℕ :=
  match pending with
  | some (pulse, time) => if pulse = ev.pulse then time + ev.duration.toNat else ev.duration.toNat
  | none => ev.duration.toNat

/-- No pulse and no space that the samples add up to has 2³² ns or more.  A space is over with the
sample that brings it to the timeout; what comes behind, up to the next pulse, is not part of it. -/
def MergesFit : Bool → Option (Bool × ℕ) → List Sample → Prop
  | _, _, [] => True
  | idle, pending, c :: calls =>
    if idle = true ∧ c.ev.pulse = false then MergesFit idle pending calls
    else
      mergedTime pending c.ev < 2 ^ 32 ∧
        if c.ev.pulse = false ∧ c.timeout ≠ 0 ∧ c.timeout.toNat ≤ mergedTime pending c.ev then
          MergesFit true none calls
        else MergesFit false (some (c.ev.pulse, mergedTime pending c.ev)) calls

instance decidableMergesFit : ∀ idle pending calls, Decidable (MergesFit idle pending calls)
  | _, _, [] => isTrue trivial
  | idle, pending, c :: calls =>
    have := decidableMergesFit idle pending calls
    have := decidableMergesFit true none calls
    have := decidableMergesFit false (some (c.ev.pulse, mergedTime pending c.ev)) calls
    inferInstanceAs (Decidable (if idle = true ∧ c.ev.pulse = false then MergesFit idle pending calls
      else mergedTime pending c.ev < 2 ^ 32 ∧
        if c.ev.pulse = false ∧ c.timeout ≠ 0 ∧ c.timeout.toNat ≤ mergedTime pending c.ev then
          MergesFit true none calls
        else MergesFit false (some (c.ev.pulse, mergedTime pending c.ev)) calls))

/-! ## Times -/

theorem total_append (pulse : Bool) (l l' : List RawEvent) :
    total pulse (l ++ l') = total pulse l + total pulse l' := by
  unfold total
  rw [List.filter_append, List.map_append, List.sum_append]

theorem total_singleton (pulse : Bool) (e : RawEvent) :
    total pulse [e] = if e.pulse = pulse then e.duration.toNat else 0 := by
  unfold total
  by_cases h : e.pulse = pulse
  · rw [if_pos h, List.filter_cons, beq_iff_eq.mpr h]
    rfl
  · rw [if_neg h, List.filter_cons, beq_eq_false_iff_ne.mpr h]
    rfl

theorem total_cons (pulse : Bool) (e : RawEvent) (l : List RawEvent) :
    total pulse (e :: l) = (if e.pulse = pulse then e.duration.toNat else 0) + total pulse l := by
  rw [← total_singleton, ← total_append, List.singleton_append]

theorem pendingEv_of_ne {dev : RawDev} (h : dev.thisEv.duration ≠ 0) : dev.pendingEv = [dev.thisEv] := if_neg h

theorem pendingEv_of_eq {dev : RawDev} (h : dev.thisEv.duration = 0) : dev.pendingEv = [] := if_pos h

/-- An event without a duration has no part in the times. -/
theorem total_events (pulse : Bool) (dev : RawDev) :
    total pulse dev.events =
      total pulse dev.kfifo + if dev.thisEv.pulse = pulse then dev.thisEv.duration.toNat else 0 := by
  unfold RawDev.events
  rw [total_append]
  by_cases h : dev.thisEv.duration = 0
  · rw [pendingEv_of_eq h, h]
    exact (congrArg _ (ite_self 0)).symm
  · rw [pendingEv_of_ne h, total_singleton]

/-- What is pending, in numbers. -/
def RawDev.pending (dev : RawDev) : Option (Bool × ℕ) :=
  if dev.thisEv.duration = 0 then none else some (dev.thisEv.pulse, dev.thisEv.duration.toNat)

/-! ## One sample -/

/-- The sample in its place: a further event, or a longer one. -/
theorem RawDev.take_cases (dev : RawDev) {ev : RawEvent} (hev : ev.duration ≠ 0) :
    ((dev.take ev).events = dev.events ++ [ev] ∧ (dev.take ev).thisEv = ev ∧
        (dev.take ev).kfifo = dev.events ∧
        (∀ e ∈ dev.pendingEv, ev.pulse = !e.pulse) ∧
        mergedTime dev.pending ev = ev.duration.toNat) ∨
      (dev.thisEv.duration ≠ 0 ∧ ev.pulse = dev.thisEv.pulse ∧
        dev.take ev = { dev with
          thisEv := { dev.thisEv with duration := dev.thisEv.duration + ev.duration } } ∧
        mergedTime dev.pending ev = dev.thisEv.duration.toNat + ev.duration.toNat) := by
  unfold RawDev.take RawDev.pending RawDev.events
  by_cases hzero : dev.thisEv.duration = 0
  · refine .inl ?_
    rw [if_pos hzero, if_pos hzero, pendingEv_of_eq hzero, List.append_nil]
    exact ⟨congrArg _ (if_neg hev), rfl, rfl, fun e he => absurd he List.not_mem_nil, rfl⟩
  · rw [if_neg hzero, if_neg hzero]
    by_cases hsame : ev.pulse = dev.thisEv.pulse
    · rw [if_pos hsame]
      exact .inr ⟨hzero, hsame, rfl, if_pos hsame.symm⟩
    · refine .inl ?_
      rw [if_neg hsame, pendingEv_of_ne hzero]
      refine ⟨congrArg _ (if_neg hev), rfl, rfl, fun e he => ?_, if_neg (Ne.symm hsame)⟩
      rw [List.mem_singleton.mp he]
      exact Bool.eq_not_of_ne hsame

/-- The filter on a sample that it accepts. -/
theorem RawDev.step_accepted {dev : RawDev} {c : Sample} (h : ¬(dev.idle = true ∧ c.ev.pulse = false)) :
    (irRawEventStoreWithFilter dev c.timeout c.ev).2 = true ∧
    dev.step c =
      if c.ev.pulse = false ∧ c.timeout ≠ 0 ∧
          c.timeout ≤ (RawDev.take { dev with idle := false } c.ev).thisEv.duration then
        irRawEventSetIdle (RawDev.take { dev with idle := false } c.ev) true
      else RawDev.take { dev with idle := false } c.ev := by
  have hawake : (if dev.idle then irRawEventSetIdle dev false else dev) = { dev with idle := false } := by
    cases hidle : dev.idle
    · rw [if_neg Bool.false_ne_true, ← hidle]
    · rw [if_pos rfl]
      rfl
  unfold RawDev.step irRawEventStoreWithFilter
  rw [if_neg h]
  dsimp only
  rw [hawake]
  exact ⟨rfl, rfl⟩

theorem RawDev.step_ignored {dev : RawDev} {c : Sample} (h : dev.idle = true ∧ c.ev.pulse = false) :
    (irRawEventStoreWithFilter dev c.timeout c.ev).2 = false ∧ dev.step c = dev := by
  unfold RawDev.step irRawEventStoreWithFilter
  rw [if_pos h]
  exact ⟨rfl, rfl⟩

/-- Going idle stores what is pending, with the timeout flag. -/
theorem total_irRawEventSetIdle (pulse : Bool) (dev : RawDev) :
    total pulse (irRawEventSetIdle dev true).events = total pulse dev.events := by
  rw [total_events, total_events]
  show total pulse (dev.kfifo ++ [{ dev.thisEv with timeout := true }]) +
    (if RawEvent.zero.pulse = pulse then RawEvent.zero.duration.toNat else 0) = _
  rw [total_append, total_singleton]
  exact congrArg _ (ite_self 0)

theorem total_take (dev : RawDev) {ev : RawEvent} (hev : ev.duration ≠ 0) :
    (∀ pulse, total pulse (dev.take ev).events ≤
        total pulse dev.events + if ev.pulse = pulse then ev.duration.toNat else 0) ∧
      (mergedTime dev.pending ev < 2 ^ 32 ↔ ∀ pulse, total pulse (dev.take ev).events =
        total pulse dev.events + if ev.pulse = pulse then ev.duration.toNat else 0) := by
  rcases dev.take_cases hev with ⟨hevents, -, -, -, hmerged⟩ | ⟨hne, hsame, htake, hmerged⟩
  · have htotal : ∀ pulse, total pulse (dev.take ev).events =
        total pulse dev.events + if ev.pulse = pulse then ev.duration.toNat else 0 := by
      intro pulse
      rw [hevents, total_append, total_singleton]
    rw [hmerged]
    exact ⟨fun pulse => (htotal pulse).le, iff_of_true ev.duration.toNat_lt htotal⟩
  · have hadd : (dev.thisEv.duration + ev.duration).toNat =
        (dev.thisEv.duration.toNat + ev.duration.toNat) % 2 ^ 32 := UInt32.toNat_add _ _
    have htotal : ∀ pulse, total pulse (dev.take ev).events = total pulse dev.kfifo +
        if dev.thisEv.pulse = pulse then (dev.thisEv.duration.toNat + ev.duration.toNat) % 2 ^ 32 else 0 := by
      intro pulse
      rw [htake, total_events]
      dsimp only
      rw [hadd]
    have hmod := Nat.mod_le (dev.thisEv.duration.toNat + ev.duration.toNat) (2 ^ 32)
    have hlt := Nat.mod_lt (dev.thisEv.duration.toNat + ev.duration.toNat) (y := 2 ^ 32) (by decide)
    rw [hmerged, hsame]
    refine ⟨fun pulse => ?_, fun hfit pulse => ?_, fun hall => ?_⟩
    · rw [htotal, total_events]
      split_ifs <;> omega
    · rw [htotal, total_events, Nat.mod_eq_of_lt hfit]
      split_ifs <;> omega
    · have hthis := hall dev.thisEv.pulse
      rw [htotal, total_events, if_pos rfl, if_pos rfl, if_pos rfl] at hthis
      omega

theorem Sample.Valid.duration_ne {c : Sample} (hc : c.Valid) : c.ev.duration ≠ 0 := by
  intro h0
  have h1 := hc.1
  rw [h0] at h1
  exact absurd h1 (by decide)

/-- **The time of a sample** that is accepted: it is in the events exactly if the event that it prolongs
has room for it, and the events never have more. -/
theorem RawDev.step_total {dev : RawDev} {c : Sample} (hc : c.Valid)
    (h : ¬(dev.idle = true ∧ c.ev.pulse = false)) :
    (∀ pulse, total pulse (dev.step c).events ≤
        total pulse dev.events + if c.ev.pulse = pulse then c.ev.duration.toNat else 0) ∧
      (mergedTime dev.pending c.ev < 2 ^ 32 ↔ ∀ pulse, total pulse (dev.step c).events =
        total pulse dev.events + if c.ev.pulse = pulse then c.ev.duration.toNat else 0) := by
  have htotal : ∀ p, total p (dev.step c).events =
      total p (RawDev.take { dev with idle := false } c.ev).events := by
    intro p
    rw [(RawDev.step_accepted h).2]
    split_ifs
    · exact total_irRawEventSetIdle p _
    · rfl
  simp only [htotal]
  exact total_take { dev with idle := false } hc.duration_ne

/-! ## What is pending -/

theorem one_le_mergedTime {c : Sample} (hc : c.Valid) (pending : Option (Bool × ℕ)) :
    1 ≤ mergedTime pending c.ev := by
  have hd : 1 ≤ c.ev.duration.toNat := hc.1
  unfold mergedTime
  split
  · split_ifs <;> omega
  · exact hd

/-- The pending event behind a sample that it has room for, and the kinds of the events. -/
theorem RawDev.take_time {dev : RawDev} {ev : RawEvent} (hev : ev.duration ≠ 0)
    (hfit : mergedTime dev.pending ev < 2 ^ 32) :
    (dev.take ev).thisEv.duration.toNat = mergedTime dev.pending ev ∧
      (dev.take ev).thisEv.pulse = ev.pulse ∧
      ∃ l, ((dev.take ev).kfifo ++ [(dev.take ev).thisEv]).map RawEvent.pulse =
        dev.events.map RawEvent.pulse ++ l ∧ (dev.events = [] → l = [ev.pulse]) := by
  rcases dev.take_cases hev with ⟨-, hthis, hkfifo, -, hmerged⟩ | ⟨hne, hsame, htake, hmerged⟩
  · rw [hthis, hkfifo, hmerged, List.map_append]
    exact ⟨rfl, rfl, _, rfl, fun _ => rfl⟩
  · have hevents : dev.events = dev.kfifo ++ [dev.thisEv] := by
      unfold RawDev.events
      rw [pendingEv_of_ne hne]
    rw [htake, hevents]
    refine ⟨?_, hsame.symm, [], ?_, fun hnil => absurd hnil (List.append_ne_nil_of_right_ne_nil _ nofun)⟩
    · show (dev.thisEv.duration + ev.duration).toNat = _
      rw [UInt32.toNat_add, hmerged]
      exact Nat.mod_eq_of_lt (hmerged ▸ hfit)
    · rw [List.map_append, List.map_append, List.append_nil]
      rfl

/-- **What is pending** behind a sample that is accepted and that the pending event has room for. -/
theorem RawDev.step_pending {dev : RawDev} {c : Sample} (hc : c.Valid)
    (haccept : ¬(dev.idle = true ∧ c.ev.pulse = false)) (hfit : mergedTime dev.pending c.ev < 2 ^ 32) :
    ((dev.step c).idle, (dev.step c).pending) =
        (if c.ev.pulse = false ∧ c.timeout ≠ 0 ∧ c.timeout.toNat ≤ mergedTime dev.pending c.ev then
          (true, none)
        else (false, some (c.ev.pulse, mergedTime dev.pending c.ev))) ∧
      ∃ l, (dev.step c).events.map RawEvent.pulse = dev.events.map RawEvent.pulse ++ l ∧
        (dev.events = [] → l = [c.ev.pulse]) := by
  obtain ⟨hduration, hpulse, hkinds⟩ :=
    @RawDev.take_time { dev with idle := false } c.ev hc.duration_ne hfit
  rw [(RawDev.step_accepted haccept).2]
  have hidle : (RawDev.take { dev with idle := false } c.ev).idle = false := by
    unfold RawDev.take
    split_ifs <;> rfl
  generalize RawDev.take { dev with idle := false } c.ev = t at hduration hpulse hkinds hidle ⊢
  change t.thisEv.duration.toNat = mergedTime dev.pending c.ev at hduration
  have hne : t.thisEv.duration ≠ 0 := by
    intro h0
    rw [h0] at hduration
    exact absurd (hduration ▸ one_le_mergedTime hc dev.pending) (by decide)
  have hle : (c.ev.pulse = false ∧ c.timeout ≠ 0 ∧ c.timeout ≤ t.thisEv.duration) ↔
      c.ev.pulse = false ∧ c.timeout ≠ 0 ∧ c.timeout.toNat ≤ mergedTime dev.pending c.ev := by
    rw [UInt32.le_iff_toNat_le, hduration]
  by_cases hover : c.ev.pulse = false ∧ c.timeout ≠ 0 ∧ c.timeout.toNat ≤ mergedTime dev.pending c.ev
  · rw [if_pos hover, if_pos (hle.mpr hover)]
    have hevents : (irRawEventSetIdle t true).events = t.kfifo ++ [{ t.thisEv with timeout := true }] :=
      List.append_nil _
    refine ⟨rfl, ?_⟩
    rw [hevents, List.map_append]
    rw [List.map_append] at hkinds
    exact hkinds
  · rw [if_neg hover, if_neg (fun h => hover (hle.mp h))]
    have hevents : t.events = t.kfifo ++ [t.thisEv] := by
      unfold RawDev.events
      rw [pendingEv_of_ne hne]
    refine ⟨?_, ?_⟩
    · rw [hidle, show t.pending = some (t.thisEv.pulse, t.thisEv.duration.toNat) from if_neg hne,
        hpulse, hduration]
    · rw [hevents]
      exact hkinds

/-- No event runs over with the next samples. -/
def RawDev.Fits (dev : RawDev) (calls : List Sample) : Prop := MergesFit dev.idle dev.pending calls

theorem RawDev.fits_ignored {dev : RawDev} {c : Sample} (h : dev.idle = true ∧ c.ev.pulse = false)
    (calls : List Sample) : dev.Fits (c :: calls) ↔ dev.Fits calls := by
  unfold RawDev.Fits
  conv_lhs => unfold MergesFit
  rw [if_pos h]

theorem RawDev.fits_accepted {dev : RawDev} {c : Sample} (hc : c.Valid)
    (h : ¬(dev.idle = true ∧ c.ev.pulse = false)) (calls : List Sample) :
    dev.Fits (c :: calls) ↔ mergedTime dev.pending c.ev < 2 ^ 32 ∧ (dev.step c).Fits calls := by
  unfold RawDev.Fits
  conv_lhs => unfold MergesFit
  rw [if_neg h]
  refine and_congr_right fun hfit => ?_
  have hstate := (RawDev.step_pending hc h hfit).1
  split_ifs at hstate ⊢ with hover <;> obtain ⟨hi, hp⟩ := Prod.mk.inj hstate <;> rw [hi, hp]

/-! ## The form of the events -/

theorem follows_congr {a b b' : RawEvent} (h : b'.pulse = b.pulse) : Follows a b' ↔ Follows a b := by
  unfold Follows
  rw [h]

theorem isChain_snoc {l : List RawEvent} {e : RawEvent} :
    (l ++ [e]).IsChain Follows ↔ l.IsChain Follows ∧ ∀ x ∈ l.getLast?, Follows x e := by
  rw [List.isChain_append]
  refine and_congr_right fun _ => ⟨fun h x hx => h.2 x hx e rfl, fun h => ⟨.singleton e, fun x hx y hy => ?_⟩⟩
  obtain rfl := Option.some.inj hy
  exact h x hx

/-- Events behind which a last one is put. -/
theorem starts_snoc {l : List RawEvent} {e : RawEvent} :
    (∀ x ∈ (l ++ [e]).head?, x.pulse = true) ↔
      (∀ x ∈ l.head?, x.pulse = true) ∧ (l = [] → e.pulse = true) := by
  cases l with
  | nil =>
    refine ⟨fun h => ⟨fun x hx => (nomatch hx), fun _ => h e rfl⟩, fun h x hx => ?_⟩
    obtain rfl := Option.some.inj hx
    exact h.2 rfl
  | cons a l => exact ⟨fun h => ⟨h, fun hl => (nomatch hl)⟩, fun h => h.1⟩

/-- The device between two samples. -/
structure RawDev.Good (dev : RawDev) : Prop where
  bursts : Bursts dev.idle dev.events
  nothing : dev.idle = true → dev.thisEv.duration = 0
  awake : dev.idle = false → dev.thisEv.duration = 0 → dev.kfifo = []
  plain : dev.thisEv.duration ≠ 0 → dev.thisEv.timeout = false

theorem RawDev.good_new (idle : Bool) : (RawDev.new idle).Good :=
  ⟨⟨fun _ he => (nomatch he), .nil, fun _ he => (nomatch he), fun _ _ he => (nomatch he)⟩,
    fun _ => rfl, fun _ _ => rfl, fun h => absurd rfl h⟩

/-- The events behind a sample, apart from whether the last is a timeout. -/
structure SampleTaken (c : Sample) (time : ℕ) (dev : RawDev) : Prop where
  duration : dev.thisEv.duration.toNat = time
  pulse : dev.thisEv.pulse = c.ev.pulse
  flagged : dev.thisEv.timeout = true → c.ev.pulse = false ∧ c.timeout ≠ 0 ∧ c.timeout.toNat ≤ time
  starts : ∀ e ∈ (dev.kfifo ++ [dev.thisEv]).head?, e.pulse = true
  alternates : (dev.kfifo ++ [dev.thisEv]).IsChain Follows
  ends : ∀ e ∈ dev.kfifo, e.timeout = true → e.pulse = false

/-- **A sample in its place**, where the event has room for it. -/
theorem RawDev.Good.take {dev : RawDev} (h : dev.Good) {c : Sample} (hc : c.Valid)
    (haccept : ¬(dev.idle = true ∧ c.ev.pulse = false))
    (hfirst : dev.idle = true ∨ dev.events ≠ [] ∨ c.ev.pulse = true)
    (hfit : mergedTime dev.pending c.ev < 2 ^ 32) :
    SampleTaken c (mergedTime dev.pending c.ev) (RawDev.take { dev with idle := false } c.ev) := by
  have hpulse : dev.idle = true → c.ev.pulse = true := fun hi =>
    Bool.eq_true_of_not_eq_false fun hp => haccept ⟨hi, hp⟩
  rcases RawDev.take_cases { dev with idle := false } hc.duration_ne with
    ⟨-, hthis, hkfifo, hother, hmerged⟩ | ⟨hne, hsame, htake, hmerged⟩
  · change (RawDev.take { dev with idle := false } c.ev).kfifo = dev.events at hkfifo
    change mergedTime dev.pending c.ev = _ at hmerged
    refine ⟨by rw [hthis, hmerged], by rw [hthis], fun hflag => ?_, ?_, ?_, ?_⟩
    · rw [hthis] at hflag
      rw [hmerged]
      exact hc.2 hflag
    · rw [hkfifo, hthis, starts_snoc]
      refine ⟨h.bursts.starts, fun hnil => ?_⟩
      rcases hfirst with hi | hne | hp
      · exact hpulse hi
      · exact absurd hnil hne
      · exact hp
    · rw [hkfifo, hthis, isChain_snoc]
      refine ⟨h.bursts.alternates, fun x hx => ?_⟩
      by_cases hzero : dev.thisEv.duration = 0
      · cases hi : dev.idle with
        | false =>
          -- nothing has come yet
          have hnil : dev.events = [] := by
            unfold RawDev.events
            rw [h.awake hi hzero, pendingEv_of_eq hzero]
            rfl
          rw [hnil] at hx
          exact nomatch hx
        | true =>
          unfold Follows
          rw [h.bursts.complete hi x hx]
          exact hpulse hi
      · unfold RawDev.events at hx
        rw [pendingEv_of_ne hzero, List.getLast?_concat] at hx
        obtain rfl := Option.some.inj hx
        unfold Follows
        rw [h.plain hzero]
        refine hother dev.thisEv ?_
        rw [pendingEv_of_ne (show (RawDev.thisEv { dev with idle := false }).duration ≠ 0 from hzero)]
        exact List.mem_singleton_self _
    · rw [hkfifo]
      exact h.bursts.ends
  · change dev.thisEv.duration ≠ 0 at hne
    change c.ev.pulse = dev.thisEv.pulse at hsame
    change mergedTime dev.pending c.ev = dev.thisEv.duration.toNat + c.ev.duration.toNat at hmerged
    have hevents : dev.events = dev.kfifo ++ [dev.thisEv] := by
      unfold RawDev.events
      rw [pendingEv_of_ne hne]
    have hstarts := h.bursts.starts
    have halternates := h.bursts.alternates
    rw [hevents] at hstarts halternates
    rw [starts_snoc] at hstarts
    rw [isChain_snoc] at halternates
    rw [htake]
    refine ⟨?_, hsame.symm, fun hflag => ?_, ?_, ?_, fun e he => h.bursts.ends e ?_⟩
    · show (dev.thisEv.duration + c.ev.duration).toNat = _
      rw [UInt32.toNat_add, hmerged]
      exact Nat.mod_eq_of_lt (hmerged ▸ hfit)
    · exact absurd ((h.plain hne).symm.trans hflag) Bool.false_ne_true
    · exact starts_snoc.mpr ⟨hstarts.1, hstarts.2⟩
    · exact isChain_snoc.mpr ⟨halternates.1, fun x hx => (follows_congr rfl).mpr (halternates.2 x hx)⟩
    · rw [hevents]
      exact List.mem_append_left _ he

/-- **One more sample**, where the event has room for it: the events have the form they had. -/
theorem RawDev.Good.step {dev : RawDev} (h : dev.Good) {c : Sample} (hc : c.Valid)
    (haccept : ¬(dev.idle = true ∧ c.ev.pulse = false))
    (hfirst : dev.idle = true ∨ dev.events ≠ [] ∨ c.ev.pulse = true)
    (hfit : mergedTime dev.pending c.ev < 2 ^ 32) :
    (dev.step c).Good ∧ (dev.step c).events ≠ [] := by
  have htaken := h.take hc haccept hfirst hfit
  rw [(RawDev.step_accepted haccept).2]
  have hidle : (RawDev.take { dev with idle := false } c.ev).idle = false := by
    unfold RawDev.take
    split_ifs <;> rfl
  generalize RawDev.take { dev with idle := false } c.ev = t at htaken hidle ⊢
  have hne : t.thisEv.duration ≠ 0 := by
    intro h0
    have := htaken.duration
    rw [h0] at this
    exact absurd (this ▸ one_le_mergedTime hc dev.pending) (by decide)
  have hle : (c.ev.pulse = false ∧ c.timeout ≠ 0 ∧ c.timeout ≤ t.thisEv.duration) ↔
      c.ev.pulse = false ∧ c.timeout ≠ 0 ∧ c.timeout.toNat ≤ mergedTime dev.pending c.ev := by
    rw [UInt32.le_iff_toNat_le, htaken.duration]
  by_cases hover : c.ev.pulse = false ∧ c.timeout ≠ 0 ∧ c.timeout.toNat ≤ mergedTime dev.pending c.ev
  · rw [if_pos (hle.mpr hover)]
    have hevents : (irRawEventSetIdle t true).events = t.kfifo ++ [{ t.thisEv with timeout := true }] :=
      List.append_nil _
    refine ⟨⟨⟨?_, ?_, ?_, ?_⟩, fun _ => rfl, fun hi => (nomatch hi), fun hz => absurd rfl hz⟩, ?_⟩
    · rw [hevents]
      exact starts_snoc.mpr ⟨(starts_snoc.mp htaken.starts).1, (starts_snoc.mp htaken.starts).2⟩
    · rw [hevents]
      refine isChain_snoc.mpr ⟨(isChain_snoc.mp htaken.alternates).1, fun x hx => ?_⟩
      exact (follows_congr rfl).mpr ((isChain_snoc.mp htaken.alternates).2 x hx)
    · intro e he htimeout
      rw [hevents, List.mem_append, List.mem_singleton] at he
      rcases he with he | rfl
      · exact htaken.ends e he htimeout
      · exact htaken.pulse.trans hover.1
    · intro _ e he
      rw [hevents, List.getLast?_concat] at he
      obtain rfl := Option.some.inj he
      rfl
    · rw [hevents]
      exact List.append_ne_nil_of_right_ne_nil _ (List.cons_ne_nil _ _)
  · rw [if_neg (fun h => hover (hle.mp h))]
    have hevents : t.events = t.kfifo ++ [t.thisEv] := by
      unfold RawDev.events
      rw [pendingEv_of_ne hne]
    have hplain : t.thisEv.timeout = false :=
      Bool.eq_false_of_not_eq_true fun hflag => hover (htaken.flagged hflag)
    refine ⟨⟨⟨?_, ?_, ?_, ?_⟩, fun hi => ?_, fun _ hz => absurd hz hne, fun _ => hplain⟩, ?_⟩
    · rw [hevents]
      exact htaken.starts
    · rw [hevents]
      exact htaken.alternates
    · intro e he htimeout
      rw [hevents, List.mem_append, List.mem_singleton] at he
      rcases he with he | rfl
      · exact htaken.ends e he htimeout
      · exact absurd (hplain.symm.trans htimeout) Bool.false_ne_true
    · intro hi
      exact absurd (hidle.symm.trans hi) Bool.false_ne_true
    · exact absurd (hidle.symm.trans hi) Bool.false_ne_true
    · rw [hevents]
      exact List.append_ne_nil_of_right_ne_nil _ (List.cons_ne_nil _ _)

/-! ## All samples -/

theorem RawDev.run_cons (dev : RawDev) (c : Sample) (calls : List Sample) :
    dev.run (c :: calls) = (dev.step c).run calls := rfl

theorem RawDev.accepted_ignored {dev : RawDev} {c : Sample} (h : dev.idle = true ∧ c.ev.pulse = false)
    (calls : List Sample) : dev.accepted (c :: calls) = dev.accepted calls := by
  obtain ⟨hret, hstep⟩ := RawDev.step_ignored h
  conv_lhs => unfold RawDev.accepted
  rw [hret, hstep, if_neg Bool.false_ne_true]

theorem RawDev.accepted_accepted {dev : RawDev} {c : Sample} (h : ¬(dev.idle = true ∧ c.ev.pulse = false))
    (calls : List Sample) : dev.accepted (c :: calls) = c.ev :: (dev.step c).accepted calls := by
  conv_lhs => unfold RawDev.accepted
  rw [(RawDev.step_accepted h).1, if_pos rfl]

/-- The events never have more than the time of the samples. -/
theorem RawDev.run_total_le {calls : List Sample} (hcalls : ∀ c ∈ calls, c.Valid) (pulse : Bool)
    (dev : RawDev) :
    total pulse (dev.run calls).events ≤ total pulse dev.events + total pulse (dev.accepted calls) := by
  induction calls generalizing dev with
  | nil => exact Nat.le_add_right _ _
  | cons c calls ih =>
    obtain ⟨hc, hrest⟩ := List.forall_mem_cons.mp hcalls
    have hrun := ih hrest (dev.step c)
    rw [RawDev.run_cons]
    by_cases h : dev.idle = true ∧ c.ev.pulse = false
    · rw [RawDev.accepted_ignored h]
      rwa [(RawDev.step_ignored h).2] at hrun ⊢
    · have hstep := (RawDev.step_total hc h).1 pulse
      rw [RawDev.accepted_accepted h, total_cons]
      omega

/-- The samples keep their time only where no event runs over. -/
theorem RawDev.fits_of_total {calls : List Sample} (hcalls : ∀ c ∈ calls, c.Valid) {dev : RawDev}
    (htotal : ∀ pulse, total pulse (dev.run calls).events =
      total pulse dev.events + total pulse (dev.accepted calls)) : dev.Fits calls := by
  induction calls generalizing dev with
  | nil => trivial
  | cons c calls ih =>
    obtain ⟨hc, hrest⟩ := List.forall_mem_cons.mp hcalls
    by_cases h : dev.idle = true ∧ c.ev.pulse = false
    · rw [RawDev.fits_ignored h]
      refine ih hrest fun pulse => ?_
      have := htotal pulse
      rwa [RawDev.run_cons, (RawDev.step_ignored h).2, RawDev.accepted_ignored h] at this
    · rw [RawDev.fits_accepted hc h]
      have hstep := RawDev.step_total hc h
      have hsum : ∀ pulse, total pulse (dev.step c).events =
          total pulse dev.events + (if c.ev.pulse = pulse then c.ev.duration.toNat else 0) ∧
          total pulse ((dev.step c).run calls).events =
            total pulse (dev.step c).events + total pulse ((dev.step c).accepted calls) := by
        intro pulse
        have h1 := htotal pulse
        rw [RawDev.run_cons, RawDev.accepted_accepted h, total_cons] at h1
        have h2 := hstep.1 pulse
        have h3 := RawDev.run_total_le hrest pulse (dev.step c)
        constructor <;> omega
      exact ⟨hstep.2.mpr fun pulse => (hsum pulse).1, ih hrest fun pulse => (hsum pulse).2⟩

/-- The kinds of the events, where no event runs over: those of the first stay. -/
theorem RawDev.run_pulses {calls : List Sample} (hcalls : ∀ c ∈ calls, c.Valid) {dev : RawDev}
    (hfits : dev.Fits calls) :
    ∃ l, (dev.run calls).events.map RawEvent.pulse = dev.events.map RawEvent.pulse ++ l := by
  induction calls generalizing dev with
  | nil => exact ⟨[], (List.append_nil _).symm⟩
  | cons c calls ih =>
    obtain ⟨hc, hrest⟩ := List.forall_mem_cons.mp hcalls
    rw [RawDev.run_cons]
    by_cases h : dev.idle = true ∧ c.ev.pulse = false
    · rw [RawDev.fits_ignored h] at hfits
      rw [(RawDev.step_ignored h).2]
      exact ih hrest hfits
    · rw [RawDev.fits_accepted hc h] at hfits
      obtain ⟨hfit, hnext⟩ := hfits
      obtain ⟨-, l, hl, -⟩ := RawDev.step_pending hc h hfit
      obtain ⟨l', hl'⟩ := ih hrest hnext
      exact ⟨l ++ l', by rw [hl', hl, List.append_assoc]⟩

/-- **All samples**, where no event runs over. -/
theorem RawDev.run_good {calls : List Sample} (hcalls : ∀ c ∈ calls, c.Valid) {dev : RawDev}
    (hgood : dev.Good) (hfirst : dev.idle = true ∨ dev.events ≠ [] ∨ ∀ c ∈ calls.head?, c.ev.pulse = true)
    (hfits : dev.Fits calls) :
    (dev.run calls).Good ∧ ∀ pulse, total pulse (dev.run calls).events =
      total pulse dev.events + total pulse (dev.accepted calls) := by
  induction calls generalizing dev with
  | nil => exact ⟨hgood, fun _ => rfl⟩
  | cons c calls ih =>
    obtain ⟨hc, hrest⟩ := List.forall_mem_cons.mp hcalls
    rw [RawDev.run_cons]
    by_cases h : dev.idle = true ∧ c.ev.pulse = false
    · rw [RawDev.fits_ignored h] at hfits
      rw [(RawDev.step_ignored h).2, RawDev.accepted_ignored h]
      exact ih hrest hgood (.inl h.1) hfits
    · rw [RawDev.fits_accepted hc h] at hfits
      obtain ⟨hfit, hnext⟩ := hfits
      obtain ⟨hgood', hne⟩ := hgood.step hc h (hfirst.imp_right (Or.imp_right fun hf => hf c rfl)) hfit
      obtain ⟨hrun, htotal⟩ := ih hrest hgood' (.inr (.inl hne)) hnext
      refine ⟨hrun, fun pulse => ?_⟩
      rw [htotal pulse, RawDev.accepted_accepted h, total_cons, ← Nat.add_assoc]
      exact congrArg (· + _) ((RawDev.step_total hc h).2.mp hfit pulse)

/-- **What the events are**: they are bursts that keep the time of the samples that were accepted exactly
if the samples of no event add up to 2³² ns, and the first of a device that is not idle is a pulse. -/
theorem storeWithFilter_merges_iff (idle : Bool) {calls : List Sample} (hcalls : ∀ c ∈ calls, c.Valid) :
    (Bursts ((RawDev.new idle).run calls).idle ((RawDev.new idle).run calls).events ∧
      ∀ pulse, total pulse ((RawDev.new idle).run calls).events =
        total pulse ((RawDev.new idle).accepted calls)) ↔
    MergesFit idle none calls ∧ (idle = true ∨ ∀ c ∈ calls.head?, c.ev.pulse = true) := by
  have hnone : ∀ pulse, total pulse (RawDev.new idle).events = 0 := fun _ => rfl
  constructor
  · rintro ⟨hbursts, htotal⟩
    have hfits : (RawDev.new idle).Fits calls :=
      RawDev.fits_of_total hcalls fun pulse => by rw [hnone, Nat.zero_add, htotal]
    refine ⟨hfits, ?_⟩
    cases idle with
    | true => exact .inl rfl
    | false =>
      refine .inr fun c hc => ?_
      obtain ⟨rest, rfl⟩ : ∃ rest, calls = c :: rest := ⟨calls.tail, List.eq_cons_of_mem_head? hc⟩
      obtain ⟨hvalid, hrest⟩ := List.forall_mem_cons.mp hcalls
      have haccept : ¬((RawDev.new false).idle = true ∧ c.ev.pulse = false) := fun h => nomatch h.1
      obtain ⟨hfit, hnext⟩ := (RawDev.fits_accepted hvalid haccept rest).mp hfits
      obtain ⟨-, l, hl, hlast⟩ := RawDev.step_pending hvalid haccept hfit
      obtain ⟨l', hl'⟩ := RawDev.run_pulses hrest hnext
      rw [hl, hlast rfl] at hl'
      have hstarts := hbursts.starts
      rw [RawDev.run_cons] at hstarts
      rcases hevents : (((RawDev.new false).step c).run rest).events with _ | ⟨e, es⟩
      · rw [hevents] at hl'
        exact nomatch hl'
      · rw [hevents] at hl' hstarts
        have he : e.pulse = c.ev.pulse := (List.cons.inj hl').1
        exact he.symm.trans (hstarts e rfl)
  · rintro ⟨hfits, hfirst⟩
    obtain ⟨hgood, htotal⟩ := RawDev.run_good hcalls (RawDev.good_new idle)
      (hfirst.imp id .inr) hfits
    refine ⟨hgood.bursts, fun pulse => ?_⟩
    rw [htotal, hnone, Nat.zero_add]

/-- A space in idle mode, and a burst whose samples come in parts. -/
def burst : List Sample :=
  [(false, 40000000), (true, 4000000), (true, 5000000), (false, 4500000), (true, 560000),
    (false, 100000000), (false, 30000000), (false, 70000000)].map
    fun e => ⟨125000000, e.2, e.1, false⟩

theorem storeWithFilter_merges_burst :
    Bursts ((RawDev.new true).run burst).idle ((RawDev.new true).run burst).events ∧
      ∀ pulse, total pulse ((RawDev.new true).run burst).events =
        total pulse ((RawDev.new true).accepted burst) :=
  (storeWithFilter_merges_iff true (by decide)).mpr ⟨by decide, .inl rfl⟩

/-- Five seconds of pulse in two samples. -/
def longPulse : List Sample := [⟨125000000, 3000000000, true, false⟩, ⟨125000000, 2000000000, true, false⟩]

/-- The event of a long pulse is shorter than its samples. -/
theorem storeWithFilter_longPulse :
    (∀ c ∈ longPulse, c.Valid) ∧
    total true ((RawDev.new true).run longPulse).events = 705032704 ∧
    total true ((RawDev.new true).accepted longPulse) = 5000000000 := by
  refine ⟨by decide, by decide, by decide⟩

end Rc
end TbsMedia
