import Mathlib
import TbsMedia.Cec.Message
import TbsMedia.Lib.Runs

/-!
# Lost CEC messages

A file handle queues the messages it receives, and the events.  When a message finds no memory or no room, a
message is lost, and a lost-message event is queued: there is one entry for it, in which losses are added up
until it is dequeued.

* `cecQueueEventFh`, `cecQueueMsgFh`, `cecReceiveMsg`, `cecDqevent`: the sections under `fh->lock`.
* `fhStep`: a step of the file handle.
* `LossAccounted`: what is known of the messages queued, received and lost.
* `lossAccounted_run`: it holds of every run.
* `not_accounted`: the count of an event has 32 bits.
-/

namespace TbsMedia
namespace Cec

open Lib

abbrev CEC_NUM_CORE_EVENTS : ℕ := 2
abbrev CEC_NUM_EVENTS : ℕ := 8

local instance : NeZero CEC_NUM_EVENTS := ⟨by decide⟩

def CEC_EVENT_LOST_MSGS : UInt32 := 2

def CEC_EVENT_FL_DROPPED_EVENTS : UInt32 := 0x2

def CEC_MAX_MSG_RX_QUEUE_SZ : UInt32 := 18 * 3

/-! ## Events -/

/-- A `struct cec_event`. -/
structure CecEvent where
  ts : UInt64
  event : UInt32
  flags : UInt32
  raw : Fin 16 → UInt32

namespace CecEvent

/-- `lost_msgs.lost_msgs`, the first word of the union. -/
def lostMsgs (ev : CecEvent) : UInt32 :=
  ev.raw 0

/-- `lost_msgs.lost_msgs += n`. -/
def addLost (n : UInt32) (ev : CecEvent) : CecEvent :=
  { ev with raw := Function.update ev.raw 0 (ev.raw 0 + n) }

@[simp] theorem addLost_lostMsgs (n : UInt32) (ev : CecEvent) : (ev.addLost n).lostMsgs = ev.lostMsgs + n := by
  unfold addLost lostMsgs
  simp

/-- `flags |= CEC_EVENT_FL_DROPPED_EVENTS`. -/
def markDropped (ev : CecEvent) : CecEvent :=
  { ev with flags := ev.flags ||| CEC_EVENT_FL_DROPPED_EVENTS }

end CecEvent

/-- A `struct cec_event_entry`: one of `core_events`, or one that was allocated. -/
inductive Entry where
  | core (evIdx : ℕ)
  | allocated (n : ℕ)
deriving DecidableEq

/-- The queues of a `struct cec_fh`. -/
structure CecFh where
  events : Fin CEC_NUM_EVENTS → List Entry
  queuedEvents : Fin CEC_NUM_EVENTS → UInt16
  totalQueuedEvents : UInt32
  /-- The contents of the entries. -/
  ev : Entry → CecEvent
  /-- How many entries have been allocated. -/
  allocated : ℕ
  msgs : List CecMsg
  queuedMsgs : UInt32

/-- `max_events`. -/
def maxEvents : Fin CEC_NUM_EVENTS → UInt16 :=
  ![1, 1, 800, 800, 8, 8, 8, 8]

namespace CecFh

/-- Change an entry in place. -/
def modify (fh : CecFh) (e : Entry) (f : CecEvent → CecEvent) : CecFh :=
  { fh with ev := Function.update fh.ev e (f (fh.ev e)) }

@[simp] theorem modify_ev (fh : CecFh) (e : Entry) (f : CecEvent → CecEvent) :
    (fh.modify e f).ev e = f (fh.ev e) := by
  unfold modify
  simp

/-- Mark that events were lost. -/
def markDropped (fh : CecFh) (i : Fin CEC_NUM_EVENTS) : CecFh :=
  (fh.events i).head?.elim fh fun e => fh.modify e CecEvent.markDropped

/-- The entry for an event of the kind `i`; there is memory for one or not. -/
def newEntry (fh : CecFh) (i : Fin CEC_NUM_EVENTS) (memory : Bool) : Option (CecFh × Entry) :=
  if i.val < CEC_NUM_CORE_EVENTS then some (fh, .core i.val)
  else if memory then some ({ fh with allocated := fh.allocated + 1 }, .allocated fh.allocated)
  else none

/-- The entry is added at the end of its queue, where there is room. -/
def addEntry (fh : CecFh) (i : Fin CEC_NUM_EVENTS) (e : Entry) : CecFh :=
  { fh with
    events := Function.update fh.events i (fh.events i ++ [e])
    queuedEvents := Function.update fh.queuedEvents i (fh.queuedEvents i + 1)
    totalQueuedEvents := fh.totalQueuedEvents + 1 }

@[simp] theorem addEntry_queuedEvents (fh : CecFh) (i : Fin CEC_NUM_EVENTS) (e : Entry) :
    (fh.addEntry i e).queuedEvents i = fh.queuedEvents i + 1 := by
  unfold addEntry
  simp

@[simp] theorem addEntry_ev (fh : CecFh) (i : Fin CEC_NUM_EVENTS) (e : Entry) : (fh.addEntry i e).ev = fh.ev :=
  rfl

/-- The entry takes the place of the oldest one of a full queue, unless it is the one there. -/
def replaceEntry (fh : CecFh) (i : Fin CEC_NUM_EVENTS) (e : Entry) : CecFh :=
  if CEC_NUM_CORE_EVENTS ≤ i.val then
    { fh with events := Function.update fh.events i (fh.events i ++ [e]).tail }
  else fh

/-- The event is put into its entry, and the entry queued. -/
def putEvent (fh : CecFh) (i : Fin CEC_NUM_EVENTS) (e : Entry) (newEv : CecEvent) : CecFh :=
  if newEv.event = CEC_EVENT_LOST_MSGS ∧ fh.queuedEvents i ≠ 0 then fh.modify e (.addLost newEv.lostMsgs)
  else
    let fh := fh.modify e fun _ => newEv
    if fh.queuedEvents i < maxEvents i then fh.addEntry i e
    else (fh.replaceEntry i e).markDropped i

/-- The event goes to the queue of its kind. -/
def queueEvent (fh : CecFh) (i : Fin CEC_NUM_EVENTS) (newEv : CecEvent) (memory : Bool) : CecFh :=
  match fh.newEntry i memory with
  | some (fh, e) => fh.putEvent i e newEv
  | none => fh.markDropped i

end CecFh

/-- `cec_queue_event_fh`, at the time `now`. -/
def cecQueueEventFh (fh : CecFh) (newEv : CecEvent) (ts now : UInt64) (memory : Bool) : CecFh :=
  if h : (newEv.event - 1).toNat < CEC_NUM_EVENTS then
    fh.queueEvent ⟨(newEv.event - 1).toNat, h⟩ { newEv with ts := if ts = 0 then now else ts } memory
  else fh

/-- `ev_lost_msgs`. -/
def evLostMsgs : CecEvent where
  ts := 0
  event := CEC_EVENT_LOST_MSGS
  flags := 0
  raw := Function.update (fun _ => 0) 0 1

/-- The first section of `cec_queue_msg_fh`, and whether a message is lost. -/
def cecQueueMsgFh (fh : CecFh) (msg : CecMsg) (memory : Bool) : CecFh × Bool :=
  if memory then
    if fh.queuedMsgs < CEC_MAX_MSG_RX_QUEUE_SZ then
      ({ fh with msgs := fh.msgs ++ [msg], queuedMsgs := fh.queuedMsgs + 1 }, false)
    else ({ fh with msgs := (fh.msgs ++ [msg]).tail }, true)
  else (fh, true)

/-- The section of `cec_receive_msg`: the first message, if there is one, with the timeout of the caller. -/
def cecReceiveMsg (fh : CecFh) (timeout : ℕ) : Option (CecFh × CecMsg) :=
  if fh.queuedMsgs = 0 then none
  else fh.msgs.head?.map fun msg =>
    ({ fh with msgs := fh.msgs.tail, queuedMsgs := fh.queuedMsgs - 1 }, { msg with timeout := timeout })

/-- A turn of the search for the oldest event. -/
def findOldest (fh : CecFh) (best : Option (Entry × Fin CEC_NUM_EVENTS) × UInt64) (i : Fin CEC_NUM_EVENTS) :
    Option (Entry × Fin CEC_NUM_EVENTS) × UInt64 :=
  match (fh.events i).head? with
  | some e => if (fh.ev e).ts ≤ best.2 then (some (e, i), (fh.ev e).ts) else best
  | none => best

/-- The section of `cec_dqevent`: the oldest event, if there is one. -/
def cecDqevent (fh : CecFh) : Option (CecFh × CecEvent) :=
  ((List.finRange CEC_NUM_EVENTS).foldl (findOldest fh) (none, ~~~0)).1.map fun (e, i) =>
    ({ fh with
       events := Function.update fh.events i ((fh.events i).erase e)
       queuedEvents := Function.update fh.queuedEvents i (fh.queuedEvents i - 1)
       totalQueuedEvents := fh.totalQueuedEvents - 1 },
      fh.ev e)

/-! ## Runs of a file handle -/

/-- A file handle, and its history. -/
structure FhSys where
  fh : CecFh
  /-- The calls of `cec_queue_msg_fh` that lost a message, and have yet to queue the event. -/
  reporting : ℕ
  /-- The messages that `cec_queue_msg_fh` was called for. -/
  queued : List CecMsg
  received : List CecMsg
  dequeued : List CecEvent
  /-- How often the count of the pending event has started over. -/
  wraps : ℕ

/-- What happens next. -/
inductive FhAct where
  | queueMsg (msg : CecMsg) (memory : Bool)
  | reportLost (now : UInt64)
  | receive (timeout : ℕ)
  | dqevent
  /-- Another event, of any kind but `CEC_EVENT_LOST_MSGS`. -/
  | queueEvent (newEv : CecEvent) (ts now : UInt64) (memory : Bool)

/-- The number of messages that pending events say were lost. -/
def pendingLost (fh : CecFh) : ℕ :=
  ((fh.events 1).map fun e => (fh.ev e).lostMsgs.toNat).sum

/-- The number of messages that the events of a list say were lost. -/
def lostIn (evs : List CecEvent) : ℕ :=
  ((evs.filter (·.event = CEC_EVENT_LOST_MSGS)).map (·.lostMsgs.toNat)).sum

/-- One more loss makes the count of the pending event start over. -/
def Wraps (fh : CecFh) : Prop :=
  fh.queuedEvents 1 ≠ 0 ∧ (fh.ev (.core 1)).lostMsgs + 1 = 0

instance (fh : CecFh) : Decidable (Wraps fh) :=
  inferInstanceAs (Decidable (_ ∧ _))

/-- A step, or `none` where nothing of the kind can happen. -/
def fhStep (s : FhSys) : FhAct → Option FhSys
  | .queueMsg msg memory =>
    let r := cecQueueMsgFh s.fh msg memory
    some { s with
      fh := r.1
      reporting := if r.2 then s.reporting + 1 else s.reporting
      queued := s.queued ++ [msg] }
  | .reportLost now =>
    if s.reporting = 0 then none
    else some { s with
      fh := cecQueueEventFh s.fh evLostMsgs now now true
      reporting := s.reporting - 1
      wraps := if Wraps s.fh then s.wraps + 1 else s.wraps }
  | .receive timeout =>
    some ((cecReceiveMsg s.fh timeout).elim s fun (fh, msg) =>
      { s with fh := fh, received := s.received ++ [msg] })
  | .dqevent =>
    some ((cecDqevent s.fh).elim s fun (fh, ev) => { s with fh := fh, dequeued := s.dequeued ++ [ev] })
  | .queueEvent newEv ts now memory =>
    if newEv.event = CEC_EVENT_LOST_MSGS then none
    else some { s with fh := cecQueueEventFh s.fh newEv ts now memory }

/-- A file handle that has just been opened. -/
def FhSys.initial : FhSys where
  fh :=
    { events := fun _ => []
      queuedEvents := fun _ => 0
      totalQueuedEvents := 0
      ev := fun _ => ⟨0, 0, 0, fun _ => 0⟩
      allocated := 0
      msgs := []
      queuedMsgs := 0 }
  reporting := 0
  queued := []
  received := []
  dequeued := []
  wraps := 0

/-- The message, but for its timeout, which is the one of the caller that receives it. -/
def untimed (msg : CecMsg) : CecMsg :=
  { msg with timeout := 0 }

/-- **Losses are accounted for**: messages are received in the order in which they are queued; a message is
received, still queued, about to be reported as lost, or counted by a lost-message event that has been dequeued
or is pending, where the count of an event has 32 bits; the queues have the lengths that they are said to
have. -/
structure LossAccounted (s : FhSys) : Prop where
  ordered : ((s.received ++ s.fh.msgs).map untimed).Sublist (s.queued.map untimed)
  accounted : s.queued.length = s.received.length + s.fh.msgs.length + s.reporting +
    (lostIn s.dequeued + pendingLost s.fh + 2 ^ 32 * s.wraps)
  bounded : s.fh.queuedMsgs.toNat = s.fh.msgs.length ∧ s.fh.msgs.length ≤ CEC_MAX_MSG_RX_QUEUE_SZ.toNat
  total : s.fh.totalQueuedEvents.toNat = ∑ i, (s.fh.events i).length
  each : ∀ i, (s.fh.queuedEvents i).toNat = (s.fh.events i).length

/-! ## The queues of events -/

/-- The entry may be on the queue `i`. -/
def Owned (fh : CecFh) (i : Fin CEC_NUM_EVENTS) : Entry → Prop
  | .core evIdx => evIdx = i.val
  | .allocated n => CEC_NUM_CORE_EVENTS ≤ i.val ∧ n < fh.allocated

/-- The queues of events have the lengths they are said to have, within their bounds, and hold entries of their
own, with events of their kinds. -/
structure QueuesOk (fh : CecFh) : Prop where
  each : ∀ i, (fh.queuedEvents i).toNat = (fh.events i).length
  room : ∀ i, (fh.events i).length ≤ (maxEvents i).toNat
  total : fh.totalQueuedEvents.toNat = ∑ i, (fh.events i).length
  owned : ∀ i, ∀ e ∈ fh.events i, Owned fh i e
  kind : ∀ i, ∀ e ∈ fh.events i, (fh.ev e).event.toNat = i.val + 1

theorem queuesOk_initial : QueuesOk FhSys.initial.fh where
  each := fun _ => rfl
  room := fun _ => Nat.zero_le _
  total := by simp [FhSys.initial]
  owned := fun _ _ he => absurd he List.not_mem_nil
  kind := fun _ _ he => absurd he List.not_mem_nil

/-- One list of a family is replaced. -/
theorem sum_length_update {α : Type*} {n : ℕ} (f : Fin n → List α) (i : Fin n) (l : List α) :
    ∑ j, (Function.update f i l j).length + (f i).length = ∑ j, (f j).length + l.length := by
  have hrest : ∑ j ∈ Finset.univ.erase i, (Function.update f i l j).length =
      ∑ j ∈ Finset.univ.erase i, (f j).length := by
    refine Finset.sum_congr rfl fun j hj => ?_
    rw [Function.update_of_ne (Finset.ne_of_mem_erase hj)]
  rw [← Finset.add_sum_erase _ _ (Finset.mem_univ i), hrest, Function.update_self,
    ← Finset.add_sum_erase Finset.univ (fun j => (f j).length) (Finset.mem_univ i)]
  omega

section Queues

variable {fh : CecFh} {i : Fin CEC_NUM_EVENTS} {e : Entry}

/-- All the queues together are far from the bounds of the counters. -/
theorem QueuesOk.sum_le (h : QueuesOk fh) : ∑ j, (fh.events j).length ≤ 1634 :=
  (Finset.sum_le_sum fun j _ => h.room j).trans (Nat.le_of_eq (by decide))

theorem maxEvents_le (i : Fin CEC_NUM_EVENTS) : (maxEvents i).toNat ≤ 800 := by
  revert i
  decide

/-- An entry of a queue that is on no other one. -/
theorem Owned.eq_of_core {evIdx : ℕ} {j : Fin CEC_NUM_EVENTS} (h : Owned fh j (.core evIdx)) : evIdx = j.val := h

/-- An entry is rewritten with an event of its kind. -/
theorem QueuesOk.modify (h : QueuesOk fh) {f : CecEvent → CecEvent}
    (hf : ∀ j, e ∈ fh.events j → (f (fh.ev e)).event.toNat = j.val + 1) : QueuesOk (fh.modify e f) where
  each := h.each
  room := h.room
  total := h.total
  owned := h.owned
  kind := by
    intro j e' he'
    change (Function.update fh.ev e (f (fh.ev e)) e').event.toNat = _
    by_cases heq : e' = e
    · rw [heq, Function.update_self]
      exact hf j (heq ▸ he')
    · rw [Function.update_of_ne heq]
      exact h.kind j e' he'

theorem QueuesOk.markDropped (h : QueuesOk fh) (i : Fin CEC_NUM_EVENTS) : QueuesOk (fh.markDropped i) := by
  unfold CecFh.markDropped
  cases (fh.events i).head? with
  | none => exact h
  | some e => exact h.modify fun j he => h.kind j e he

/-- A queue is replaced by another one, with the counters that go with it. -/
theorem QueuesOk.change (h : QueuesOk fh) {l : List Entry} {n : UInt16} {m : UInt32} (hn : n.toNat = l.length)
    (hl : l.length ≤ (maxEvents i).toNat)
    (htotal : m.toNat + (fh.events i).length = fh.totalQueuedEvents.toNat + l.length)
    (howned : ∀ e ∈ l, Owned fh i e) (hkind : ∀ e ∈ l, (fh.ev e).event.toNat = i.val + 1) :
    QueuesOk { fh with
      events := Function.update fh.events i l
      queuedEvents := Function.update fh.queuedEvents i n
      totalQueuedEvents := m } where
  each := by
    intro j
    dsimp only
    by_cases hj : j = i
    · rw [hj, Function.update_self, Function.update_self, hn]
    · rw [Function.update_of_ne hj, Function.update_of_ne hj, h.each]
  room := by
    intro j
    dsimp only
    by_cases hj : j = i
    · rw [hj, Function.update_self]
      exact hl
    · rw [Function.update_of_ne hj]
      exact h.room j
  total := by
    have hsum := sum_length_update fh.events i l
    rw [h.total] at htotal
    dsimp only
    omega
  owned := by
    intro j e he
    dsimp only at he
    by_cases hj : j = i
    · rw [hj, Function.update_self] at he
      rw [hj]
      exact howned e he
    · rw [Function.update_of_ne hj] at he
      exact h.owned j e he
  kind := by
    intro j e he
    dsimp only at he
    by_cases hj : j = i
    · rw [hj, Function.update_self] at he
      rw [hj]
      exact hkind e he
    · rw [Function.update_of_ne hj] at he
      exact h.kind j e he

/-- An entry is added where there is room. -/
theorem QueuesOk.addEntry (h : QueuesOk fh) (hroom : fh.queuedEvents i < maxEvents i) (ho : Owned fh i e)
    (hk : (fh.ev e).event.toNat = i.val + 1) : QueuesOk (fh.addEntry i e) := by
  have hlt : (fh.events i).length < (maxEvents i).toNat := by
    rw [← h.each]
    exact UInt16.lt_iff_toNat_lt.mp hroom
  have hmax := maxEvents_le i
  have htotal := h.sum_le
  rw [← h.total] at htotal
  refine h.change (l := fh.events i ++ [e]) ?_ ?_ ?_ ?_ ?_
  · rw [UInt16.toNat_add, h.each, List.length_append]
    change ((fh.events i).length + 1) % 2 ^ 16 = (fh.events i).length + 1
    omega
  · rw [List.length_append]
    exact hlt
  · rw [UInt32.toNat_add, List.length_append]
    change (fh.totalQueuedEvents.toNat + 1) % 2 ^ 32 + _ = _ + (_ + 1)
    omega
  · intro e' he'
    rcases List.mem_append.mp he' with he' | he'
    · exact h.owned i e' he'
    · rw [List.mem_singleton.mp he']
      exact ho
  · intro e' he'
    rcases List.mem_append.mp he' with he' | he'
    · exact h.kind i e' he'
    · rw [List.mem_singleton.mp he']
      exact hk

/-- An entry takes the place of the oldest one. -/
theorem QueuesOk.replaceEntry (h : QueuesOk fh) (ho : Owned fh i e)
    (hk : (fh.ev e).event.toNat = i.val + 1) : QueuesOk (fh.replaceEntry i e) := by
  unfold CecFh.replaceEntry
  split
  · have hlen : (fh.events i ++ [e]).tail.length = (fh.events i).length := by
      rw [List.length_tail, List.length_append]
      rfl
    have hch := h.change (i := i) (l := (fh.events i ++ [e]).tail) (n := fh.queuedEvents i)
      (m := fh.totalQueuedEvents) (by rw [hlen, h.each]) (by rw [hlen]; exact h.room i) (by rw [hlen])
      (fun e' he' => ?_) fun e' he' => ?_
    · rwa [Function.update_eq_self] at hch
    · rcases List.mem_append.mp (List.mem_of_mem_tail he') with he' | he'
      · exact h.owned i e' he'
      · rw [List.mem_singleton.mp he']
        exact ho
    · rcases List.mem_append.mp (List.mem_of_mem_tail he') with he' | he'
      · exact h.kind i e' he'
      · rw [List.mem_singleton.mp he']
        exact hk
  · exact h

end Queues

/-- The entry for an event of the kind `i`: it is on no other queue. -/
theorem newEntry_spec {fh fh' : CecFh} {i : Fin CEC_NUM_EVENTS} {e : Entry} {memory : Bool} (h : QueuesOk fh)
    (he : fh.newEntry i memory = some (fh', e)) :
    QueuesOk fh' ∧ Owned fh' i e ∧ (∀ j, e ∈ fh'.events j → j = i) ∧
      ∃ n, fh' = { fh with allocated := n } := by
  unfold CecFh.newEntry at he
  split at he
  · next hcore =>
    obtain ⟨rfl, rfl⟩ := Prod.mk.inj (Option.some.inj he)
    exact ⟨h, rfl, fun j hj => Fin.ext (h.owned j _ hj).symm, fh.allocated, rfl⟩
  · next hcore =>
    split at he
    · obtain ⟨rfl, rfl⟩ := Prod.mk.inj (Option.some.inj he)
      refine ⟨⟨h.each, h.room, h.total, fun j e hj => ?_, h.kind⟩, ⟨Nat.not_lt.mp hcore, Nat.lt_succ_self _⟩,
        fun j hj => absurd (h.owned j _ hj).2 (Nat.lt_irrefl _), _, rfl⟩
      have hown := h.owned j e hj
      cases e with
      | core evIdx => exact hown
      | allocated n => exact ⟨hown.1, Nat.lt_succ_of_lt hown.2⟩
    · exact absurd he.symm (Option.some_ne_none _)

/-- The events of a kind, and the entry for lost-message events, as they were. -/
structure LostKept (fh fh' : CecFh) : Prop where
  events : fh'.events 1 = fh.events 1
  queued : fh'.queuedEvents 1 = fh.queuedEvents 1
  lost : (fh'.ev (.core 1)).lostMsgs = (fh.ev (.core 1)).lostMsgs

theorem LostKept.trans {fh fh' fh'' : CecFh} (h : LostKept fh fh') (h' : LostKept fh' fh'') : LostKept fh fh'' :=
  ⟨h'.events.trans h.events, h'.queued.trans h.queued, h'.lost.trans h.lost⟩

/-- The messages are left alone. -/
structure MsgsKept (fh fh' : CecFh) : Prop where
  msgs : fh'.msgs = fh.msgs
  queuedMsgs : fh'.queuedMsgs = fh.queuedMsgs

theorem MsgsKept.trans {fh fh' fh'' : CecFh} (h : MsgsKept fh fh') (h' : MsgsKept fh' fh'') : MsgsKept fh fh'' :=
  ⟨h'.msgs.trans h.msgs, h'.queuedMsgs.trans h.queuedMsgs⟩

section Events

variable {fh : CecFh} {i : Fin CEC_NUM_EVENTS} {e : Entry} {newEv : CecEvent}

theorem lostKept_modify (f : CecEvent → CecEvent) (he : e = .core 1 → (f (fh.ev e)).lostMsgs = (fh.ev e).lostMsgs) :
    LostKept fh (fh.modify e f) where
  events := rfl
  queued := rfl
  lost := by
    change (Function.update fh.ev e (f (fh.ev e)) (.core 1)).lostMsgs = _
    by_cases heq : e = .core 1
    · rw [heq, Function.update_self, ← heq]
      exact he heq
    · rw [Function.update_of_ne (Ne.symm heq)]

theorem lostKept_markDropped (fh : CecFh) (i : Fin CEC_NUM_EVENTS) : LostKept fh (fh.markDropped i) := by
  unfold CecFh.markDropped
  cases (fh.events i).head? with
  | none => exact ⟨rfl, rfl, rfl⟩
  | some e => exact lostKept_modify _ fun _ => rfl

theorem msgsKept_markDropped (fh : CecFh) (i : Fin CEC_NUM_EVENTS) : MsgsKept fh (fh.markDropped i) := by
  unfold CecFh.markDropped
  cases (fh.events i).head? <;> exact ⟨rfl, rfl⟩

theorem lostKept_addEntry (hi : i ≠ 1) : LostKept fh (fh.addEntry i e) :=
  ⟨Function.update_of_ne hi.symm _ _, Function.update_of_ne hi.symm _ _, rfl⟩

theorem lostKept_replaceEntry (hi : i ≠ 1) : LostKept fh (fh.replaceEntry i e) := by
  unfold CecFh.replaceEntry
  split
  · exact ⟨Function.update_of_ne hi.symm _ _, rfl, rfl⟩
  · exact ⟨rfl, rfl, rfl⟩

theorem msgsKept_replaceEntry : MsgsKept fh (fh.replaceEntry i e) := by
  unfold CecFh.replaceEntry
  split <;> exact ⟨rfl, rfl⟩

/-- **An event is put** into its entry, and the entry queued. -/
theorem QueuesOk.putEvent (h : QueuesOk fh) (ho : Owned fh i e) (hother : ∀ j, e ∈ fh.events j → j = i)
    (hk : newEv.event.toNat = i.val + 1) : QueuesOk (fh.putEvent i e newEv) := by
  have hwrite : QueuesOk (fh.modify e fun _ => newEv) := h.modify fun j he => hother j he ▸ hk
  have hkind : ((fh.modify e fun _ => newEv).ev e).event.toNat = i.val + 1 := by
    rw [CecFh.modify_ev]
    exact hk
  have hown : Owned (fh.modify e fun _ => newEv) i e := by cases e <;> exact ho
  unfold CecFh.putEvent
  dsimp only
  split
  · exact h.modify fun j he => h.kind j e he
  · split
    · next hroom => exact hwrite.addEntry hroom hown hkind
    · exact (hwrite.replaceEntry hown hkind).markDropped i

theorem lostKept_putEvent (ho : Owned fh i e) (hi : i ≠ 1) (hn : newEv.event ≠ CEC_EVENT_LOST_MSGS) :
    LostKept fh (fh.putEvent i e newEv) := by
  have hwrite : LostKept fh (fh.modify e fun _ => newEv) := by
    refine lostKept_modify _ fun he => absurd ?_ hi
    rw [he] at ho
    exact Fin.ext ho.symm
  unfold CecFh.putEvent
  rw [if_neg fun h => hn h.1]
  dsimp only
  split
  · exact hwrite.trans (lostKept_addEntry hi)
  · exact (hwrite.trans (lostKept_replaceEntry hi)).trans (lostKept_markDropped _ i)

theorem msgsKept_putEvent : MsgsKept fh (fh.putEvent i e newEv) := by
  have hwrite : MsgsKept fh (fh.modify e fun _ => newEv) := ⟨rfl, rfl⟩
  unfold CecFh.putEvent
  dsimp only
  split
  · exact ⟨rfl, rfl⟩
  · split
    · exact ⟨rfl, rfl⟩
    · exact (hwrite.trans msgsKept_replaceEntry).trans (msgsKept_markDropped _ i)

/-- An event goes to the queue of its kind. -/
theorem QueuesOk.queueEvent (h : QueuesOk fh) (hk : newEv.event.toNat = i.val + 1) (memory : Bool) :
    QueuesOk (fh.queueEvent i newEv memory) := by
  unfold CecFh.queueEvent
  split
  · next fh' e he =>
    obtain ⟨h', ho, hother, -⟩ := newEntry_spec h he
    exact h'.putEvent ho hother hk
  · exact h.markDropped i

theorem lostKept_queueEvent (h : QueuesOk fh) (hi : i ≠ 1) (hn : newEv.event ≠ CEC_EVENT_LOST_MSGS) (memory : Bool) :
    LostKept fh (fh.queueEvent i newEv memory) := by
  unfold CecFh.queueEvent
  split
  · next fh' e he =>
    obtain ⟨-, ho, -, n, rfl⟩ := newEntry_spec h he
    have halloc : LostKept fh { fh with allocated := n } := ⟨rfl, rfl, rfl⟩
    exact halloc.trans (lostKept_putEvent ho hi hn)
  · exact lostKept_markDropped fh i

theorem msgsKept_queueEvent (h : QueuesOk fh) (memory : Bool) : MsgsKept fh (fh.queueEvent i newEv memory) := by
  unfold CecFh.queueEvent
  split
  · next fh' e he =>
    obtain ⟨-, -, -, n, rfl⟩ := newEntry_spec h he
    have halloc : MsgsKept fh { fh with allocated := n } := ⟨rfl, rfl⟩
    exact halloc.trans msgsKept_putEvent
  · exact msgsKept_markDropped fh i

/-- The number of an event's kind. -/
theorem event_kind (h : (newEv.event - 1).toNat < CEC_NUM_EVENTS) :
    newEv.event.toNat = (newEv.event - 1).toNat + 1 := by
  have hev := newEv.event.toNat_lt
  rw [UInt32.toNat_sub] at h ⊢
  change (2 ^ 32 - 1 + newEv.event.toNat) % 2 ^ 32 < 8 at h
  change newEv.event.toNat = (2 ^ 32 - 1 + newEv.event.toNat) % 2 ^ 32 + 1
  omega

/-- **An event is queued**: the queues are as they should be, and the messages as they were. -/
theorem QueuesOk.cecQueueEventFh (h : QueuesOk fh) (newEv : CecEvent) (ts now : UInt64) (memory : Bool) :
    QueuesOk (cecQueueEventFh fh newEv ts now memory) ∧ MsgsKept fh (cecQueueEventFh fh newEv ts now memory) := by
  unfold Cec.cecQueueEventFh
  split
  · next hlt => exact ⟨h.queueEvent (event_kind hlt) memory, msgsKept_queueEvent h memory⟩
  · exact ⟨h, rfl, rfl⟩

/-- Other events leave the lost-message event as it was. -/
theorem lostKept_cecQueueEventFh (h : QueuesOk fh) (hn : newEv.event ≠ CEC_EVENT_LOST_MSGS) (ts now : UInt64)
    (memory : Bool) : LostKept fh (cecQueueEventFh fh newEv ts now memory) := by
  unfold cecQueueEventFh
  split
  · next hlt =>
    refine lostKept_queueEvent h (fun hi => hn ?_) ?_ memory
    · have hev := event_kind hlt
      have hone : (newEv.event - 1).toNat = 1 := congrArg Fin.val hi
      rw [← UInt32.toNat_inj, hev, hone]
      rfl
    · exact hn
  · exact ⟨rfl, rfl, rfl⟩

/-- A lost message is added to the pending event, or a new event is queued. -/
theorem cecQueueEventFh_lost (fh : CecFh) (ts now : UInt64) (memory : Bool) :
    ∃ ev : CecEvent, ev.event = CEC_EVENT_LOST_MSGS ∧ ev.lostMsgs = 1 ∧
      cecQueueEventFh fh evLostMsgs ts now memory =
        if fh.queuedEvents 1 = 0 then (fh.modify (.core 1) fun _ => ev).addEntry 1 (.core 1)
        else fh.modify (.core 1) (.addLost 1) := by
  refine ⟨{ evLostMsgs with ts := if ts = 0 then now else ts }, rfl, rfl, ?_⟩
  have hput : cecQueueEventFh fh evLostMsgs ts now memory =
      fh.putEvent 1 (.core 1) { evLostMsgs with ts := if ts = 0 then now else ts } := rfl
  rw [hput]
  unfold CecFh.putEvent
  by_cases hq : fh.queuedEvents 1 = 0
  · have hroom : (fh.modify (.core 1) fun _ =>
        { evLostMsgs with ts := if ts = 0 then now else ts }).queuedEvents 1 < maxEvents 1 := by
      change fh.queuedEvents 1 < 1
      rw [hq]
      decide
    rw [if_pos hq, if_neg fun h => h.2 hq]
    exact if_pos hroom
  · rw [if_neg hq]
    exact if_pos ⟨rfl, hq⟩

/-- The number of losses that are pending is the count of the one event, when it is queued. -/
theorem QueuesOk.pendingLost_eq (h : QueuesOk fh) :
    pendingLost fh = if fh.queuedEvents 1 = 0 then 0 else (fh.ev (.core 1)).lostMsgs.toNat := by
  have hsize := h.each 1
  have hroom := h.room 1
  unfold pendingLost
  by_cases hq : fh.queuedEvents 1 = 0
  · rw [if_pos hq]
    rw [hq] at hsize
    rw [List.eq_nil_of_length_eq_zero hsize.symm]
    rfl
  · rw [if_neg hq]
    have hpos : (fh.events 1).length ≠ 0 := fun hz => hq (UInt16.toNat_inj.mp (hsize.trans hz))
    have hmax : (maxEvents 1).toNat = 1 := rfl
    obtain ⟨e, he⟩ := List.length_eq_one_iff.mp (show (fh.events 1).length = 1 by omega)
    have hown := h.owned 1 e (by rw [he]; exact List.mem_singleton_self e)
    rw [he]
    cases e with
    | core evIdx =>
      rw [hown.eq_of_core]
      exact Nat.add_zero _
    | allocated n => exact absurd hown.1 (by decide)

theorem LostKept.pendingLost_eq {fh' : CecFh} (hk : LostKept fh fh') (h : QueuesOk fh) (h' : QueuesOk fh') :
    pendingLost fh' = pendingLost fh := by
  rw [h.pendingLost_eq, h'.pendingLost_eq, hk.queued, hk.lost]

/-- **A loss is counted**, unless the count starts over. -/
theorem pendingLost_report (h : QueuesOk fh) (ts now : UInt64) (memory : Bool) :
    pendingLost (cecQueueEventFh fh evLostMsgs ts now memory) + (if Wraps fh then 2 ^ 32 else 0) =
      pendingLost fh + 1 := by
  have h' := (h.cecQueueEventFh evLostMsgs ts now memory).1
  rw [h.pendingLost_eq, h'.pendingLost_eq]
  obtain ⟨ev, -, hone, heq⟩ := cecQueueEventFh_lost fh ts now memory
  rw [heq]
  by_cases hq : fh.queuedEvents 1 = 0
  · have hcount : ((fh.modify (.core 1) fun _ => ev).addEntry 1 (.core 1)).queuedEvents 1 = fh.queuedEvents 1 + 1 :=
      CecFh.addEntry_queuedEvents ..
    have hdata : ((fh.modify (.core 1) fun _ => ev).addEntry 1 (.core 1)).ev (.core 1) = ev := by
      rw [CecFh.addEntry_ev, CecFh.modify_ev]
    rw [if_pos hq, if_pos hq, hcount, hdata, hq, hone, if_neg fun h : Wraps fh => h.1 hq]
    rfl
  · have hdata : (fh.modify (.core 1) (.addLost 1)).ev (.core 1) = (fh.ev (.core 1)).addLost 1 :=
      CecFh.modify_ev ..
    have hcount : (fh.modify (.core 1) (.addLost 1)).queuedEvents 1 = fh.queuedEvents 1 := rfl
    rw [if_neg hq, if_neg hq, hcount, if_neg hq, hdata, CecEvent.addLost_lostMsgs]
    have hlt := (fh.ev (.core 1)).lostMsgs.toNat_lt
    have hadd : ((fh.ev (.core 1)).lostMsgs + 1).toNat = ((fh.ev (.core 1)).lostMsgs.toNat + 1) % 2 ^ 32 :=
      UInt32.toNat_add ..
    by_cases hw : (fh.ev (.core 1)).lostMsgs + 1 = 0
    · rw [if_pos ⟨hq, hw⟩]
      have hz : ((fh.ev (.core 1)).lostMsgs + 1).toNat = 0 := congrArg UInt32.toNat hw
      omega
    · rw [if_neg fun h : Wraps fh => hw h.2]
      have hz : ((fh.ev (.core 1)).lostMsgs + 1).toNat ≠ 0 := fun h => hw (UInt32.toNat_inj.mp h)
      omega

end Events

/-! ## Events are dequeued -/

/-- The search finds the first entry of a queue. -/
theorem foldl_findOldest (fh : CecFh) (l : List (Fin CEC_NUM_EVENTS))
    {best : Option (Entry × Fin CEC_NUM_EVENTS) × UInt64}
    (hbest : ∀ r, best.1 = some r → (fh.events r.2).head? = some r.1) {r : Entry × Fin CEC_NUM_EVENTS}
    (h : (l.foldl (findOldest fh) best).1 = some r) : (fh.events r.2).head? = some r.1 := by
  induction l generalizing best with
  | nil => exact hbest r h
  | cons i l ih =>
    refine ih (fun r' hr' => ?_) h
    unfold findOldest at hr'
    split at hr'
    · next e he =>
      split at hr'
      · obtain rfl := Option.some.inj hr'
        exact he
      · exact hbest r' hr'
    · exact hbest r' hr'

/-- **An event is dequeued**: it is the first of its queue. -/
theorem cecDqevent_spec {fh fh' : CecFh} {ev : CecEvent} (h : QueuesOk fh) (hd : cecDqevent fh = some (fh', ev)) :
    QueuesOk fh' ∧ MsgsKept fh fh' ∧ lostIn [ev] + pendingLost fh' = pendingLost fh := by
  obtain ⟨⟨e, i⟩, hfound, heq⟩ := Option.map_eq_some_iff.mp hd
  obtain ⟨rest, hl⟩ : ∃ rest, fh.events i = e :: rest := by
    have hhead := foldl_findOldest fh _ (fun r hr => absurd hr.symm (Option.some_ne_none r)) hfound
    cases hl : fh.events i with
    | nil => rw [hl] at hhead; exact absurd hhead.symm (Option.some_ne_none e)
    | cons e' rest =>
      rw [hl] at hhead
      obtain rfl := Option.some.inj hhead
      exact ⟨rest, rfl⟩
  have hpair := Prod.mk.inj heq
  rw [hl, List.erase_cons_head] at hpair
  obtain ⟨rfl, rfl⟩ := hpair
  have heach := h.each i
  rw [hl, List.length_cons] at heach
  have hroom := h.room i
  rw [hl, List.length_cons] at hroom
  have htotal := h.total
  have hsum : (fh.events i).length ≤ ∑ j, (fh.events j).length :=
    Finset.single_le_sum (f := fun j => (fh.events j).length) (fun _ _ => Nat.zero_le _) (Finset.mem_univ i)
  rw [hl, List.length_cons] at hsum
  have hle : fh.totalQueuedEvents.toNat < 2 ^ 32 := fh.totalQueuedEvents.toNat_lt
  have hsub : (fh.queuedEvents i - 1).toNat = rest.length := by
    have hlt : (fh.queuedEvents i).toNat < 2 ^ 16 := (fh.queuedEvents i).toNat_lt
    rw [UInt16.toNat_sub]
    change (2 ^ 16 - 1 + (fh.queuedEvents i).toNat) % 2 ^ 16 = rest.length
    omega
  have hok := h.change (i := i) (l := rest) (n := fh.queuedEvents i - 1) (m := fh.totalQueuedEvents - 1) hsub
    (by omega) ?_ (fun e' he' => h.owned i e' (by rw [hl]; exact List.mem_cons_of_mem e he'))
    fun e' he' => h.kind i e' (by rw [hl]; exact List.mem_cons_of_mem e he')
  · refine ⟨hok, ⟨rfl, rfl⟩, ?_⟩
    have hkind := h.kind i e (by rw [hl]; exact List.mem_cons_self ..)
    unfold pendingLost
    by_cases hi : i = 1
    · subst hi
      have hevent : (fh.ev e).event = CEC_EVENT_LOST_MSGS := UInt32.toNat_inj.mp hkind
      dsimp only
      rw [Function.update_self, hl, List.map_cons, List.sum_cons]
      simp [lostIn, hevent]
    · have hevent : (fh.ev e).event ≠ CEC_EVENT_LOST_MSGS := by
        intro heq
        rw [heq] at hkind
        exact hi (Fin.ext (Nat.succ.inj hkind.symm))
      dsimp only
      rw [Function.update_of_ne (Ne.symm hi)]
      simp [lostIn, hevent]
  · rw [UInt32.toNat_sub, hl, List.length_cons]
    change (2 ^ 32 - 1 + fh.totalQueuedEvents.toNat) % 2 ^ 32 + _ = _
    omega

theorem lostIn_append (l l' : List CecEvent) : lostIn (l ++ l') = lostIn l + lostIn l' := by
  unfold lostIn
  rw [List.filter_append, List.map_append, List.sum_append]

/-! ## Messages -/

/-- The queue of messages has the length it is said to have. -/
structure MsgsOk (fh : CecFh) : Prop where
  size : fh.queuedMsgs.toNat = fh.msgs.length
  le : fh.msgs.length ≤ CEC_MAX_MSG_RX_QUEUE_SZ.toNat

theorem MsgsOk.of_kept {fh fh' : CecFh} (h : MsgsOk fh) (hk : MsgsKept fh fh') : MsgsOk fh' :=
  ⟨by rw [hk.queuedMsgs, hk.msgs, h.size], by rw [hk.msgs]; exact h.le⟩

/-- The queues of events are left alone. -/
theorem QueuesOk.of_msgs {fh : CecFh} (h : QueuesOk fh) (l : List CecMsg) (n : UInt32) :
    QueuesOk { fh with msgs := l, queuedMsgs := n } :=
  ⟨h.each, h.room, h.total, h.owned, h.kind⟩

/-- **A message is queued**: it is at the end of the queue, or a message is lost. -/
theorem cecQueueMsgFh_spec {fh : CecFh} (h : MsgsOk fh) (hq : QueuesOk fh) (msg : CecMsg) (memory : Bool) :
    QueuesOk (cecQueueMsgFh fh msg memory).1 ∧ MsgsOk (cecQueueMsgFh fh msg memory).1 ∧
      pendingLost (cecQueueMsgFh fh msg memory).1 = pendingLost fh ∧
      (cecQueueMsgFh fh msg memory).1.msgs.Sublist (fh.msgs ++ [msg]) ∧
      (cecQueueMsgFh fh msg memory).1.msgs.length + (if (cecQueueMsgFh fh msg memory).2 then 1 else 0) =
        fh.msgs.length + 1 := by
  have hle := h.le
  unfold cecQueueMsgFh
  split
  · split
    · next hroom =>
      rw [UInt32.lt_iff_toNat_lt, h.size] at hroom
      have hmax : CEC_MAX_MSG_RX_QUEUE_SZ.toNat = 54 := rfl
      refine ⟨hq.of_msgs _ _, ⟨?_, ?_⟩, rfl, List.Sublist.refl _, ?_⟩
      · rw [UInt32.toNat_add, h.size, List.length_append]
        change (fh.msgs.length + 1) % 2 ^ 32 = fh.msgs.length + 1
        omega
      · rw [List.length_append]
        exact hroom
      · rw [List.length_append]
        rfl
    · have hlen : (fh.msgs ++ [msg]).tail.length = fh.msgs.length := by
        rw [List.length_tail, List.length_append]
        rfl
      refine ⟨hq.of_msgs _ _, ⟨?_, ?_⟩, rfl, List.tail_sublist _, ?_⟩
      · exact h.size.trans hlen.symm
      · exact hlen.symm ▸ h.le
      · dsimp only
        rw [hlen]
        rfl
  · exact ⟨hq, h, rfl, List.sublist_append_left _ _, rfl⟩

/-- **A message is received**: it is the first of the queue. -/
theorem cecReceiveMsg_spec {fh fh' : CecFh} {timeout : ℕ} {msg : CecMsg} (h : MsgsOk fh) (hq : QueuesOk fh)
    (hr : cecReceiveMsg fh timeout = some (fh', msg)) :
    QueuesOk fh' ∧ MsgsOk fh' ∧ pendingLost fh' = pendingLost fh ∧
      ∃ msg', fh.msgs = msg' :: fh'.msgs ∧ untimed msg' = untimed msg := by
  unfold cecReceiveMsg at hr
  split at hr
  · exact absurd hr.symm (Option.some_ne_none _)
  · obtain ⟨msg', hhead, heq⟩ := Option.map_eq_some_iff.mp hr
    obtain ⟨rfl, rfl⟩ := Prod.mk.inj heq
    obtain ⟨rest, hl⟩ : ∃ rest, fh.msgs = msg' :: rest := by
      cases hl : fh.msgs with
      | nil => rw [hl] at hhead; exact absurd hhead.symm (Option.some_ne_none _)
      | cons m rest =>
        rw [hl] at hhead
        obtain rfl := Option.some.inj hhead
        exact ⟨rest, rfl⟩
    have hsize := h.size
    have hle := h.le
    rw [hl, List.length_cons] at hsize hle
    refine ⟨hq.of_msgs _ _, ⟨?_, ?_⟩, rfl, msg', ?_, rfl⟩
    · have hlt : fh.queuedMsgs.toNat < 2 ^ 32 := fh.queuedMsgs.toNat_lt
      dsimp only
      rw [UInt32.toNat_sub, hl, List.tail_cons]
      change (2 ^ 32 - 1 + fh.queuedMsgs.toNat) % 2 ^ 32 = rest.length
      omega
    · dsimp only
      rw [hl, List.tail_cons]
      omega
    · dsimp only
      rw [hl, List.tail_cons]

/-! ## Runs -/

/-- What holds between the steps. -/
structure Accounts (s : FhSys) : Prop where
  queues : QueuesOk s.fh
  msgs : MsgsOk s.fh
  ordered : ((s.received ++ s.fh.msgs).map untimed).Sublist (s.queued.map untimed)
  accounted : s.queued.length = s.received.length + s.fh.msgs.length + s.reporting +
    (lostIn s.dequeued + pendingLost s.fh + 2 ^ 32 * s.wraps)

theorem accounts_initial : Accounts FhSys.initial where
  queues := queuesOk_initial
  msgs := ⟨rfl, Nat.zero_le _⟩
  ordered := List.Sublist.slnil
  accounted := rfl

/-- A section that leaves the messages alone. -/
theorem Accounts.ordered_of_kept {s : FhSys} (h : Accounts s) {fh : CecFh} (hk : MsgsKept s.fh fh) :
    ((s.received ++ fh.msgs).map untimed).Sublist (s.queued.map untimed) := by
  rw [hk.msgs]
  exact h.ordered

/-- **A step keeps the accounts.** -/
theorem accounts_fhStep {s t : FhSys} {e : FhAct} (h : Accounts s) (hs : fhStep s e = some t) : Accounts t := by
  have hacc := h.accounted
  cases e with
  | queueMsg msg memory =>
    obtain rfl := Option.some.inj hs
    obtain ⟨hq, hm, hpend, hsub, hlen⟩ := cecQueueMsgFh_spec h.msgs h.queues msg memory
    refine ⟨hq, hm, ?_, ?_⟩
    · dsimp only
      rw [List.map_append, List.map_append]
      have hold := h.ordered
      rw [List.map_append] at hold
      have hgrow : (s.received.map untimed ++ (s.fh.msgs ++ [msg]).map untimed).Sublist
          (s.queued.map untimed ++ [msg].map untimed) := by
        rw [List.map_append, ← List.append_assoc]
        exact hold.append (List.Sublist.refl _)
      exact ((List.Sublist.refl _).append (hsub.map untimed)).trans hgrow
    · dsimp only
      rw [hpend, List.length_append, List.length_singleton]
      cases hlost : (cecQueueMsgFh s.fh msg memory).2 with
      | false =>
        rw [hlost] at hlen
        rw [if_neg Bool.false_ne_true] at hlen ⊢
        omega
      | true =>
        rw [hlost] at hlen
        rw [if_pos rfl] at hlen ⊢
        omega
  | reportLost now =>
    simp only [fhStep] at hs
    split at hs
    · exact absurd hs.symm (Option.some_ne_none t)
    · next hne =>
      obtain rfl := Option.some.inj hs
      obtain ⟨hq, hk⟩ := h.queues.cecQueueEventFh evLostMsgs now now true
      refine ⟨hq, h.msgs.of_kept hk, h.ordered_of_kept hk, ?_⟩
      have hreport := pendingLost_report h.queues now now true
      dsimp only
      rw [hk.msgs]
      by_cases hw : Wraps s.fh
      · rw [if_pos hw] at hreport ⊢
        omega
      · rw [if_neg hw] at hreport ⊢
        omega
  | receive timeout =>
    obtain rfl := Option.some.inj hs
    cases hr : cecReceiveMsg s.fh timeout with
    | none => exact h
    | some r =>
      obtain ⟨hq, hm, hpend, msg', hl, hmsg⟩ := cecReceiveMsg_spec h.msgs h.queues hr
      refine ⟨hq, hm, ?_, ?_⟩
      · have hold := h.ordered
        rw [hl, List.map_append, List.map_cons, hmsg] at hold
        rw [Option.elim_some]
        dsimp only
        rw [List.map_append, List.map_append, List.append_assoc]
        exact hold
      · rw [hl, List.length_cons] at hacc
        rw [Option.elim_some]
        dsimp only
        rw [hpend, List.length_append, List.length_singleton]
        omega
  | dqevent =>
    obtain rfl := Option.some.inj hs
    cases hd : cecDqevent s.fh with
    | none => exact h
    | some r =>
      obtain ⟨hq, hk, hlost⟩ := cecDqevent_spec h.queues hd
      refine ⟨hq, h.msgs.of_kept hk, h.ordered_of_kept hk, ?_⟩
      rw [Option.elim_some]
      dsimp only
      rw [hk.msgs, lostIn_append]
      omega
  | queueEvent newEv ts now memory =>
    simp only [fhStep] at hs
    split at hs
    · exact absurd hs.symm (Option.some_ne_none t)
    · next hne =>
      obtain rfl := Option.some.inj hs
      obtain ⟨hq, hk⟩ := h.queues.cecQueueEventFh newEv ts now memory
      have hpend := (lostKept_cecQueueEventFh h.queues hne ts now memory).pendingLost_eq h.queues hq
      refine ⟨hq, h.msgs.of_kept hk, h.ordered_of_kept hk, ?_⟩
      dsimp only
      rw [hk.msgs, hpend]
      exact hacc

/-- **In every run of a file handle**, losses are accounted for. -/
theorem lossAccounted_run (es : List FhAct) (t : FhSys) (h : run fhStep FhSys.initial es = some t) :
    LossAccounted t := by
  have hacc : Accounts t := run_inv (fun _ _ _ hs hstep => accounts_fhStep hs hstep) accounts_initial h
  exact ⟨hacc.ordered, hacc.accounted, ⟨hacc.msgs.size, hacc.msgs.le⟩, hacc.queues.total, hacc.queues.each⟩

/-- A message without bytes. -/
def emptyMsg : CecMsg :=
  ⟨0, 0, 0, 0, 0, 0, fun _ => 0, 0, 0, 0, 0, 0, 0, 0⟩

/-- A message is lost for want of memory, another one is received, and the event is dequeued. -/
theorem lossAccounted_run_lost : ∃ t, run fhStep FhSys.initial [.queueMsg emptyMsg true, .queueMsg emptyMsg false,
    .reportLost 1, .receive 0, .dqevent] = some t ∧ LossAccounted t := by
  have hgo : (run fhStep FhSys.initial [.queueMsg emptyMsg true, .queueMsg emptyMsg false, .reportLost 1,
      .receive 0, .dqevent]).isSome = true := rfl
  obtain ⟨t, ht⟩ := Option.isSome_iff_exists.mp hgo
  exact ⟨t, ht, lossAccounted_run _ t ht⟩

/-! ## A count that starts over -/

/-- `n` messages for which there is no memory. -/
def lose : ℕ → List FhAct
  | 0 => []
  | n + 1 => .queueMsg emptyMsg false :: .reportLost 1 :: lose n

/-- Nothing is queued, received or dequeued, and no call is in progress. -/
structure Silent (s : FhSys) : Prop where
  received : s.received = []
  msgs : s.fh.msgs = []
  dequeued : s.dequeued = []
  reporting : s.reporting = 0

theorem run_lose (n : ℕ) {s : FhSys} (hacc : Accounts s) (hs : Silent s) :
    ∃ t, run fhStep s (lose n) = some t ∧ Accounts t ∧ Silent t ∧ t.queued.length = s.queued.length + n := by
  induction n generalizing s with
  | zero => exact ⟨s, rfl, hacc, hs, rfl⟩
  | succ n ih =>
    have hlost : fhStep s (.queueMsg emptyMsg false) =
        some { s with reporting := s.reporting + 1, queued := s.queued ++ [emptyMsg] } := rfl
    have hacc₁ := accounts_fhStep hacc hlost
    generalize hu : ({ s with reporting := s.reporting + 1, queued := s.queued ++ [emptyMsg] } : FhSys) = u at *
    have hreport : fhStep u (.reportLost 1) = some { u with
        fh := cecQueueEventFh u.fh evLostMsgs 1 1 true
        reporting := u.reporting - 1
        wraps := if Wraps u.fh then u.wraps + 1 else u.wraps } := by
      refine if_neg ?_
      rw [← hu]
      exact Nat.succ_ne_zero _
    have hacc₂ := accounts_fhStep hacc₁ hreport
    have hk := (hacc₁.queues.cecQueueEventFh evLostMsgs 1 1 true).2
    obtain ⟨t, ht, hacct, hst, hlen⟩ := ih hacc₂ ⟨by rw [← hu]; exact hs.received,
      by rw [hk.msgs, ← hu]; exact hs.msgs, by rw [← hu]; exact hs.dequeued, by rw [← hu]; exact hs.reporting⟩
    refine ⟨t, ?_, hacct, hst, ?_⟩
    · rw [lose, run_cons, hlost, Option.bind_some, run_cons, hreport, Option.bind_some, ht]
    · rw [hlen, ← hu]
      dsimp only
      rw [List.length_append, List.length_singleton]
      omega

/-- **The count of an event has 32 bits**: behind 2 ^ 32 messages that find no memory, the pending event does not
say how many were lost. -/
theorem not_accounted : ∃ t, run fhStep FhSys.initial (lose (2 ^ 32)) = some t ∧ t.reporting = 0 ∧
    t.queued.length ≠ t.received.length + t.fh.msgs.length + (lostIn t.dequeued + pendingLost t.fh) := by
  obtain ⟨t, ht, hacc, hs, hlen⟩ := run_lose (2 ^ 32) accounts_initial ⟨rfl, rfl, rfl, rfl⟩
  refine ⟨t, ht, hs.reporting, ?_⟩
  have hpend : pendingLost t.fh < 2 ^ 32 := by
    rw [hacc.queues.pendingLost_eq]
    split
    · exact Nat.two_pow_pos 32
    · exact (t.fh.ev (.core 1)).lostMsgs.toNat_lt
  rw [hlen, hs.received, hs.msgs, hs.dequeued]
  change 0 + 2 ^ 32 ≠ 0 + 0 + (0 + pendingLost t.fh)
  omega

end Cec
end TbsMedia
