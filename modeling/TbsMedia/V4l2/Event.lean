import Mathlib
import TbsMedia.Lib.Runs

/-!
# Events of a file handle

`v4l2-event.c`: a file handle has a list of subscriptions, each with a ring of events of its own, and
one list through all the events that are pending.  A ring that is full loses its oldest event, which
leaves its changes to the second oldest one or to the one that is queued.

Every section under `fh_lock` is one step here.  `subscribe_lock` is held while the `add` or the `del`
callback of a subscription runs, and other steps come in between.  Subscriptions have addresses that are
not used again, and what is freed stays in memory, so that a list that still leads there could be seen.

* `dequeue`, `queueFh`, `eventUnsubscribe`: the sections on a file handle.
* `State`, `step`: the calls with their lock.
* `Linked`, `pending`: the list goes through the rings, and stands for the events in their order.
* `makeRoom_spec`, `queueFh_spec`, `dequeue_spec`, `eventUnsubscribe_spec`: what the sections do to it.
* `event_accounted`: the accounts are right in every state.
-/

namespace TbsMedia
namespace Event

open Function Lib

def V4L2_EVENT_ALL : UInt32 := 0

/-- What an event carries: `changes`, which is first both in `struct v4l2_event_ctrl` and in
`struct v4l2_event_src_change`, the rest of the former, and the rest of the union. -/
structure EventU where
  changes : UInt32
  ctrl : List UInt8
  data : List UInt8

/-- `struct v4l2_event`.  The time is in seconds and nanoseconds. -/
structure V4l2Event where
  type : UInt32
  u : EventU
  pending : ℕ
  sequence : UInt32
  timestamp : ℕ × ℕ
  id : UInt32

/-- `struct v4l2_kevent`. -/
structure V4l2Kevent where
  event : V4l2Event
  ts : ℕ

/-- An event as `kvzalloc` leaves it. -/
def zeroKevent : V4l2Kevent := ⟨⟨0, ⟨0, [], []⟩, 0, 0, (0, 0), 0⟩, 0⟩

/-- `struct v4l2_subscribed_event_ops`: whether there are the callbacks `add` and `del`, and what
`replace` and `merge` make of what the old and the new event carry, the only thing that they change. -/
structure SubscribedEventOps where
  add : Bool
  del : Bool
  replace : Option (EventU → EventU → EventU)
  merge : Option (EventU → EventU → EventU)

/-- `struct v4l2_subscribed_event`. -/
structure SubscribedEvent where
  type : UInt32
  id : UInt32
  flags : UInt32
  ops : Option SubscribedEventOps
  elems : ℕ
  first : ℕ
  inUse : ℕ
  events : ℕ → V4l2Kevent

/-- `struct v4l2_fh`: the subscriptions by their addresses, and the pending events by the address of
their subscription and their index in its ring. -/
structure V4l2Fh where
  sevs : ℕ → SubscribedEvent
  subscribed : List ℕ
  available : List (ℕ × ℕ)
  navailable : ℕ
  sequence : UInt32

/-- `v4l2_fh_init`. -/
def v4l2FhInit (sevs : ℕ → SubscribedEvent) : V4l2Fh := ⟨sevs, [], [], 0, -1⟩

/-! ## The callbacks -/

/-- `v4l2_event_src_replace`. -/
def v4l2EventSrcReplace (old new : EventU) : EventU :=
  let oldChanges := old.changes
  let old := { old with changes := new.changes }
  { old with changes := old.changes ||| oldChanges }

/-- `v4l2_event_src_merge`. -/
def v4l2EventSrcMerge (old new : EventU) : EventU := { new with changes := new.changes ||| old.changes }

/-- `v4l2_ctrl_replace`. -/
def v4l2CtrlReplace (old new : EventU) : EventU :=
  let oldChanges := old.changes
  let old := { old with changes := new.changes, ctrl := new.ctrl }
  { old with changes := old.changes ||| oldChanges }

/-- `v4l2_ctrl_merge`. -/
def v4l2CtrlMerge (old new : EventU) : EventU := { new with changes := new.changes ||| old.changes }

/-- `v4l2_ctrl_sub_ev_ops`, and `uvc_ctrl_sub_ev_ops`. -/
def v4l2CtrlSubEvOps : SubscribedEventOps := ⟨true, true, some v4l2CtrlReplace, some v4l2CtrlMerge⟩

/-! ## The sections -/

/-- `sev_pos`. -/
def sevPos (sev : SubscribedEvent) (idx : ℕ) : ℕ :=
  let idx := idx + sev.first
  if idx ≥ sev.elems then idx - sev.elems else idx

/-- A subscription is written to. -/
def V4l2Fh.set (fh : V4l2Fh) (a : ℕ) (sev : SubscribedEvent) : V4l2Fh :=
  { fh with sevs := update fh.sevs a sev }

/-- An event of a ring is written to. -/
def SubscribedEvent.set (sev : SubscribedEvent) (i : ℕ) (kev : V4l2Kevent) : SubscribedEvent :=
  { sev with events := update sev.events i kev }

/-- `v4l2_event_subscribed`. -/
def eventSubscribed (fh : V4l2Fh) (type id : UInt32) : Option ℕ :=
  fh.subscribed.find? fun a => (fh.sevs a).type == type && (fh.sevs a).id == id

/-- `__v4l2_event_dequeue`: the event with the address of its subscription, or `none` for `-ENOENT`. -/
def dequeue (fh : V4l2Fh) : Option ((ℕ × V4l2Event) × V4l2Fh) :=
  match fh.available with
  | [] => none
  | (a, i) :: available =>
    let fh := { fh with available := available, navailable := fh.navailable - 1 }
    let sev := fh.sevs a
    let kev := sev.events i
    let kev := { kev with event := { kev.event with pending := fh.navailable } }
    let event := { kev.event with timestamp := (kev.ts / 1000000000, kev.ts % 1000000000) }
    let sev := sev.set i kev
    let sev := { sev with first := sevPos sev 1 }
    some ((a, event), fh.set a { sev with inUse := sev.inUse - 1 })

/-- The oldest event of a ring is taken out of it, and out of the list. -/
def removeOldest (fh : V4l2Fh) (a : ℕ) : V4l2Fh :=
  let sev := fh.sevs a
  let fh := { fh with available := fh.available.erase (a, sevPos sev 0) }
  let sev := { sev with inUse := sev.inUse - 1 }
  let sev := { sev with first := sevPos sev 1 }
  { fh.set a sev with navailable := fh.navailable - 1 }

/-- An event of a ring gets something else to carry. -/
def SubscribedEvent.setU (sev : SubscribedEvent) (i : ℕ) (u : EventU) : SubscribedEvent :=
  sev.set i { sev.events i with event := { (sev.events i).event with u := u } }

/-- Room is made in a ring that is full.  Says as well whether what the new event carries is still to be
copied. -/
def makeRoom (fh : V4l2Fh) (a : ℕ) (ev : V4l2Event) : V4l2Fh × Bool :=
  if (fh.sevs a).inUse = (fh.sevs a).elems then
    let kev := sevPos (fh.sevs a) 0
    let fh := removeOldest fh a
    let sev := fh.sevs a
    if sev.elems = 1 then
      match sev.ops.bind SubscribedEventOps.replace with
      | some replace => (fh.set a (sev.setU kev (replace (sev.events kev).event.u ev.u)), false)
      | none => (fh, true)
    else
      match sev.ops.bind SubscribedEventOps.merge with
      | some merge =>
        let secondOldest := sevPos sev 0
        (fh.set a (sev.setU secondOldest
          (merge (sev.events kev).event.u (sev.events secondOldest).event.u)), true)
      | none => (fh, true)
  else (fh, true)

/-- A free event of a ring is taken and filled. -/
def fill (fh : V4l2Fh) (a : ℕ) (ev : V4l2Event) (ts : ℕ) (copyPayload : Bool) : V4l2Fh :=
  let sev := fh.sevs a
  let i := sevPos sev sev.inUse
  let kev := sev.events i
  let event := { kev.event with type := ev.type }
  let event := if copyPayload then { event with u := ev.u } else event
  let event := { event with id := ev.id }
  let sev := sev.set i ⟨{ event with sequence := fh.sequence }, ts⟩
  let fh := fh.set a { sev with inUse := sev.inUse + 1 }
  { fh with available := fh.available ++ [(a, i)], navailable := fh.navailable + 1 }

/-- `__v4l2_event_queue_fh`. -/
def queueFh (fh : V4l2Fh) (ev : V4l2Event) (ts : ℕ) : V4l2Fh :=
  match eventSubscribed fh ev.type ev.id with
  | none => fh
  | some a =>
    let (fh, copyPayload) := makeRoom { fh with sequence := fh.sequence + 1 } a ev
    fill fh a ev ts copyPayload

/-- `__v4l2_event_unsubscribe`. -/
def eventUnsubscribe (fh : V4l2Fh) (a : ℕ) : V4l2Fh :=
  let sev := fh.sevs a
  let fh := (List.range sev.inUse).foldl (fun fh i =>
    { fh with available := fh.available.erase (a, sevPos sev i), navailable := fh.navailable - 1 }) fh
  { fh with subscribed := fh.subscribed.erase a }

/-! ## The calls -/

/-- What `subscribe_lock` is held for: the `add` or the `del` callback of a subscription. -/
inductive Callback where
  | add (sev : ℕ)
  | del (sev : ℕ)

/-- A file handle with the calls on it.  `peeked` is what calls of `v4l2_event_unsubscribe_all` are about
to unsubscribe.  `queued` are the events that have been queued, each with its subscription and the
sequence number it got, and `dequeued` those that have been dequeued. -/
structure State where
  fh : V4l2Fh
  fresh : ℕ
  lock : Option Callback
  peeked : List (UInt32 × UInt32)
  queued : List (ℕ × V4l2Event)
  dequeued : List (ℕ × V4l2Event)

/-- The start. -/
def State.init (sevs : ℕ → SubscribedEvent) : State := ⟨v4l2FhInit sevs, 0, none, [], [], []⟩

/-- What can happen. -/
inductive Action where
  /-- `v4l2_event_subscribe`, up to the end of the call or to the `add` callback.  `alloc` says whether
  there is memory. -/
  | subscribe (type id flags : UInt32) (elems : ℕ) (ops : Option SubscribedEventOps) (alloc : Bool)
  /-- The `add` callback has returned. -/
  | added (fails : Bool)
  /-- `v4l2_event_unsubscribe`, for one type. -/
  | unsubscribe (type id : UInt32)
  /-- The `del` callback has returned. -/
  | deleted
  /-- `v4l2_event_unsubscribe_all` looks for the first subscription. -/
  | peek
  /-- `v4l2_event_unsubscribe_all` goes on to unsubscribe it. -/
  | unsubscribePeeked (k : ℕ)
  /-- `__v4l2_event_queue_fh`, for `v4l2_event_queue`, `v4l2_event_queue_fh` or a callback. -/
  | queue (ev : V4l2Event) (ts : ℕ)
  /-- `__v4l2_event_dequeue`. -/
  | dequeue

/-- `v4l2_event_subscribe`. -/
def subscribe (s : State) (type id flags : UInt32) (elems : ℕ) (ops : Option SubscribedEventOps)
    (alloc : Bool) : Option State :=
  if type = V4L2_EVENT_ALL then some s
  else
    let elems := if elems < 1 then 1 else elems
    if !alloc then some s
    else
      let sev : SubscribedEvent := ⟨type, id, flags, ops, elems, 0, 0, fun _ => zeroKevent⟩
      match s.lock with
      | some _ => none
      | none =>
        match eventSubscribed s.fh type id with
        | some _ => some s
        | none =>
          let fh := s.fh.set s.fresh sev
          some { s with
            fh := { fh with subscribed := s.fresh :: fh.subscribed }
            fresh := s.fresh + 1
            lock := if ops.any SubscribedEventOps.add then some (.add s.fresh) else none }

/-- `v4l2_event_unsubscribe`. -/
def unsubscribe (s : State) (type id : UInt32) : Option State :=
  if type = V4L2_EVENT_ALL then none
  else
    match s.lock with
    | some _ => none
    | none =>
      match eventSubscribed s.fh type id with
      | none => some s
      | some a =>
        some { s with
          fh := eventUnsubscribe s.fh a
          lock := if (s.fh.sevs a).ops.any SubscribedEventOps.del then some (.del a) else none }

/-- One step.  It is `none` if the lock is not free, or not held for what ends. -/
def step (s : State) : Action → Option State
  | .subscribe type id flags elems ops alloc => subscribe s type id flags elems ops alloc
  | .added fails =>
    match s.lock with
    | some (.add a) =>
      some { s with fh := if fails then eventUnsubscribe s.fh a else s.fh, lock := none }
    | _ => none
  | .unsubscribe type id => unsubscribe s type id
  | .deleted =>
    match s.lock with
    | some (.del _) => some { s with lock := none }
    | _ => none
  | .peek =>
    match s.fh.subscribed with
    | [] => some s
    | a :: _ => some { s with peeked := s.peeked ++ [((s.fh.sevs a).type, (s.fh.sevs a).id)] }
  | .unsubscribePeeked k =>
    s.peeked[k]?.bind fun sub => unsubscribe { s with peeked := s.peeked.eraseIdx k } sub.1 sub.2
  | .queue ev ts =>
    let fh := queueFh s.fh ev ts
    match eventSubscribed s.fh ev.type ev.id with
    | none => some { s with fh := fh }
    | some a => some { s with fh := fh, queued := s.queued ++ [(a, { ev with sequence := fh.sequence })] }
  | .dequeue =>
    match dequeue s.fh with
    | none => some s
    | some (event, fh) => some { s with fh := fh, dequeued := s.dequeued ++ [event] }

/-! ## Rings -/

variable {sev : SubscribedEvent} {fh : V4l2Fh} {a b i j : ℕ} {ev : V4l2Event} {ts : ℕ} {s t : State}

/-- The indices of a ring are within its size. -/
structure Wf (sev : SubscribedEvent) : Prop where
  one_le : 1 ≤ sev.elems
  first_lt : sev.first < sev.elems
  inUse_le : sev.inUse ≤ sev.elems

/-- The slots of a ring that are in use, the oldest one first. -/
def slots (sev : SubscribedEvent) : List ℕ := (List.range sev.inUse).map (sevPos sev)

/-- The ring without its oldest event. -/
def popped (sev : SubscribedEvent) : SubscribedEvent :=
  { sev with inUse := sev.inUse - 1, first := sevPos sev 1 }

theorem sevPos_lt (h : Wf sev) (hi : i ≤ sev.elems) : sevPos sev i < sev.elems := by
  have hfirst := h.first_lt
  unfold sevPos
  dsimp only
  split_ifs <;> omega

theorem sevPos_inj (h : Wf sev) (hi : i < sev.elems) (hj : j < sev.elems)
    (heq : sevPos sev i = sevPos sev j) : i = j := by
  have hfirst := h.first_lt
  unfold sevPos at heq
  dsimp only at heq
  split_ifs at heq <;> omega

/-- The oldest event goes, and all others move up. -/
theorem sevPos_popped (h : Wf sev) (hi : i < sev.elems) :
    sevPos (popped sev) i = sevPos sev (if i + 1 = sev.elems then 0 else i + 1) := by
  have hfirst := h.first_lt
  unfold sevPos popped
  dsimp only
  unfold sevPos
  dsimp only
  split_ifs <;> omega

theorem Wf.popped (h : Wf sev) : Wf (popped sev) := by
  refine ⟨h.one_le, sevPos_lt h h.one_le, ?_⟩
  show sev.inUse - 1 ≤ sev.elems
  exact (Nat.sub_le _ _).trans h.inUse_le

theorem slots_popped (h : Wf sev) (hpos : 0 < sev.inUse) :
    slots sev = sevPos sev 0 :: slots (popped sev) := by
  have hle := h.inUse_le
  obtain ⟨n, hn⟩ : ∃ n, sev.inUse = n + 1 := ⟨sev.inUse - 1, by omega⟩
  unfold slots
  rw [hn, List.range_succ_eq_map, List.map_cons, List.map_map]
  have hlen : (popped sev).inUse = n := by
    show sev.inUse - 1 = n
    omega
  rw [hlen]
  refine congrArg _ (List.map_congr_left fun i hi => ?_)
  have hlt := List.mem_range.mp hi
  rw [sevPos_popped h (by omega), if_neg (by omega)]
  rfl

theorem mem_slots (hi : i ∈ slots sev) : ∃ j < sev.inUse, sevPos sev j = i := by
  obtain ⟨j, hj, rfl⟩ := List.mem_map.mp hi
  exact ⟨j, List.mem_range.mp hj, rfl⟩

/-- The slots of a ring are different. -/
theorem nodup_slots (h : Wf sev) : (slots sev).Nodup := by
  refine List.Nodup.map_on (fun i hi j hj heq => ?_) List.nodup_range
  have hle := h.inUse_le
  have hi' := List.mem_range.mp hi
  have hj' := List.mem_range.mp hj
  exact sevPos_inj h (by omega) (by omega) heq

/-- The slot that is filled next is free. -/
theorem free_notMem_slots (h : Wf sev) (hroom : sev.inUse < sev.elems) :
    sevPos sev sev.inUse ∉ slots sev := by
  intro hmem
  obtain ⟨j, hj, heq⟩ := mem_slots hmem
  exact absurd (sevPos_inj h (by omega) hroom heq) (by omega)

/-! ## The list through the rings -/

/-- The lists of a file handle and the rings of its subscriptions agree. -/
structure Linked (fh : V4l2Fh) : Prop where
  nodup : fh.subscribed.Nodup
  wf : ∀ a ∈ fh.subscribed, Wf (fh.sevs a)
  rings : ∀ a ∈ fh.subscribed,
    fh.available.filter (fun x => x.1 == a) = (slots (fh.sevs a)).map (Prod.mk a)
  live : ∀ x ∈ fh.available, x.1 ∈ fh.subscribed
  navailable : fh.navailable = fh.available.length

/-- The events that are pending, each with its subscription. -/
def pending (fh : V4l2Fh) : List (ℕ × V4l2Event) :=
  fh.available.map fun x => (x.1, ((fh.sevs x.1).events x.2).event)

/-- The events of one subscription. -/
def ofSev {β : Type*} (a : ℕ) (l : List (ℕ × β)) : List (ℕ × β) := l.filter fun x => x.1 == a

@[simp] theorem ofSev_nil {β : Type*} (a : ℕ) : ofSev a ([] : List (ℕ × β)) = [] := rfl

@[simp] theorem ofSev_append {β : Type*} (a : ℕ) (l l' : List (ℕ × β)) :
    ofSev a (l ++ l') = ofSev a l ++ ofSev a l' := List.filter_append ..

theorem ofSev_cons_self {β : Type*} (a : ℕ) (x : β) (l : List (ℕ × β)) :
    ofSev a ((a, x) :: l) = (a, x) :: ofSev a l := List.filter_cons_of_pos (beq_self_eq_true a)

theorem ofSev_cons_of_ne {β : Type*} {x : ℕ × β} (h : x.1 ≠ a) (l : List (ℕ × β)) :
    ofSev a (x :: l) = ofSev a l := List.filter_cons_of_neg (by rw [beq_iff_eq]; exact h)

theorem ofSev_eq_nil {β : Type*} {l : List (ℕ × β)} (h : ∀ x ∈ l, x.1 ≠ a) : ofSev a l = [] :=
  List.filter_eq_nil_iff.mpr fun x hx => by rw [beq_iff_eq]; exact h x hx

/-- The subscription with the address `a` is in front of the list. -/
theorem ofSev_eq_cons {l l' : List (ℕ × ℕ)} {x : ℕ × ℕ} (h : ofSev a l = x :: l') :
    ∃ l₁ l₂, l = l₁ ++ x :: l₂ ∧ (∀ y ∈ l₁, y.1 ≠ a) ∧ ofSev a l₂ = l' := by
  obtain ⟨l₁, l₂, rfl, hl₁, -, hl₂⟩ := List.filter_eq_cons_iff.mp h
  exact ⟨l₁, l₂, rfl, fun y hy heq => hl₁ y hy (by rw [beq_iff_eq]; exact heq), hl₂⟩

/-- **Where the oldest event of a ring is** in the list. -/
theorem Linked.oldest (h : Linked fh) (ha : a ∈ fh.subscribed) (hpos : 0 < (fh.sevs a).inUse) :
    ∃ l₁ l₂, fh.available = l₁ ++ (a, sevPos (fh.sevs a) 0) :: l₂ ∧ (∀ x ∈ l₁, x.1 ≠ a) ∧
      ofSev a l₂ = (slots (popped (fh.sevs a))).map (Prod.mk a) ∧ (a, sevPos (fh.sevs a) 0) ∉ l₂ := by
  have hwf := h.wf a ha
  have hslots := slots_popped hwf hpos
  have hring := h.rings a ha
  rw [hslots, List.map_cons] at hring
  obtain ⟨l₁, l₂, hsplit, hl₁, hl₂⟩ := ofSev_eq_cons hring
  refine ⟨l₁, l₂, hsplit, hl₁, hl₂, fun hmem => ?_⟩
  have hin : (a, sevPos (fh.sevs a) 0) ∈ ofSev a l₂ :=
    List.mem_filter.mpr ⟨hmem, beq_self_eq_true a⟩
  rw [hl₂] at hin
  obtain ⟨i, hi, heq⟩ := List.mem_map.mp hin
  obtain rfl := (Prod.mk.inj heq).2
  have hnodup := nodup_slots hwf
  rw [hslots] at hnodup
  exact (List.nodup_cons.mp hnodup).1 hi

/-! ## What the sections do to the list -/

/-- What an entry of the list stands for. -/
def value (sevs : ℕ → SubscribedEvent) (x : ℕ × ℕ) : ℕ × V4l2Event := (x.1, ((sevs x.1).events x.2).event)

theorem pending_eq (fh : V4l2Fh) : pending fh = fh.available.map (value fh.sevs) := rfl

/-- The subscription of an entry stays what it is. -/
theorem ofSev_map_value (sevs : ℕ → SubscribedEvent) (l : List (ℕ × ℕ)) :
    ofSev a (l.map (value sevs)) = (ofSev a l).map (value sevs) := by
  unfold ofSev
  rw [List.filter_map]
  rfl

/-- Writing to an event leaves the others alone. -/
theorem value_set {sevs : ℕ → SubscribedEvent} {kev : V4l2Kevent} {x : ℕ × ℕ} (hx : x ≠ (a, i)) :
    value (update sevs a ((sevs a).set i kev)) x = value sevs x := by
  obtain ⟨b, j⟩ := x
  unfold value
  dsimp only
  by_cases hb : b = a
  · subst hb
    have hj : j ≠ i := fun heq => hx (by rw [heq])
    rw [update_self]
    unfold SubscribedEvent.set
    dsimp only
    rw [update_of_ne hj]
  · rw [update_of_ne hb]

theorem value_set_self {sevs : ℕ → SubscribedEvent} {kev : V4l2Kevent} :
    value (update sevs a ((sevs a).set i kev)) (a, i) = (a, kev.event) := by
  unfold value SubscribedEvent.set
  dsimp only
  rw [update_self]
  dsimp only
  rw [update_self]

/-- Only what a ring says of its slots matters for the list. -/
theorem Linked.congr (h : Linked fh) {sevs : ℕ → SubscribedEvent}
    (hshape : ∀ b, (sevs b).elems = (fh.sevs b).elems ∧ (sevs b).first = (fh.sevs b).first ∧
      (sevs b).inUse = (fh.sevs b).inUse) : Linked { fh with sevs := sevs } := by
  refine ⟨h.nodup, fun b hb => ?_, fun b hb => ?_, h.live, h.navailable⟩
  · obtain ⟨helems, hfirst, hinUse⟩ := hshape b
    obtain ⟨hone, hlt, hle⟩ := h.wf b hb
    exact ⟨by rw [helems]; exact hone, by rw [helems, hfirst]; exact hlt, by rw [helems, hinUse]; exact hle⟩
  · obtain ⟨helems, hfirst, hinUse⟩ := hshape b
    have hslots : slots (sevs b) = slots (fh.sevs b) := by
      unfold slots sevPos
      rw [helems, hfirst, hinUse]
    show fh.available.filter _ = (slots (sevs b)).map _
    rw [hslots]
    exact h.rings b hb

/-- An event is written to. -/
theorem Linked.set (h : Linked fh) (a i : ℕ) (kev : V4l2Kevent) :
    Linked (fh.set a ((fh.sevs a).set i kev)) := by
  refine h.congr fun b => ?_
  by_cases hb : b = a
  · subst hb
    rw [update_self]
    exact ⟨rfl, rfl, rfl⟩
  · rw [update_of_ne hb]
    exact ⟨rfl, rfl, rfl⟩

theorem pending_set_of_notMem {kev : V4l2Kevent} (hi : (a, i) ∉ fh.available) :
    pending (fh.set a ((fh.sevs a).set i kev)) = pending fh :=
  List.map_congr_left fun _ hx => value_set fun heq => hi (heq ▸ hx)

/-- **The oldest event goes** from its ring and from the list. -/
theorem Linked.remove (h : Linked fh) (ha : a ∈ fh.subscribed) {l₁ l₂ : List (ℕ × ℕ)} {x : ℕ × ℕ}
    (hsplit : fh.available = l₁ ++ x :: l₂) (hx : x.1 = a) (hl₁ : ∀ y ∈ l₁, y.1 ≠ a)
    (hl₂ : ofSev a l₂ = (slots (popped (fh.sevs a))).map (Prod.mk a)) :
    Linked { fh with
      sevs := update fh.sevs a (popped (fh.sevs a)), available := l₁ ++ l₂
      navailable := fh.navailable - 1 } := by
  refine ⟨h.nodup, fun b hb => ?_, fun b hb => ?_, fun y hy => ?_, ?_⟩
  · show Wf (update fh.sevs a (popped (fh.sevs a)) b)
    by_cases hba : b = a
    · subst hba
      rw [update_self]
      exact (h.wf b hb).popped
    · rw [update_of_ne hba]
      exact h.wf b hb
  · show ofSev b (l₁ ++ l₂) = (slots (update fh.sevs a (popped (fh.sevs a)) b)).map (Prod.mk b)
    rw [ofSev_append]
    by_cases hba : b = a
    · subst hba
      rw [update_self, ofSev_eq_nil hl₁, List.nil_append, hl₂]
    · rw [update_of_ne hba]
      have hring : ofSev b fh.available = _ := h.rings b hb
      rw [hsplit, ofSev_append, ofSev_cons_of_ne (by rw [hx]; exact Ne.symm hba)] at hring
      exact hring
  · refine h.live y ?_
    rw [hsplit]
    rcases List.mem_append.mp hy with hy | hy
    · exact List.mem_append_left _ hy
    · exact List.mem_append_right _ (List.mem_cons_of_mem _ hy)
  · show fh.navailable - 1 = (l₁ ++ l₂).length
    rw [h.navailable, hsplit]
    simp

/-- A subscription loses its oldest event, and the values of the others stay. -/
theorem map_value_popped (l : List (ℕ × ℕ)) :
    l.map (value (update fh.sevs a (popped (fh.sevs a)))) = l.map (value fh.sevs) := by
  refine List.map_congr_left fun x _ => ?_
  unfold value
  by_cases hx : x.1 = a
  · rw [hx, update_self]
    rfl
  · rw [update_of_ne hx]

theorem removeOldest_eq {l₁ l₂ : List (ℕ × ℕ)}
    (hsplit : fh.available = l₁ ++ (a, sevPos (fh.sevs a) 0) :: l₂) (hl₁ : ∀ y ∈ l₁, y.1 ≠ a) :
    removeOldest fh a = { fh with
      sevs := update fh.sevs a (popped (fh.sevs a)), available := l₁ ++ l₂
      navailable := fh.navailable - 1 } := by
  have herase : fh.available.erase (a, sevPos (fh.sevs a) 0) = l₁ ++ l₂ := by
    rw [hsplit, List.erase_append_right _ fun hmem => hl₁ _ hmem rfl, List.erase_cons_head]
  show ({ fh with
    sevs := update fh.sevs a (popped (fh.sevs a))
    available := fh.available.erase (a, sevPos (fh.sevs a) 0)
    navailable := fh.navailable - 1 } : V4l2Fh) = _
  rw [herase]

/-- What a ring is filled with. -/
def filled (fh : V4l2Fh) (a : ℕ) (ev : V4l2Event) (copyPayload : Bool) : V4l2Event :=
  let old := ((fh.sevs a).events (sevPos (fh.sevs a) (fh.sevs a).inUse)).event
  { old with
    type := ev.type, u := if copyPayload then ev.u else old.u, id := ev.id, sequence := fh.sequence }

/-- **An event is queued** behind all others. -/
theorem Linked.fill (h : Linked fh) (ha : a ∈ fh.subscribed) (hroom : (fh.sevs a).inUse < (fh.sevs a).elems)
    (ev : V4l2Event) (ts : ℕ) (copyPayload : Bool) :
    Linked (fill fh a ev ts copyPayload) ∧
      pending (fill fh a ev ts copyPayload) = pending fh ++ [(a, filled fh a ev copyPayload)] := by
  have hwf := h.wf a ha
  have hring : ofSev a fh.available = _ := h.rings a ha
  have hfree : (a, sevPos (fh.sevs a) (fh.sevs a).inUse) ∉ fh.available := by
    intro hmem
    have hin : (a, sevPos (fh.sevs a) (fh.sevs a).inUse) ∈ ofSev a fh.available :=
      List.mem_filter.mpr ⟨hmem, beq_self_eq_true a⟩
    rw [hring] at hin
    obtain ⟨i, hi, heq⟩ := List.mem_map.mp hin
    exact free_notMem_slots hwf hroom ((Prod.mk.inj heq).2 ▸ hi)
  obtain ⟨kev, hkev, heq⟩ : ∃ kev : V4l2Kevent, kev.event = filled fh a ev copyPayload ∧
      Event.fill fh a ev ts copyPayload =
        { fh with
          sevs := update fh.sevs a
            { (fh.sevs a).set (sevPos (fh.sevs a) (fh.sevs a).inUse) kev with inUse := (fh.sevs a).inUse + 1 }
          available := fh.available ++ [(a, sevPos (fh.sevs a) (fh.sevs a).inUse)]
          navailable := fh.navailable + 1 } := by
    cases copyPayload with
    | true => exact ⟨⟨filled fh a ev true, ts⟩, rfl, rfl⟩
    | false => exact ⟨⟨filled fh a ev false, ts⟩, rfl, rfl⟩
  rw [heq]
  constructor
  · refine ⟨h.nodup, fun b hb => ?_, fun b hb => ?_, fun y hy => ?_, ?_⟩
    · show Wf (update fh.sevs a _ b)
      by_cases hba : b = a
      · subst hba
        rw [update_self]
        exact ⟨hwf.one_le, hwf.first_lt, hroom⟩
      · rw [update_of_ne hba]
        exact h.wf b hb
    · show ofSev b (fh.available ++ [_]) = (slots (update fh.sevs a _ b)).map _
      rw [ofSev_append]
      by_cases hba : b = a
      · subst hba
        rw [update_self, hring, ofSev_cons_self]
        unfold slots
        dsimp only
        rw [List.range_succ, List.map_append, List.map_append]
        rfl
      · rw [update_of_ne hba, ofSev_cons_of_ne (Ne.symm hba), ofSev_nil, List.append_nil]
        exact h.rings b hb
    · rcases List.mem_append.mp hy with hy | hy
      · exact h.live y hy
      · rw [List.mem_singleton.mp hy]
        exact ha
    · show fh.navailable + 1 = (fh.available ++ [_]).length
      rw [h.navailable, List.length_append, List.length_singleton]
  · rw [pending_eq]
    dsimp only
    have hvalue : ∀ x, value (update fh.sevs a
        { (fh.sevs a).set (sevPos (fh.sevs a) (fh.sevs a).inUse) kev with inUse := (fh.sevs a).inUse + 1 }) x =
          value (update fh.sevs a ((fh.sevs a).set (sevPos (fh.sevs a) (fh.sevs a).inUse) kev)) x := by
      intro x
      unfold value
      by_cases hx : x.1 = a
      · rw [hx, update_self, update_self]
      · rw [update_of_ne hx, update_of_ne hx]
    rw [List.map_congr_left fun x _ => hvalue x, List.map_append, List.map_singleton, value_set_self, hkev]
    exact congrArg (· ++ _) (List.map_congr_left fun x hx => value_set fun heq => hfree (heq ▸ hx))

/-! ## What is kept when an event is queued -/

/-- The changes of some events, taken together. -/
def changes (l : List (ℕ × V4l2Event)) : UInt32 := (l.map fun x => x.2.u.changes).foldr (· ||| ·) 0

theorem changes_cons (x : ℕ × V4l2Event) (l : List (ℕ × V4l2Event)) :
    changes (x :: l) = x.2.u.changes ||| changes l := rfl

theorem changes_append (l l' : List (ℕ × V4l2Event)) : changes (l ++ l') = changes l ||| changes l' := by
  induction l with
  | nil => exact (UInt32.zero_or).symm
  | cons x l ih => rw [List.cons_append, changes_cons, changes_cons, ih, UInt32.or_assoc]

/-- The callbacks of a subscription collect the changes. -/
def Collects (ops : Option SubscribedEventOps) : Prop :=
  (∃ replace, ops.bind SubscribedEventOps.replace = some replace ∧
    ∀ old new, (replace old new).changes = old.changes ||| new.changes) ∧
  ∃ merge, ops.bind SubscribedEventOps.merge = some merge ∧
    ∀ old new, (merge old new).changes = old.changes ||| new.changes

/-- The subscriptions are for the same as before. -/
def SameSubs (fh fh' : V4l2Fh) : Prop :=
  fh'.subscribed = fh.subscribed ∧
    ∀ b, (fh'.sevs b).type = (fh.sevs b).type ∧ (fh'.sevs b).id = (fh.sevs b).id ∧
      (fh'.sevs b).ops = (fh.sevs b).ops

theorem SameSubs.refl (fh : V4l2Fh) : SameSubs fh fh := ⟨rfl, fun _ => ⟨rfl, rfl, rfl⟩⟩

theorem SameSubs.trans {fh' fh'' : V4l2Fh} (h : SameSubs fh fh') (h' : SameSubs fh' fh'') :
    SameSubs fh fh'' := by
  refine ⟨h'.1.trans h.1, fun b => ?_⟩
  obtain ⟨htype, hid, hops⟩ := h.2 b
  obtain ⟨htype', hid', hops'⟩ := h'.2 b
  exact ⟨htype'.trans htype, hid'.trans hid, hops'.trans hops⟩

/-- A subscription is written to, and is for the same as before. -/
theorem SameSubs.set {fh' : V4l2Fh} (h : SameSubs fh fh') {sev : SubscribedEvent}
    (hsev : sev.type = (fh.sevs a).type ∧ sev.id = (fh.sevs a).id ∧ sev.ops = (fh.sevs a).ops) :
    SameSubs fh (fh'.set a sev) := by
  refine ⟨h.1, fun b => ?_⟩
  unfold V4l2Fh.set
  dsimp only
  by_cases hb : b = a
  · subst hb
    rw [update_self]
    exact hsev
  · rw [update_of_ne hb]
    exact h.2 b

/-- The sequence numbers of some events. -/
def seqs (l : List (ℕ × V4l2Event)) : List UInt32 := l.map fun x => x.2.sequence

@[simp] theorem seqs_append (l l' : List (ℕ × V4l2Event)) : seqs (l ++ l') = seqs l ++ seqs l' :=
  List.map_append

@[simp] theorem seqs_cons (x : ℕ × V4l2Event) (l : List (ℕ × V4l2Event)) :
    seqs (x :: l) = x.2.sequence :: seqs l := rfl

/-- Of the events `l` those of `l'` are left, up to what those of `a` carry. -/
structure Kept (a : ℕ) (l l' : List (ℕ × V4l2Event)) : Prop where
  sublist : (seqs l').Sublist (seqs l)
  own : seqs (ofSev a l') <:+ seqs (ofSev a l)
  others : ∀ b, b ≠ a → ofSev b l' = ofSev b l

theorem Kept.refl (a : ℕ) (l : List (ℕ × V4l2Event)) : Kept a l l :=
  ⟨List.Sublist.refl _, List.suffix_refl _, fun _ _ => rfl⟩

theorem Kept.trans {l l' l'' : List (ℕ × V4l2Event)} (h : Kept a l l') (h' : Kept a l' l'') : Kept a l l'' :=
  ⟨h'.sublist.trans h.sublist, h'.own.trans h.own, fun b hb => (h'.others b hb).trans (h.others b hb)⟩

/-- The oldest event of `a` goes. -/
theorem Kept.remove {l₁ l₂ : List (ℕ × V4l2Event)} {e : V4l2Event} (hl₁ : ∀ x ∈ l₁, x.1 ≠ a) :
    Kept a (l₁ ++ (a, e) :: l₂) (l₁ ++ l₂) := by
  refine ⟨?_, ?_, fun b hb => ?_⟩
  · rw [seqs_append, seqs_append, seqs_cons]
    exact (List.Sublist.refl _).append (List.sublist_cons_self _ _)
  · rw [ofSev_append, ofSev_append, ofSev_eq_nil hl₁, ofSev_cons_self, List.nil_append, List.nil_append,
      seqs_cons]
    exact List.suffix_cons _ _
  · rw [ofSev_append, ofSev_append, ofSev_cons_of_ne (Ne.symm hb)]

/-- An event of `a` gets something else to carry. -/
theorem Kept.modify {l₁ l₂ : List (ℕ × V4l2Event)} {e : V4l2Event} {u : EventU} :
    Kept a (l₁ ++ (a, e) :: l₂) (l₁ ++ (a, { e with u := u }) :: l₂) := by
  refine ⟨?_, ?_, fun b hb => ?_⟩
  · rw [seqs_append, seqs_append]
    exact List.Sublist.refl _
  · rw [ofSev_append, ofSev_append, ofSev_cons_self, ofSev_cons_self, seqs_append, seqs_append]
    exact List.suffix_refl _
  · rw [ofSev_append, ofSev_append, ofSev_cons_of_ne (Ne.symm hb), ofSev_cons_of_ne (Ne.symm hb)]

/-- **The oldest event is removed**. -/
theorem removeOldest_spec (h : Linked fh) (ha : a ∈ fh.subscribed) (hpos : 0 < (fh.sevs a).inUse) :
    Linked (removeOldest fh a) ∧ (removeOldest fh a).sevs = update fh.sevs a (popped (fh.sevs a)) ∧
      (a, sevPos (fh.sevs a) 0) ∉ (removeOldest fh a).available ∧
      ∃ l₁ l₂, (∀ x ∈ l₁, x.1 ≠ a) ∧
        pending fh = l₁ ++ (a, ((fh.sevs a).events (sevPos (fh.sevs a) 0)).event) :: l₂ ∧
        pending (removeOldest fh a) = l₁ ++ l₂ := by
  obtain ⟨l₁, l₂, hsplit, hl₁, hl₂, hnotMem⟩ := h.oldest ha hpos
  rw [removeOldest_eq hsplit hl₁]
  refine ⟨h.remove ha hsplit rfl hl₁ hl₂, rfl, ?_, l₁.map (value fh.sevs), l₂.map (value fh.sevs), ?_, ?_, ?_⟩
  · intro hmem
    rcases List.mem_append.mp hmem with hmem | hmem
    · exact hl₁ _ hmem rfl
    · exact hnotMem hmem
  · intro x hx
    obtain ⟨y, hy, rfl⟩ := List.mem_map.mp hx
    exact hl₁ y hy
  · rw [pending_eq, hsplit, List.map_append, List.map_cons]
    rfl
  · rw [pending_eq]
    dsimp only
    rw [map_value_popped, List.map_append]

/-- **The oldest event is written to**. -/
theorem setU_spec (h : Linked fh) (ha : a ∈ fh.subscribed) (hpos : 0 < (fh.sevs a).inUse) (u : EventU) :
    Linked (fh.set a ((fh.sevs a).setU (sevPos (fh.sevs a) 0) u)) ∧
      ∃ l₁ l₂ e, (∀ x ∈ l₁, x.1 ≠ a) ∧ e = ((fh.sevs a).events (sevPos (fh.sevs a) 0)).event ∧
        pending fh = l₁ ++ (a, e) :: l₂ ∧
        pending (fh.set a ((fh.sevs a).setU (sevPos (fh.sevs a) 0) u)) =
          l₁ ++ (a, { e with u := u }) :: l₂ := by
  obtain ⟨l₁, l₂, hsplit, hl₁, -, hnotMem⟩ := h.oldest ha hpos
  refine ⟨h.set a _ _, l₁.map (value fh.sevs), l₂.map (value fh.sevs), _, ?_, rfl, ?_, ?_⟩
  · intro x hx
    obtain ⟨y, hy, rfl⟩ := List.mem_map.mp hx
    exact hl₁ y hy
  · rw [pending_eq, hsplit, List.map_append, List.map_cons]
    rfl
  · rw [pending_eq]
    unfold V4l2Fh.set SubscribedEvent.setU
    dsimp only
    rw [hsplit, List.map_append, List.map_cons, value_set_self,
      List.map_congr_left fun x hx => value_set fun heq => hl₁ x hx (congrArg Prod.fst heq),
      List.map_congr_left fun x hx => value_set fun heq => hnotMem (heq ▸ hx)]

/-! ## The sections keep the list -/

/-- **Room is made** by taking out the oldest event, whose changes stay. -/
theorem makeRoom_spec (h : Linked fh) (ha : a ∈ fh.subscribed) (ev : V4l2Event) {fh' : V4l2Fh} {cp : Bool}
    (hroom : makeRoom fh a ev = (fh', cp)) :
    Linked fh' ∧ SameSubs fh fh' ∧ fh'.sequence = fh.sequence ∧ (fh'.sevs a).inUse < (fh'.sevs a).elems ∧
      Kept a (pending fh) (pending fh') ∧
      (Collects (fh.sevs a).ops →
        changes (ofSev a (pending fh')) ||| (filled fh' a ev cp).u.changes =
          changes (ofSev a (pending fh)) ||| ev.u.changes) := by
  have hwf := h.wf a ha
  unfold makeRoom at hroom
  dsimp only at hroom
  by_cases hfull : (fh.sevs a).inUse = (fh.sevs a).elems
  · have hone := hwf.one_le
    have hpos : 0 < (fh.sevs a).inUse := by omega
    obtain ⟨hlinked, hsevs, hnotMem, l₁, l₂, hl₁, hbefore, hafter⟩ := removeOldest_spec h ha hpos
    have hself : (removeOldest fh a).sevs a = popped (fh.sevs a) := by rw [hsevs, update_self]
    have hkept : Kept a (pending fh) (pending (removeOldest fh a)) := by
      rw [hbefore, hafter]
      exact Kept.remove hl₁
    have hsame : SameSubs fh (removeOldest fh a) := (SameSubs.refl fh).set ⟨rfl, rfl, rfl⟩
    have hless : (popped (fh.sevs a)).inUse < (popped (fh.sevs a)).elems := by
      show (fh.sevs a).inUse - 1 < (fh.sevs a).elems
      omega
    have hold : changes (ofSev a (pending fh)) =
        ((fh.sevs a).events (sevPos (fh.sevs a) 0)).event.u.changes |||
          changes (ofSev a (pending (removeOldest fh a))) := by
      rw [hbefore, hafter, ofSev_append, ofSev_append, ofSev_eq_nil hl₁, ofSev_cons_self, List.nil_append,
        List.nil_append, changes_cons]
    rw [if_pos hfull, hself] at hroom
    by_cases hsingle : (popped (fh.sevs a)).elems = 1
    · rw [if_pos hsingle] at hroom
      have hempty : ofSev a (pending (removeOldest fh a)) = [] := by
        have hring := hlinked.rings a ha
        rw [hself] at hring
        have hnone : (popped (fh.sevs a)).inUse = 0 := by
          show (fh.sevs a).inUse - 1 = 0
          have helems : (fh.sevs a).elems = 1 := hsingle
          omega
        unfold slots at hring
        rw [hnone, List.range_zero, List.map_nil, List.map_nil] at hring
        rw [pending_eq, ofSev_map_value, show ofSev a (removeOldest fh a).available = [] from hring,
          List.map_nil]
      split at hroom
      · -- the slot that is filled next is the one whose event has been replaced
        rename_i replace hreplace
        obtain ⟨rfl, rfl⟩ := Prod.mk.inj hroom
        rw [← hself] at hless ⊢
        refine ⟨hlinked.set a _ _, hsame.set (hsame.2 a), rfl, ?_, ?_, fun hcollects => ?_⟩
        · show (update (removeOldest fh a).sevs a _ a).inUse < (update (removeOldest fh a).sevs a _ a).elems
          rw [update_self]
          exact hless
        · unfold SubscribedEvent.setU
          rw [pending_set_of_notMem hnotMem]
          exact hkept
        · obtain ⟨⟨replace', hreplace', hchanges⟩, -⟩ := hcollects
          obtain rfl := Option.some.inj (hreplace.symm.trans hreplace')
          have hslot : sevPos (popped (fh.sevs a)) (popped (fh.sevs a)).inUse = sevPos (fh.sevs a) 0 := by
            have helems : (fh.sevs a).elems = 1 := hsingle
            have hnone : (popped (fh.sevs a)).inUse = 0 := by
              show (fh.sevs a).inUse - 1 = 0
              omega
            rw [hnone, sevPos_popped hwf (by omega), if_pos (by omega)]
          have hu : (filled ((removeOldest fh a).set a (((removeOldest fh a).sevs a).setU (sevPos (fh.sevs a) 0)
              (replace (((removeOldest fh a).sevs a).events (sevPos (fh.sevs a) 0)).event.u ev.u))) a ev
                false).u =
              replace ((fh.sevs a).events (sevPos (fh.sevs a) 0)).event.u ev.u := by
            unfold filled V4l2Fh.set
            dsimp only
            rw [update_self, hself, if_neg Bool.false_ne_true]
            show (update (popped (fh.sevs a)).events _ _
              (sevPos (popped (fh.sevs a)) (popped (fh.sevs a)).inUse)).event.u = _
            rw [hslot, update_self]
            rfl
          have hpending : pending ((removeOldest fh a).set a (((removeOldest fh a).sevs a).setU
              (sevPos (fh.sevs a) 0)
              (replace (((removeOldest fh a).sevs a).events (sevPos (fh.sevs a) 0)).event.u ev.u))) =
              pending (removeOldest fh a) := pending_set_of_notMem hnotMem
          rw [hu, hpending, hold, hempty, hchanges]
          show (0 : UInt32) ||| _ = _ ||| 0 ||| _
          rw [UInt32.zero_or, UInt32.or_zero]
      · rename_i hreplace
        obtain ⟨rfl, rfl⟩ := Prod.mk.inj hroom
        rw [← hself] at hless
        refine ⟨hlinked, hsame, rfl, hless, hkept, fun hcollects => ?_⟩
        obtain ⟨⟨replace', hreplace', -⟩, -⟩ := hcollects
        exact absurd (hreplace'.symm.trans hreplace) (Option.some_ne_none _)
    · rw [if_neg hsingle] at hroom
      split at hroom
      · rename_i merge hmerge
        obtain ⟨rfl, rfl⟩ := Prod.mk.inj hroom
        rw [← hself] at hless hsingle ⊢
        have hstill : 0 < ((removeOldest fh a).sevs a).inUse := by
          rw [hself] at hsingle ⊢
          show 0 < (fh.sevs a).inUse - 1
          have helems : (fh.sevs a).elems ≠ 1 := hsingle
          omega
        obtain ⟨hset, m₁, m₂, e, hm₁, he, hmid, hmerged⟩ := setU_spec hlinked ha hstill
          (merge (((removeOldest fh a).sevs a).events (sevPos (fh.sevs a) 0)).event.u
            (((removeOldest fh a).sevs a).events (sevPos ((removeOldest fh a).sevs a) 0)).event.u)
        refine ⟨hset, hsame.set (hsame.2 a), rfl, ?_, ?_, fun hcollects => ?_⟩
        · show (update (removeOldest fh a).sevs a _ a).inUse < (update (removeOldest fh a).sevs a _ a).elems
          rw [update_self]
          exact hless
        · refine hkept.trans ?_
          rw [hmid, hmerged]
          exact Kept.modify
        · obtain ⟨-, merge', hmerge', hchanges⟩ := hcollects
          obtain rfl := Option.some.inj (hmerge.symm.trans hmerge')
          have hevents : (((removeOldest fh a).sevs a).events (sevPos (fh.sevs a) 0)).event =
              ((fh.sevs a).events (sevPos (fh.sevs a) 0)).event := by
            rw [hself]
            rfl
          rw [hmerged, hold, hmid, ofSev_append, ofSev_append, ofSev_cons_self, ofSev_cons_self,
            changes_append, changes_append, changes_cons, changes_cons]
          dsimp only
          rw [hchanges, ← he, hevents, ofSev_eq_nil hm₁]
          show (0 : UInt32) ||| _ ||| ev.u.changes = _
          rw [UInt32.zero_or, UInt32.or_assoc ((fh.sevs a).events (sevPos (fh.sevs a) 0)).event.u.changes]
          exact congrArg (_ ||| · ||| _) (UInt32.zero_or).symm
      · rename_i hmerge
        obtain ⟨rfl, rfl⟩ := Prod.mk.inj hroom
        rw [← hself] at hless
        refine ⟨hlinked, hsame, rfl, hless, hkept, fun hcollects => ?_⟩
        obtain ⟨-, merge', hmerge', -⟩ := hcollects
        exact absurd (hmerge'.symm.trans hmerge) (Option.some_ne_none _)
  · rw [if_neg hfull] at hroom
    obtain ⟨rfl, rfl⟩ := Prod.mk.inj hroom
    have hle := hwf.inUse_le
    exact ⟨h, ⟨rfl, fun _ => ⟨rfl, rfl, rfl⟩⟩, rfl, by omega, Kept.refl _ _, fun _ => rfl⟩

/-- The ring is filled, and the subscriptions are for the same. -/
theorem sameSubs_fill (fh : V4l2Fh) (a : ℕ) (ev : V4l2Event) (ts : ℕ) (cp : Bool) :
    SameSubs fh (fill fh a ev ts cp) ∧ (fill fh a ev ts cp).sequence = fh.sequence := by
  refine ⟨?_, rfl⟩
  unfold fill
  exact (SameSubs.refl fh).set ⟨rfl, rfl, rfl⟩

theorem eventSubscribed_mem {type id : UInt32} (h : eventSubscribed fh type id = some a) :
    a ∈ fh.subscribed := List.mem_of_find?_eq_some h

/-- **An event is queued** behind those that are kept. -/
theorem queueFh_spec (h : Linked fh) (hsub : eventSubscribed fh ev.type ev.id = some a) :
    Linked (queueFh fh ev ts) ∧ SameSubs fh (queueFh fh ev ts) ∧
      (queueFh fh ev ts).sequence = fh.sequence + 1 ∧
      ∃ kept new, pending (queueFh fh ev ts) = kept ++ [(a, new)] ∧ new.sequence = fh.sequence + 1 ∧
        Kept a (pending fh) kept ∧
        (Collects (fh.sevs a).ops →
          changes (ofSev a kept) ||| new.u.changes = changes (ofSev a (pending fh)) ||| ev.u.changes) := by
  have ha := eventSubscribed_mem hsub
  have hstart : Linked { fh with sequence := fh.sequence + 1 } :=
    ⟨h.nodup, h.wf, h.rings, h.live, h.navailable⟩
  unfold queueFh
  rw [hsub]
  dsimp only
  rcases hroom : makeRoom { fh with sequence := fh.sequence + 1 } a ev with ⟨fh', cp⟩
  obtain ⟨hlinked, hsame, hseq, hless, hkept, hchanges⟩ := makeRoom_spec hstart ha ev hroom
  have hsub' : a ∈ fh'.subscribed := by
    rw [hsame.1]
    exact ha
  obtain ⟨hfill, hpending⟩ := hlinked.fill hsub' hless ev ts cp
  obtain ⟨hsame', hseq'⟩ := sameSubs_fill fh' a ev ts cp
  refine ⟨hfill, hsame.trans hsame', hseq'.trans hseq, _, _, hpending, hseq, hkept, hchanges⟩

/-- **The first event is dequeued**. -/
theorem dequeue_spec (h : Linked fh) {x : ℕ × V4l2Event} {fh' : V4l2Fh} (hdequeue : dequeue fh = some (x, fh')) :
    Linked fh' ∧ SameSubs fh fh' ∧ fh'.sequence = fh.sequence ∧
      ∃ e, pending fh = (x.1, e) :: pending fh' ∧ x.2.sequence = e.sequence ∧ x.2.u = e.u := by
  unfold dequeue at hdequeue
  dsimp only at hdequeue
  split at hdequeue
  · cases hdequeue
  · rename_i a i available hcons
    obtain ⟨rfl, rfl⟩ := Prod.mk.inj (Option.some.inj hdequeue)
    have ha : a ∈ fh.subscribed := h.live (a, i) (by rw [hcons]; exact List.mem_cons_self)
    have hring : ofSev a fh.available = _ := h.rings a ha
    rw [hcons, ofSev_cons_self] at hring
    have hpos : 0 < (fh.sevs a).inUse := by
      refine Nat.pos_of_ne_zero fun hzero => ?_
      unfold slots at hring
      rw [hzero] at hring
      exact List.cons_ne_nil _ _ hring
    rw [slots_popped (h.wf a ha) hpos, List.map_cons] at hring
    obtain ⟨hfirst, hrest⟩ := List.cons.inj hring
    have hremoved := @Linked.remove fh a h ha [] available (a, i) hcons rfl
      (fun _ hy => absurd hy List.not_mem_nil) hrest
    have hnotMem : (a, i) ∉ available := by
      obtain ⟨l₁, l₂, hsplit, hl₁, -, hnotMem⟩ := h.oldest ha hpos
      rw [← (Prod.mk.inj hfirst).2] at hsplit hnotMem
      rw [hcons] at hsplit
      cases l₁ with
      | nil =>
        obtain ⟨-, rfl⟩ := List.cons.inj hsplit
        exact hnotMem
      | cons y l₁ =>
        obtain ⟨rfl, -⟩ := List.cons.inj hsplit
        exact absurd rfl (hl₁ _ List.mem_cons_self)
    -- the event that has been taken out is written to once more
    obtain ⟨kev, hkev⟩ : ∃ kev : V4l2Kevent,
        kev = ⟨{ ((fh.sevs a).events i).event with pending := fh.navailable - 1 }, ((fh.sevs a).events i).ts⟩ :=
      ⟨_, rfl⟩
    obtain ⟨removed, hdef⟩ : ∃ removed : V4l2Fh, removed =
        { fh with
          sevs := update fh.sevs a (popped (fh.sevs a)), available := [] ++ available
          navailable := fh.navailable - 1 } := ⟨_, rfl⟩
    have hself : removed.sevs a = popped (fh.sevs a) := by
      rw [hdef]
      exact update_self ..
    have hresult : ({ fh with available := available, navailable := fh.navailable - 1 } : V4l2Fh).set a
        { ((fh.sevs a).set i kev) with
          first := sevPos ((fh.sevs a).set i kev) 1, inUse := ((fh.sevs a).set i kev).inUse - 1 } =
        removed.set a ((removed.sevs a).set i kev) := by
      rw [hself, hdef]
      unfold V4l2Fh.set
      dsimp only
      rw [update_idem]
      rfl
    rw [← hdef] at hremoved
    have hpending : pending (removed.set a ((removed.sevs a).set i kev)) = available.map (value fh.sevs) := by
      have hlist : removed.available = available := by rw [hdef, List.nil_append]
      rw [pending_set_of_notMem (by rw [hlist]; exact hnotMem), pending_eq, hlist, hdef]
      exact map_value_popped available
    have hset := hremoved.set a i kev
    rw [hkev] at hresult hpending hset
    refine ⟨hresult ▸ hset, ?_, rfl, ((fh.sevs a).events i).event, ?_, rfl, rfl⟩
    · exact (SameSubs.refl fh).set ⟨rfl, rfl, rfl⟩
    · rw [pending_eq, hcons, List.map_cons]
      refine congrArg₂ List.cons rfl (hpending.symm.trans (congrArg pending hresult.symm))

/-! ## A subscription goes -/

/-- The entries of a subscription are taken out of the list one by one. -/
theorem foldl_erase (is : List ℕ) (l : List (ℕ × ℕ)) (h : ofSev a l = is.map (Prod.mk a)) :
    is.foldl (fun l i => l.erase (a, i)) l = l.filter fun x => !(x.1 == a) := by
  induction is generalizing l with
  | nil =>
    rw [List.foldl_nil, List.filter_eq_self.mpr fun x hx => ?_]
    have hne := List.filter_eq_nil_iff.mp h x hx
    simpa using hne
  | cons i is ih =>
    rw [List.map_cons] at h
    rw [List.foldl_cons, ih]
    · rw [← List.erase_filter, List.erase_of_not_mem]
      intro hmem
      have hself := (List.mem_filter.mp hmem).2
      rw [beq_self_eq_true] at hself
      exact Bool.false_ne_true hself
    · show (l.erase (a, i)).filter _ = _
      rw [← List.erase_filter, show l.filter (fun x => x.1 == a) = _ from h, List.erase_cons_head]

/-- The loop of `__v4l2_event_unsubscribe`. -/
theorem foldl_unlink (f : ℕ → ℕ) (is : List ℕ) (fh : V4l2Fh) :
    is.foldl (fun fh i =>
      { fh with available := fh.available.erase (a, f i), navailable := fh.navailable - 1 }) fh =
      { fh with
        available := (is.map f).foldl (fun l i => l.erase (a, i)) fh.available
        navailable := fh.navailable - is.length } := by
  induction is generalizing fh with
  | nil => rfl
  | cons i is ih =>
    rw [List.foldl_cons, ih, List.map_cons, List.foldl_cons, List.length_cons]
    dsimp only
    rw [Nat.sub_sub, Nat.add_comm 1]

theorem length_ofSev_add {β : Type*} (a : ℕ) (l : List (ℕ × β)) :
    (ofSev a l).length + (l.filter fun x => !(x.1 == a)).length = l.length := by
  unfold ofSev
  induction l with
  | nil => rfl
  | cons x l ih =>
    by_cases hx : x.1 = a
    · rw [List.filter_cons_of_pos (by rw [beq_iff_eq]; exact hx),
        List.filter_cons_of_neg (by rw [hx, beq_self_eq_true]; decide), List.length_cons, List.length_cons]
      omega
    · rw [List.filter_cons_of_neg (by rw [beq_iff_eq]; exact hx),
        List.filter_cons_of_pos (by simpa using hx), List.length_cons, List.length_cons]
      omega

theorem ofSev_filter_of_ne {β : Type*} (hb : b ≠ a) (l : List (ℕ × β)) :
    ofSev b (l.filter fun x => !(x.1 == a)) = ofSev b l := by
  unfold ofSev
  rw [List.filter_filter]
  refine List.filter_congr fun x _ => ?_
  by_cases hx : x.1 = b
  · simp [hx, hb]
  · simp [hx]

/-- **A subscription goes**, and its events with it. -/
theorem eventUnsubscribe_spec (h : Linked fh) (ha : a ∈ fh.subscribed) :
    Linked (eventUnsubscribe fh a) ∧ (eventUnsubscribe fh a).sevs = fh.sevs ∧
      (eventUnsubscribe fh a).sequence = fh.sequence ∧
      (∀ b, b ∈ (eventUnsubscribe fh a).subscribed ↔ b ∈ fh.subscribed ∧ b ≠ a) ∧
      pending (eventUnsubscribe fh a) = (pending fh).filter fun x => !(x.1 == a) := by
  have hring : ofSev a fh.available = (slots (fh.sevs a)).map (Prod.mk a) := h.rings a ha
  have hresult : eventUnsubscribe fh a =
      { fh with
        subscribed := fh.subscribed.erase a
        available := fh.available.filter fun x => !(x.1 == a)
        navailable := fh.navailable - (fh.sevs a).inUse } := by
    have herase : ((List.range (fh.sevs a).inUse).map (sevPos (fh.sevs a))).foldl
        (fun l i => l.erase (a, i)) fh.available = _ := foldl_erase _ _ hring
    unfold eventUnsubscribe
    dsimp only
    rw [foldl_unlink, List.length_range, herase]
  have hmem : ∀ b, b ∈ fh.subscribed.erase a ↔ b ∈ fh.subscribed ∧ b ≠ a := fun b => by
    rw [h.nodup.mem_erase_iff, and_comm]
  rw [hresult]
  refine ⟨⟨h.nodup.erase a, fun b hb => h.wf b ((hmem b).mp hb).1, fun b hb => ?_, fun x hx => ?_, ?_⟩,
    rfl, rfl, hmem, ?_⟩
  · obtain ⟨hb, hne⟩ := (hmem b).mp hb
    exact (ofSev_filter_of_ne hne fh.available).trans (h.rings b hb)
  · obtain ⟨hx, hne⟩ := List.mem_filter.mp hx
    exact (hmem x.1).mpr ⟨h.live x hx, by simpa using hne⟩
  · show fh.navailable - (fh.sevs a).inUse = (fh.available.filter _).length
    have hlen := length_ofSev_add a fh.available
    have hcount : (ofSev a fh.available).length = (fh.sevs a).inUse := by
      rw [hring, List.length_map]
      unfold slots
      rw [List.length_map, List.length_range]
    rw [h.navailable]
    omega
  · rw [pending_eq, pending_eq, List.filter_map]
    rfl

/-- Every event is one of exactly one subscription. -/
theorem sum_length_ofSev {β : Type*} {subs : List ℕ} (hnodup : subs.Nodup) {l : List (ℕ × β)}
    (hl : ∀ x ∈ l, x.1 ∈ subs) : (subs.map fun a => (ofSev a l).length).sum = l.length := by
  induction subs generalizing l with
  | nil =>
    cases l with
    | nil => rfl
    | cons x l => exact absurd (hl x List.mem_cons_self) List.not_mem_nil
  | cons a subs ih =>
    obtain ⟨ha, hnodup⟩ := List.nodup_cons.mp hnodup
    have hrest : (subs.map fun b => (ofSev b l).length) =
        subs.map fun b => (ofSev b (l.filter fun x => !(x.1 == a))).length :=
      List.map_congr_left fun b hb => by
        rw [ofSev_filter_of_ne (show b ≠ a from fun heq => ha (heq ▸ hb))]
    rw [List.map_cons, List.sum_cons, hrest, ih hnodup, length_ofSev_add]
    intro x hx
    obtain ⟨hx, hne⟩ := List.mem_filter.mp hx
    rcases List.mem_cons.mp (hl x hx) with heq | hmem
    · exact absurd heq (by simpa using hne)
    · exact hmem

/-- The events of all rings together are those in the list. -/
theorem Linked.sum (h : Linked fh) :
    (fh.subscribed.map fun a => (fh.sevs a).inUse).sum = fh.available.length := by
  rw [← sum_length_ofSev h.nodup h.live]
  refine congrArg List.sum (List.map_congr_left fun a ha => ?_)
  rw [show ofSev a fh.available = _ from h.rings a ha, List.length_map]
  unfold slots
  rw [List.length_map, List.length_range]

/-! ## The calls keep the lists -/

/-- The numbers of the events in `l` are numbers of some of the first `n` events, in their order. -/
def Stamped (n : ℕ) (l : List UInt32) : Prop :=
  ∃ ns : List ℕ, ns.Pairwise (· < ·) ∧ (∀ k ∈ ns, k < n) ∧ l = ns.map UInt32.ofNat

theorem Stamped.sublist {n : ℕ} {l l' : List UInt32} (h : Stamped n l) (hsub : l'.Sublist l) : Stamped n l' := by
  obtain ⟨ns, hpairwise, hlt, rfl⟩ := h
  obtain ⟨ns', hns', rfl⟩ := List.sublist_map_iff.mp hsub
  exact ⟨ns', hpairwise.sublist hns', fun k hk => hlt k (hns'.subset hk), rfl⟩

theorem Stamped.push {n : ℕ} {l : List UInt32} (h : Stamped n l) :
    Stamped (n + 1) (l ++ [UInt32.ofNat n]) := by
  obtain ⟨ns, hpairwise, hlt, rfl⟩ := h
  refine ⟨ns ++ [n], ?_, fun k hk => ?_, by rw [List.map_append, List.map_singleton]⟩
  · rw [List.pairwise_append]
    refine ⟨hpairwise, List.pairwise_singleton _ _, fun k hk m hm => ?_⟩
    rw [List.mem_singleton.mp hm]
    exact hlt k hk
  · rcases List.mem_append.mp hk with hk | hk
    · exact Nat.lt_succ_of_lt (hlt k hk)
    · rw [List.mem_singleton.mp hk]
      exact Nat.lt_succ_self n

/-- As long as the counter does not go round, the numbers increase. -/
theorem Stamped.increasing {n : ℕ} {l : List UInt32} (h : Stamped n l) (hn : n ≤ 2 ^ 32) :
    l.Pairwise (· < ·) := by
  obtain ⟨ns, hpairwise, hlt, rfl⟩ := h
  refine List.pairwise_map.mpr (hpairwise.imp_of_mem fun {i j} hi hj hij => ?_)
  have hi' := hlt i hi
  have hj' := hlt j hj
  rw [UInt32.lt_iff_toNat_lt, UInt32.toNat_ofNat', UInt32.toNat_ofNat', Nat.mod_eq_of_lt (by omega),
    Nat.mod_eq_of_lt (by omega)]
  exact hij

/-- What every step keeps. -/
structure Inv (s : State) : Prop where
  linked : Linked s.fh
  type_ne : ∀ a ∈ s.fh.subscribed, (s.fh.sevs a).type ≠ V4L2_EVENT_ALL
  adding : ∀ a, s.lock = some (.add a) → a ∈ s.fh.subscribed
  fresh : ∀ a ∈ s.fh.subscribed, a < s.fresh
  queued_lt : ∀ x ∈ s.queued, x.1 < s.fresh
  dequeued_lt : ∀ x ∈ s.dequeued, x.1 < s.fresh
  sequence : s.fh.sequence + 1 = UInt32.ofNat s.queued.length
  stamped : Stamped s.queued.length (seqs s.dequeued ++ seqs (pending s.fh))
  order : ∀ a ∈ s.fh.subscribed, seqs (ofSev a (pending s.fh)) <:+ seqs (ofSev a s.queued)
  collected : ∀ a ∈ s.fh.subscribed, Collects (s.fh.sevs a).ops →
    changes (ofSev a s.dequeued) ||| changes (ofSev a (pending s.fh)) = changes (ofSev a s.queued)

theorem inv_init (sevs : ℕ → SubscribedEvent) : Inv (State.init sevs) where
  linked := ⟨List.nodup_nil, fun _ h => absurd h List.not_mem_nil, fun _ h => absurd h List.not_mem_nil,
    fun _ h => absurd h List.not_mem_nil, rfl⟩
  type_ne := fun _ h => absurd h List.not_mem_nil
  adding := fun _ h => absurd h (by simp [State.init])
  fresh := fun _ h => absurd h List.not_mem_nil
  queued_lt := fun _ h => absurd h List.not_mem_nil
  dequeued_lt := fun _ h => absurd h List.not_mem_nil
  sequence := show (-1 : UInt32) + 1 = UInt32.ofNat 0 by decide
  stamped := ⟨[], List.Pairwise.nil, fun _ h => absurd h List.not_mem_nil, rfl⟩
  order := fun _ h => absurd h List.not_mem_nil
  collected := fun _ h => absurd h List.not_mem_nil

/-- An event is queued. -/
theorem Inv.queue (h : Inv s) (hsub : eventSubscribed s.fh ev.type ev.id = some a) :
    Inv { s with
      fh := queueFh s.fh ev ts
      queued := s.queued ++ [(a, { ev with sequence := (queueFh s.fh ev ts).sequence })] } := by
  have ha := eventSubscribed_mem hsub
  obtain ⟨hlinked, ⟨hsubs, hsame⟩, hseq, kept, new, hpending, hnew, hkept, hchanges⟩ :=
    @queueFh_spec s.fh a ev ts h.linked hsub
  have hlen : (s.queued ++ [(a, { ev with sequence := (queueFh s.fh ev ts).sequence })]).length =
      s.queued.length + 1 := by
    rw [List.length_append, List.length_singleton]
  refine ⟨hlinked, fun b hb => ?_, fun b hb => ?_, fun b hb => ?_, fun x hx => ?_, h.dequeued_lt, ?_, ?_,
    fun b hb => ?_, fun b hb hcollects => ?_⟩
  · rw [(hsame b).1]
    exact h.type_ne b (hsubs ▸ hb)
  · show b ∈ (queueFh s.fh ev ts).subscribed
    rw [hsubs]
    exact h.adding b hb
  · exact h.fresh b (hsubs ▸ hb)
  · rcases List.mem_append.mp hx with hx | hx
    · exact h.queued_lt x hx
    · rw [List.mem_singleton.mp hx]
      exact h.fresh a ha
  · show (queueFh s.fh ev ts).sequence + 1 = UInt32.ofNat (s.queued ++ _).length
    rw [hlen, hseq, h.sequence, UInt32.ofNat_add]
    rfl
  · show Stamped (s.queued ++ _).length (seqs s.dequeued ++ seqs (pending (queueFh s.fh ev ts)))
    rw [hlen, hpending, seqs_append, ← List.append_assoc]
    have hlast : seqs [(a, new)] = [UInt32.ofNat s.queued.length] := by
      rw [seqs_cons, hnew, h.sequence]
      rfl
    rw [hlast]
    exact (h.stamped.sublist ((List.Sublist.refl _).append hkept.sublist)).push
  · show seqs (ofSev b (pending (queueFh s.fh ev ts))) <:+ seqs (ofSev b (s.queued ++ _))
    rw [hpending, ofSev_append, ofSev_append]
    by_cases hba : b = a
    · subst hba
      rw [ofSev_cons_self, ofSev_cons_self, seqs_append, seqs_append, seqs_cons, seqs_cons, hnew, hseq]
      obtain ⟨l, hl⟩ := hkept.own.trans (h.order b ha)
      exact ⟨l, by rw [← List.append_assoc, hl]⟩
    · rw [ofSev_cons_of_ne (Ne.symm hba), ofSev_cons_of_ne (Ne.symm hba), hkept.others b hba]
      rw [ofSev_nil, List.append_nil, List.append_nil]
      exact h.order b (hsubs ▸ hb)
  · show changes (ofSev b s.dequeued) ||| changes (ofSev b (pending (queueFh s.fh ev ts))) =
      changes (ofSev b (s.queued ++ _))
    rw [(hsame b).2.2] at hcollects
    rw [hpending, ofSev_append, ofSev_append, changes_append, changes_append]
    by_cases hba : b = a
    · subst hba
      have hold := h.collected b ha hcollects
      rw [ofSev_cons_self, ofSev_cons_self, changes_cons, changes_cons, ofSev_nil]
      show _ ||| (changes (ofSev b kept) ||| (new.u.changes ||| 0)) = _ ||| (ev.u.changes ||| 0)
      rw [UInt32.or_zero, UInt32.or_zero, hchanges hcollects, ← UInt32.or_assoc, hold]
    · rw [ofSev_cons_of_ne (Ne.symm hba), ofSev_cons_of_ne (Ne.symm hba), hkept.others b hba, ofSev_nil]
      show _ ||| (_ ||| (0 : UInt32)) = _ ||| (0 : UInt32)
      rw [UInt32.or_zero, UInt32.or_zero]
      exact h.collected b (hsubs ▸ hb) hcollects

/-- An event is dequeued. -/
theorem Inv.dequeue (h : Inv s) {x : ℕ × V4l2Event} {fh' : V4l2Fh}
    (hdequeue : Event.dequeue s.fh = some (x, fh')) :
    Inv { s with fh := fh', dequeued := s.dequeued ++ [x] } := by
  obtain ⟨hlinked, ⟨hsubs, hsame⟩, hseq, e, hpending, hxseq, hxu⟩ := dequeue_spec h.linked hdequeue
  have hx : x.1 ∈ s.fh.subscribed := by
    unfold Event.dequeue at hdequeue
    dsimp only at hdequeue
    split at hdequeue
    · cases hdequeue
    · rename_i a i available hcons
      obtain ⟨rfl, -⟩ := Prod.mk.inj (Option.some.inj hdequeue)
      exact h.linked.live (a, i) (by rw [hcons]; exact List.mem_cons_self)
  refine ⟨hlinked, fun b hb => ?_, fun b hb => ?_, fun b hb => ?_, h.queued_lt, fun y hy => ?_, ?_, ?_,
    fun b hb => ?_, fun b hb hcollects => ?_⟩
  · rw [(hsame b).1]
    exact h.type_ne b (hsubs ▸ hb)
  · show b ∈ fh'.subscribed
    rw [hsubs]
    exact h.adding b hb
  · exact h.fresh b (hsubs ▸ hb)
  · rcases List.mem_append.mp hy with hy | hy
    · exact h.dequeued_lt y hy
    · rw [List.mem_singleton.mp hy]
      exact h.fresh x.1 hx
  · show fh'.sequence + 1 = _
    rw [hseq]
    exact h.sequence
  · show Stamped s.queued.length (seqs (s.dequeued ++ [x]) ++ seqs (pending fh'))
    have hstamped := h.stamped
    rw [hpending, seqs_cons] at hstamped
    rw [seqs_append, seqs_cons, hxseq, List.append_assoc]
    exact hstamped
  · show seqs (ofSev b (pending fh')) <:+ seqs (ofSev b s.queued)
    have horder := h.order b (hsubs ▸ hb)
    rw [hpending] at horder
    by_cases hbx : b = x.1
    · subst hbx
      rw [ofSev_cons_self, seqs_cons] at horder
      exact (List.suffix_cons _ _).trans horder
    · rw [@ofSev_cons_of_ne b _ (x.1, e) (Ne.symm hbx)] at horder
      exact horder
  · show changes (ofSev b (s.dequeued ++ [x])) ||| changes (ofSev b (pending fh')) = changes (ofSev b s.queued)
    rw [(hsame b).2.2] at hcollects
    have hold := h.collected b (hsubs ▸ hb) hcollects
    rw [hpending] at hold
    rw [← hold, ofSev_append, changes_append]
    by_cases hbx : b = x.1
    · subst hbx
      have hone : ofSev x.1 [x] = [x] := ofSev_cons_self x.1 x.2 []
      rw [hone, ofSev_cons_self, changes_cons, changes_cons, hxu]
      show _ ||| (e.u.changes ||| 0) ||| _ = _
      rw [UInt32.or_zero, UInt32.or_assoc]
    · rw [ofSev_cons_of_ne (Ne.symm hbx), @ofSev_cons_of_ne b _ (x.1, e) (Ne.symm hbx)]
      exact congrArg (· ||| _) UInt32.or_zero

/-- A subscription goes. -/
theorem Inv.unsubscribed (h : Inv s) (ha : a ∈ s.fh.subscribed) {lock : Option Callback}
    (hlock : ∀ b, lock ≠ some (.add b)) :
    Inv { s with fh := eventUnsubscribe s.fh a, lock := lock } := by
  obtain ⟨hlinked, hsevs, hseq, hsubs, hpending⟩ := eventUnsubscribe_spec h.linked ha
  refine ⟨hlinked, fun b hb => ?_, fun b hb => absurd hb (hlock b), fun b hb => h.fresh b ((hsubs b).mp hb).1,
    h.queued_lt, h.dequeued_lt, ?_, ?_, fun b hb => ?_, fun b hb hcollects => ?_⟩
  · rw [hsevs]
    exact h.type_ne b ((hsubs b).mp hb).1
  · show (eventUnsubscribe s.fh a).sequence + 1 = _
    rw [hseq]
    exact h.sequence
  · show Stamped _ (_ ++ seqs (pending (eventUnsubscribe s.fh a)))
    rw [hpending]
    exact h.stamped.sublist ((List.Sublist.refl _).append (List.filter_sublist.map _))
  · obtain ⟨hb, hne⟩ := (hsubs b).mp hb
    show seqs (ofSev b (pending (eventUnsubscribe s.fh a))) <:+ _
    rw [hpending, ofSev_filter_of_ne hne]
    exact h.order b hb
  · obtain ⟨hb, hne⟩ := (hsubs b).mp hb
    show _ ||| changes (ofSev b (pending (eventUnsubscribe s.fh a))) = _
    rw [hpending, ofSev_filter_of_ne hne]
    rw [hsevs] at hcollects
    exact h.collected b hb hcollects

/-- A subscription comes, with an empty ring. -/
theorem Inv.subscribed (h : Inv s) {type id flags : UInt32} {elems : ℕ} {ops : Option SubscribedEventOps}
    (htype : type ≠ V4L2_EVENT_ALL) (helems : 1 ≤ elems) {lock : Option Callback}
    (hlock : ∀ b, lock = some (.add b) → b = s.fresh) :
    Inv { s with
      fh :=
        { s.fh with
          sevs := update s.fh.sevs s.fresh ⟨type, id, flags, ops, elems, 0, 0, fun _ => zeroKevent⟩
          subscribed := s.fresh :: s.fh.subscribed }
      fresh := s.fresh + 1
      lock := lock } := by
  have hne : ∀ b ∈ s.fh.subscribed, b ≠ s.fresh := fun b hb => (h.fresh b hb).ne
  have hpending : pending { s.fh with
      sevs := update s.fh.sevs s.fresh ⟨type, id, flags, ops, elems, 0, 0, fun _ => zeroKevent⟩
      subscribed := s.fresh :: s.fh.subscribed } = pending s.fh := by
    refine List.map_congr_left fun x hx => ?_
    dsimp only
    rw [update_of_ne (hne x.1 (h.linked.live x hx))]
  have hnone : ofSev s.fresh (pending s.fh) = [] := by
    refine ofSev_eq_nil fun x hx => ?_
    obtain ⟨y, hy, rfl⟩ := List.mem_map.mp hx
    exact hne y.1 (h.linked.live y hy)
  refine ⟨⟨?_, fun b hb => ?_, fun b hb => ?_, fun x hx => ?_, h.linked.navailable⟩, fun b hb => ?_,
    fun b hb => ?_, fun b hb => ?_, fun x hx => Nat.lt_succ_of_lt (h.queued_lt x hx),
    fun x hx => Nat.lt_succ_of_lt (h.dequeued_lt x hx), h.sequence, ?_, fun b hb => ?_,
    fun b hb hcollects => ?_⟩
  · exact List.nodup_cons.mpr ⟨fun hmem => hne _ hmem rfl, h.linked.nodup⟩
  · rcases List.mem_cons.mp hb with rfl | hb
    · show Wf (update s.fh.sevs _ _ _)
      rw [update_self]
      exact ⟨helems, helems, Nat.zero_le _⟩
    · show Wf (update s.fh.sevs _ _ _)
      rw [update_of_ne (hne b hb)]
      exact h.linked.wf b hb
  · rcases List.mem_cons.mp hb with rfl | hb
    · show ofSev s.fresh s.fh.available = (slots (update s.fh.sevs _ _ _)).map _
      rw [update_self]
      exact ofSev_eq_nil fun x hx => hne x.1 (h.linked.live x hx)
    · show ofSev b s.fh.available = (slots (update s.fh.sevs _ _ _)).map _
      rw [update_of_ne (hne b hb)]
      exact h.linked.rings b hb
  · exact List.mem_cons_of_mem _ (h.linked.live x hx)
  · rcases List.mem_cons.mp hb with rfl | hb
    · show (update s.fh.sevs _ _ _).type ≠ _
      rw [update_self]
      exact htype
    · show (update s.fh.sevs _ _ _).type ≠ _
      rw [update_of_ne (hne b hb)]
      exact h.type_ne b hb
  · rw [hlock b hb]
    exact List.mem_cons_self
  · rcases List.mem_cons.mp hb with rfl | hb
    · exact Nat.lt_succ_self _
    · exact Nat.lt_succ_of_lt (h.fresh b hb)
  · show Stamped _ (_ ++ seqs (pending _))
    rw [hpending]
    exact h.stamped
  · show seqs (ofSev b (pending _)) <:+ _
    rw [hpending]
    rcases List.mem_cons.mp hb with rfl | hb
    · rw [hnone]
      exact List.nil_suffix
    · exact h.order b hb
  · show _ ||| changes (ofSev b (pending _)) = _
    rw [hpending]
    rcases List.mem_cons.mp hb with rfl | hb
    · rw [hnone, ofSev_eq_nil fun x hx => (h.dequeued_lt x hx).ne, ofSev_eq_nil fun x hx => (h.queued_lt x hx).ne]
      decide
    · replace hcollects : Collects (update s.fh.sevs _ _ b).ops := hcollects
      rw [update_of_ne (hne b hb)] at hcollects
      exact h.collected b hb hcollects

/-- `v4l2_event_unsubscribe`. -/
theorem Inv.unsubscribe (h : Inv s) {type id : UInt32} (hstep : Event.unsubscribe s type id = some t) : Inv t := by
  unfold Event.unsubscribe at hstep
  split_ifs at hstep with htype
  split at hstep
  · cases hstep
  · rename_i hlock
    split at hstep
    · obtain rfl := Option.some.inj hstep
      exact h
    · rename_i a hsub
      obtain rfl := Option.some.inj hstep
      refine h.unsubscribed (eventSubscribed_mem hsub) fun b => ?_
      split <;> simp

/-- `v4l2_event_subscribe`. -/
theorem Inv.subscribe (h : Inv s) {type id flags : UInt32} {elems : ℕ} {ops : Option SubscribedEventOps}
    {alloc : Bool} (hstep : Event.subscribe s type id flags elems ops alloc = some t) : Inv t := by
  unfold Event.subscribe at hstep
  dsimp only at hstep
  by_cases htype : type = V4L2_EVENT_ALL
  · rw [if_pos htype] at hstep
    obtain rfl := Option.some.inj hstep
    exact h
  · rw [if_neg htype] at hstep
    cases alloc with
    | false =>
      obtain rfl := Option.some.inj hstep
      exact h
    | true =>
      rw [if_neg (by decide)] at hstep
      split at hstep
      · cases hstep
      · split at hstep
        · obtain rfl := Option.some.inj hstep
          exact h
        · obtain rfl := Option.some.inj hstep
          refine h.subscribed htype (by split <;> omega) fun b hb => ?_
          split at hb
          · exact (Callback.add.inj (Option.some.inj hb)).symm
          · cases hb

/-- **Each step** keeps the lists. -/
theorem Inv.step (h : Inv s) {e : Action} (hstep : Event.step s e = some t) : Inv t := by
  cases e with
  | subscribe type id flags elems ops alloc => exact h.subscribe hstep
  | added fails =>
    unfold Event.step at hstep
    dsimp only at hstep
    split at hstep
    · rename_i a hlock
      obtain rfl := Option.some.inj hstep
      cases fails with
      | true => exact h.unsubscribed (h.adding a hlock) fun b => by simp
      | false => exact ⟨h.linked, h.type_ne, fun b hb => absurd hb (by simp), h.fresh, h.queued_lt, h.dequeued_lt,
          h.sequence, h.stamped, h.order, h.collected⟩
    · cases hstep
  | unsubscribe type id => exact h.unsubscribe hstep
  | deleted =>
    unfold Event.step at hstep
    dsimp only at hstep
    split at hstep
    · obtain rfl := Option.some.inj hstep
      exact ⟨h.linked, h.type_ne, fun b hb => absurd hb (by simp), h.fresh, h.queued_lt, h.dequeued_lt,
        h.sequence, h.stamped, h.order, h.collected⟩
    · cases hstep
  | peek =>
    unfold Event.step at hstep
    dsimp only at hstep
    split at hstep
    · obtain rfl := Option.some.inj hstep
      exact h
    · obtain rfl := Option.some.inj hstep
      exact ⟨h.linked, h.type_ne, h.adding, h.fresh, h.queued_lt, h.dequeued_lt, h.sequence, h.stamped,
        h.order, h.collected⟩
  | unsubscribePeeked k =>
    obtain ⟨sub, -, hstep⟩ := Option.bind_eq_some_iff.mp hstep
    refine Inv.unsubscribe (s := { s with peeked := s.peeked.eraseIdx k }) ?_ hstep
    exact ⟨h.linked, h.type_ne, h.adding, h.fresh, h.queued_lt, h.dequeued_lt, h.sequence, h.stamped,
      h.order, h.collected⟩
  | queue ev ts =>
    unfold Event.step at hstep
    dsimp only at hstep
    split at hstep
    · rename_i hsub
      obtain rfl := Option.some.inj hstep
      have hsame : queueFh s.fh ev ts = s.fh := by
        unfold queueFh
        rw [hsub]
      rw [hsame]
      exact h
    · rename_i a hsub
      obtain rfl := Option.some.inj hstep
      exact h.queue hsub
  | dequeue =>
    unfold Event.step at hstep
    dsimp only at hstep
    split at hstep
    · obtain rfl := Option.some.inj hstep
      exact h
    · rename_i x fh' hdequeue
      obtain rfl := Option.some.inj hstep
      exact h.dequeue hdequeue

/-! ## The accounts of every run -/

/-- The callbacks `replace` and `merge` of source changes, or of controls. -/
def MergesChanges (ops : Option SubscribedEventOps) : Prop :=
  (ops.bind SubscribedEventOps.replace = some v4l2EventSrcReplace ∧
      ops.bind SubscribedEventOps.merge = some v4l2EventSrcMerge) ∨
    ops.bind SubscribedEventOps.replace = some v4l2CtrlReplace ∧
      ops.bind SubscribedEventOps.merge = some v4l2CtrlMerge

/-- They all collect the changes. -/
theorem collects_of_mergesChanges {ops : Option SubscribedEventOps} (h : MergesChanges ops) : Collects ops := by
  rcases h with ⟨hreplace, hmerge⟩ | ⟨hreplace, hmerge⟩
  · exact ⟨⟨_, hreplace, fun old new => UInt32.or_comm _ _⟩, _, hmerge, fun old new => UInt32.or_comm _ _⟩
  · exact ⟨⟨_, hreplace, fun old new => UInt32.or_comm _ _⟩, _, hmerge, fun old new => UInt32.or_comm _ _⟩

/-- The accounts of a file handle are right. -/
structure Accounted (s : State) : Prop where
  navailable : s.fh.navailable = s.fh.available.length
  inUse : s.fh.navailable = (s.fh.subscribed.map fun a => (s.fh.sevs a).inUse).sum
  /-- Every event that is pending is one of a subscription. -/
  live : ∀ x ∈ s.fh.available, x.1 ∈ s.fh.subscribed
  /-- Those of a subscription are the slots of its ring, from the first one on. -/
  rings : ∀ a ∈ s.fh.subscribed, s.fh.available.filter (fun x => x.1 == a) =
    (List.range (s.fh.sevs a).inUse).map fun i => (a, sevPos (s.fh.sevs a) i)
  /-- They are the ones of the subscription that have been queued last, in the same order. -/
  order : ∀ a ∈ s.fh.subscribed, seqs (ofSev a (pending s.fh)) <:+ seqs (ofSev a s.queued)
  /-- The sequence numbers increase from one event to the next, before and behind the reader. -/
  increasing : s.queued.length < 2 ^ 32 → (seqs s.dequeued ++ seqs (pending s.fh)).Pairwise (· < ·)
  /-- No change is lost. -/
  changes : ∀ a ∈ s.fh.subscribed, MergesChanges (s.fh.sevs a).ops →
    Event.changes (ofSev a s.dequeued) ||| Event.changes (ofSev a (pending s.fh)) =
      Event.changes (ofSev a s.queued)

/-- **The accounts are right** in every state that a file handle gets to. -/
theorem event_accounted (sevs : ℕ → SubscribedEvent) {es : List Action}
    (hrun : run step (State.init sevs) es = some t) : Accounted t := by
  have h : Inv t := run_inv (fun _ _ _ h hstep => Inv.step h hstep) (inv_init sevs) hrun
  refine ⟨h.linked.navailable, h.linked.navailable.trans h.linked.sum.symm, h.linked.live, fun a ha => ?_,
    h.order, fun hlen => h.stamped.increasing hlen.le, fun a ha hops =>
      h.collected a ha (collects_of_mergesChanges hops)⟩
  rw [h.linked.rings a ha]
  unfold slots
  rw [List.map_map]
  rfl

/-- An event of a control, with changes. -/
def ctrlEvent (changes : UInt32) : V4l2Event := ⟨3, ⟨changes, [], []⟩, 0, 0, (0, 0), 7⟩

/-- Three events go into a ring of two, the first one while the `add` callback runs.  The one that is
dequeued has the changes of two. -/
theorem event_accounted_threeEvents :
    ∃ t, run step (State.init fun _ => ⟨0, 0, 0, none, 1, 0, 0, fun _ => zeroKevent⟩)
        [.subscribe 3 7 0 2 (some v4l2CtrlSubEvOps) true, .queue (ctrlEvent 1) 10, .added false,
          .queue (ctrlEvent 2) 20, .queue (ctrlEvent 4) 30, .dequeue] = some t ∧
      t.dequeued.map (fun x => (x.2.sequence, x.2.u.changes)) = [(1, 3)] ∧ t.fh.navailable = 1 ∧
      Accounted t := by
  obtain ⟨t, ht, hvalues⟩ := Option.map_eq_some_iff.mp
    (show (run step (State.init fun _ => ⟨0, 0, 0, none, 1, 0, 0, fun _ => zeroKevent⟩)
        [.subscribe 3 7 0 2 (some v4l2CtrlSubEvOps) true, .queue (ctrlEvent 1) 10, .added false,
          .queue (ctrlEvent 2) 20, .queue (ctrlEvent 4) 30, .dequeue]).map (fun t =>
            (t.dequeued.map (fun x => (x.2.sequence, x.2.u.changes)), t.fh.navailable)) =
        some ([(1, 3)], 1) by decide +kernel)
  obtain ⟨hdequeued, hnavailable⟩ := Prod.mk.inj hvalues
  exact ⟨t, ht, hdequeued, hnavailable, event_accounted _ ht⟩

end Event
end TbsMedia
