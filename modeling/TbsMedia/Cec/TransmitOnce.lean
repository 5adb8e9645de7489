import Mathlib
import TbsMedia.Cec.Transmit
import TbsMedia.Lib.Runs

/-!
# Transmits complete once

The callers that wait for their transmit, the main thread, the driver, the timeout works and the closing of
file handles take turns under `adap->lock`.  A caller can be killed while it waits, and a receiver drops the
lock to flush a timeout work.

The argument gives every transmit a `Place`: it is queued, being transmitted, waiting for its reply, with a
receiver, or completed.  The place says which list or slot holds the transmit, whether its work may be
scheduled, whether it is still on the list of its file handle, and whether it has been freed, so a state in
which every transmit has a place completes its transmits once.  A section of the source moves one transmit
and looks the same to the others (`Same`), so for each section there are two lemmas: what it does to the
place of its own transmit, and that the other transmits stay.  A flush is a fold of such moves.  The one move
that has no place to go to is that of a killed caller which frees what a receiver still holds: that is where
the code goes wrong, and what the condition of the run excludes.

* `txStep`: a step of one of them.
* `Place`, `Placed`: where a transmit is, and what the adapter looks like when every transmit is at its place.
* `CompletesOnce`: every transmit is completed once and is not referenced once it has been freed.
* `completesOnce_run`: it holds of every run in which no killed caller frees a transmit that a receiver still
  holds, or whose timeout work has been scheduled anew.
* `not_completesOnce`: a run in which a killed caller does.
-/

namespace TbsMedia
namespace Cec

open Lib

/-! ## The system -/

/-- How far a caller is that waits for its transmit. -/
inductive Phase where
  /-- In `wait_for_completion_killable`. -/
  | waiting
  /-- It was killed, found the transmit not completed, and is in `cancel_delayed_work_sync`. -/
  | cancelling
  /-- About to take the lock again. -/
  | relocking
deriving DecidableEq

/-- The adapter, with the receivers that hold a transmit and have dropped the lock, the callers that wait, and
the file handles that are open. -/
structure TxSys where
  adap : TxAdap
  receiving : List DataPtr
  caller : DataPtr → Option Phase
  isOpen : Fh → Bool

/-- What happens next. -/
inductive TxAct where
  | submit (msg : CecMsg) (fh : Option Fh) (block rawio memory : Bool) (now : ℕ)
  | woken (d : DataPtr)
  | killed (d : DataPtr)
  | cancelSync (d : DataPtr)
  | finish (d : DataPtr) (now : ℕ)
  | thread (timeout stop accepts : Bool) (now : ℕ)
  | done (t : TxDone)
  | receive (msg : CecMsg) (ts : ℕ)
  | flushed (d : DataPtr)
  | timer (d : DataPtr)
  | timeout (d : DataPtr) (now : ℕ)
  | unconfigure (now : ℕ)
  | configure (cfg : Config)
  | openFh (fh : Fh)
  | release (fh : Fh)

/-- A caller that gets the lock again cancels its transmit if it was interrupted, and frees it. -/
def cecTransmitFinish (now : ℕ) (a : TxAdap) (d : DataPtr) : TxAdap :=
  if (a.data d).completed then a.kfree d
  else (cecDataCancel CEC_TX_STATUS_ABORTED now a d).kfree d

/-- A transmit is unhooked from a file handle that is closed. -/
def unhookReleased (fh : Fh) (a : TxAdap) (d : DataPtr) : TxAdap :=
  (a.modify d fun data => { data with blocking := false, fh := none }).listDelXfer d fh

/-- The last section of `cec_release`. -/
def cecReleaseTransmits (a : TxAdap) (fh : Fh) : TxAdap :=
  (a.xferList fh).foldl (unhookReleased fh) a

/-- A step, or `none` where nothing of the kind can happen.  A file handle is released when no call on it is in
progress any more. -/
def txStep (s : TxSys) : TxAct → Option TxSys
  | .submit msg fh block rawio memory now =>
    if fh.elim true s.isOpen then
      let r := cecTransmitMsgFh s.adap msg fh block rawio memory now
      let caller := if block then
          r.data.elim s.caller fun d => Function.update s.caller d (some .waiting)
        else s.caller
      some { s with adap := r.adap, caller := caller }
    else none
  | .woken d =>
    if s.caller d = some .waiting ∧ (s.adap.data d).completed then
      some { s with caller := Function.update s.caller d (some .relocking) }
    else none
  | .killed d =>
    if s.caller d = some .waiting ∧ (s.adap.data d).completed = false then
      some { s with caller := Function.update s.caller d (some .cancelling) }
    else none
  | .cancelSync d =>
    if s.caller d = some .cancelling ∧ (s.adap.data d).running = false then
      some { s with
        adap := s.adap.modify d fun data => { data with pending := false }
        caller := Function.update s.caller d (some .relocking) }
    else none
  | .finish d now =>
    if s.caller d = some .relocking then
      some { s with
        adap := cecTransmitFinish now s.adap d
        caller := Function.update s.caller d none }
    else none
  | .thread timeout stop accepts now => some { s with adap := cecThreadFunc timeout stop accepts now s.adap }
  | .done t => some { s with adap := cecTransmitDoneTs t s.adap }
  | .receive msg ts =>
    let r := cecReceivedSection msg ts s.adap
    some { s with adap := r.1, receiving := r.2.elim s.receiving (· :: s.receiving) }
  | .flushed d =>
    if d ∈ s.receiving ∧ (s.adap.data d).running = false then
      some { s with adap := cecDataCompleted s.adap d, receiving := s.receiving.erase d }
    else none
  | .timer d =>
    if (s.adap.data d).pending then
      some { s with adap := s.adap.modify d fun data => { data with pending := false, running := true } }
    else none
  | .timeout d now =>
    if (s.adap.data d).running then some { s with adap := cecWaitTimeout now s.adap d } else none
  | .unconfigure now => some { s with adap := cecAdapUnconfigure now s.adap }
  | .configure cfg => some { s with adap := { s.adap with cfg := cfg } }
  | .openFh fh => some { s with isOpen := Function.update s.isOpen fh true }
  | .release fh =>
    if s.isOpen fh ∧ ∀ d < s.adap.allocated, s.caller d ≠ none → (s.adap.data d).fh ≠ some fh then
      some { s with
        adap := cecReleaseTransmits s.adap fh
        isOpen := Function.update s.isOpen fh false }
    else none

/-- A transmit that has not been allocated. -/
def noData : CecData where
  msg := ⟨0, 0, 0, 0, 0, 0, fun _ => 0, 0, 0, 0, 0, 0, 0, 0⟩
  fh := none
  attempts := 0
  blocking := false
  completed := false
  pending := false
  running := false

/-- A new adapter. -/
def TxSys.initial (needsHpd : Bool) (cfg : Config) : TxSys where
  adap :=
    { transmitQueue := []
      transmitQueueSz := 0
      waitQueue := []
      transmitting := none
      transmitInProgress := false
      needsHpd := needsHpd
      lastInitiator := 0xff
      txTimeouts := 0
      sequence := 0
      cfg := cfg
      data := fun _ => noData
      xferList := fun _ => []
      allocated := 0
      freed := []
      calls := []
      cancels := []
      completions := [] }
  receiving := []
  caller := fun _ => none
  isOpen := fun _ => false

/-! ## What is to hold -/

/-- The parties that hold a transmit in order to complete it. -/
def holders (s : TxSys) (d : DataPtr) : ℕ :=
  s.adap.transmitQueue.count d + s.adap.waitQueue.count d +
    (if s.adap.transmitting = some d then 1 else 0) + s.receiving.count d

/-- A list, the transmitting slot, a timeout work, a receiver or a caller refers to the transmit. -/
def Referenced (s : TxSys) (d : DataPtr) : Prop :=
  d ∈ s.adap.transmitQueue ∨ d ∈ s.adap.waitQueue ∨ s.adap.transmitting = some d ∨
    (∃ fh, d ∈ s.adap.xferList fh) ∨ (s.adap.data d).pending = true ∨ (s.adap.data d).running = true ∨
    d ∈ s.receiving ∨ s.caller d ≠ none

/-- Somebody comes for a transmit of the wait queue: its timeout work is scheduled or running, or a killed
caller has cancelled the work and is about to take the lock. -/
def Attended (data : CecData) (c : Option Phase) : Prop :=
  data.pending = true ∨ data.running = true ∨ c = some .relocking

/-- **Transmits complete once**: an accepted transmit has been completed once, or is in the hands of the one
party that will complete it; none waits for its reply with nobody to time it out; what has been freed is not
referenced; the queue has the length it is said to have. -/
structure CompletesOnce (s : TxSys) : Prop where
  once : ∀ d < s.adap.allocated, s.adap.completions.count d + holders s d = 1
  attended : ∀ d ∈ s.adap.waitQueue, Attended (s.adap.data d) (s.caller d)
  unreferenced : ∀ d ∈ s.adap.freed, d ∈ s.adap.completions ∧ s.adap.freed.count d = 1 ∧ ¬ Referenced s d
  size : s.adap.transmitQueueSz.toNat = s.adap.transmitQueue.length

/-- A killed caller does not cancel its transmit while a receiver holds it, or while its timeout work is
scheduled or running. -/
def FinishesAlone (s : TxSys) : TxAct → Prop
  | .finish d _ => d ∉ s.receiving ∧ (s.adap.data d).pending = false ∧ (s.adap.data d).running = false
  | _ => True

/-! ## Places -/

/-- Where a transmit is.  It is `detached` only inside a section. -/
inductive Place where
  | fresh
  | queued
  | transmitting
  | waiting
  | received
  | detached
  | completed
deriving DecidableEq

/-- The lists, the transmitting slot and `r` receivers hold the transmit `d` as they do at the place `p`. -/
structure Holds (a : TxAdap) (r : ℕ) (d : DataPtr) (p : Place) : Prop where
  queued : a.transmitQueue.count d = if p = .queued then 1 else 0
  sending : a.transmitting = some d ↔ p = .transmitting
  waiting : a.waitQueue.count d = if p = .waiting then 1 else 0
  received : r = if p = .received then 1 else 0

/-- The status and the delayed work of a transmit are those of the place `p`. -/
structure Ready (data : CecData) (p : Place) : Prop where
  unsent : p = .queued ∨ p = .transmitting → txOk data.msg = false
  sent : p = .waiting ∨ p = .received → txOk data.msg = true
  pending : data.pending = true → p = .waiting ∧ data.running = false
  running : data.running = true → p = .waiting ∨ p = .received

/-- The transmit `d` is at the place `p`, with `r` receivers that hold it and the caller `c`. -/
structure At (a : TxAdap) (r : ℕ) (c : Option Phase) (d : DataPtr) (p : Place) : Prop
    extends Holds a r d p, Ready (a.data d) p where
  allocated : d < a.allocated ↔ p ≠ .fresh
  completions : a.completions.count d = if p = .completed then 1 else 0
  freed : a.freed.count d = if p = .completed ∧ c = none then 1 else 0
  hooked : ∀ fh, (a.xferList fh).count d =
    if (a.data d).fh = some fh ∧ p ≠ .fresh ∧ p ≠ .completed then 1 else 0
  flag : p ≠ .fresh → p ≠ .completed ∨ c ≠ none → ((a.data d).completed = true ↔ p = .completed)
  caller : p ≠ .fresh → p ≠ .completed → ((a.data d).blocking = true ↔ c ≠ none)
  uncalled : p = .fresh → c = none

/-- The two adapters look the same to the transmit `e`. -/
structure Same (a b : TxAdap) (e : DataPtr) : Prop where
  allocated : e < b.allocated ↔ e < a.allocated
  queued : b.transmitQueue.count e = a.transmitQueue.count e
  sending : b.transmitting = some e ↔ a.transmitting = some e
  waiting : b.waitQueue.count e = a.waitQueue.count e
  completions : b.completions.count e = a.completions.count e
  freed : b.freed.count e = a.freed.count e
  data : b.data e = a.data e
  hooked : ∀ fh, (b.xferList fh).count e = (a.xferList fh).count e

theorem Same.refl (a : TxAdap) (e : DataPtr) : Same a a e :=
  ⟨Iff.rfl, rfl, Iff.rfl, rfl, rfl, rfl, rfl, fun _ => rfl⟩

theorem Same.trans {a b b' : TxAdap} {e : DataPtr} (h : Same a b e) (h' : Same b b' e) : Same a b' e where
  allocated := h'.allocated.trans h.allocated
  queued := h'.queued.trans h.queued
  sending := h'.sending.trans h.sending
  waiting := h'.waiting.trans h.waiting
  completions := h'.completions.trans h.completions
  freed := h'.freed.trans h.freed
  data := h'.data.trans h.data
  hooked := fun fh => (h'.hooked fh).trans (h.hooked fh)

/-- A transmit stays at its place where the adapter looks the same to it. -/
theorem At.of_same {a b : TxAdap} {r : ℕ} {c : Option Phase} {e : DataPtr} {p : Place} (h : At a r c e p)
    (hs : Same a b e) : At b r c e p where
  allocated := hs.allocated.trans h.allocated
  queued := hs.queued.trans h.queued
  sending := hs.sending.trans h.sending
  waiting := hs.waiting.trans h.waiting
  received := h.received
  completions := hs.completions.trans h.completions
  freed := hs.freed.trans h.freed
  unsent := hs.data.symm ▸ h.unsent
  sent := hs.data.symm ▸ h.sent
  pending := hs.data.symm ▸ h.pending
  running := hs.data.symm ▸ h.running
  hooked := fun fh => hs.data.symm ▸ (hs.hooked fh).trans (h.hooked fh)
  flag := hs.data.symm ▸ h.flag
  caller := hs.data.symm ▸ h.caller
  uncalled := h.uncalled

/-! ## What a section does to the other transmits -/

theorem same_modify (a : TxAdap) {d e : DataPtr} (f : CecData → CecData) (hne : e ≠ d) :
    Same a (a.modify d f) e where
  allocated := Iff.rfl
  queued := rfl
  sending := Iff.rfl
  waiting := rfl
  completions := rfl
  freed := rfl
  data := Function.update_of_ne hne _ _
  hooked := fun _ => rfl

theorem same_listDelInit (a : TxAdap) {d e : DataPtr} (hne : e ≠ d) : Same a (a.listDelInit d) e where
  allocated := Iff.rfl
  queued := List.count_erase_of_ne hne
  sending := Iff.rfl
  waiting := List.count_erase_of_ne hne
  completions := rfl
  freed := rfl
  data := rfl
  hooked := fun _ => rfl

theorem same_listDelXfer (a : TxAdap) {d e : DataPtr} (fh : Fh) (hne : e ≠ d) :
    Same a (a.listDelXfer d fh) e where
  allocated := Iff.rfl
  queued := rfl
  sending := Iff.rfl
  waiting := rfl
  completions := rfl
  freed := rfl
  data := rfl
  hooked := by
    intro fh'
    change List.count e (Function.update a.xferList fh ((a.xferList fh).erase d) fh') = _
    by_cases h : fh' = fh
    · rw [h, Function.update_self, List.count_erase_of_ne hne]
    · rw [Function.update_of_ne h]

theorem same_kfree (a : TxAdap) {d e : DataPtr} (hne : e ≠ d) : Same a (a.kfree d) e where
  allocated := Iff.rfl
  queued := rfl
  sending := Iff.rfl
  waiting := rfl
  completions := rfl
  freed := List.count_cons_of_ne hne.symm
  data := rfl
  hooked := fun _ => rfl

theorem same_unhook (a : TxAdap) {d e : DataPtr} (hne : e ≠ d) : Same a (unhook a d) e := by
  unfold unhook
  cases (a.data d).fh with
  | none => exact Same.refl a e
  | some fh => exact same_listDelXfer a fh hne

theorem same_wakeOrFree (a : TxAdap) {d e : DataPtr} (hne : e ≠ d) : Same a (wakeOrFree a d) e := by
  unfold wakeOrFree
  split
  · exact same_modify a _ hne
  · exact same_kfree a hne

theorem same_cecDataCompleted (a : TxAdap) {d e : DataPtr} (hne : e ≠ d) :
    Same a (cecDataCompleted a d) e := by
  have hlog : Same a { a with completions := d :: a.completions } e :=
    { Same.refl a e with completions := List.count_cons_of_ne hne.symm }
  exact hlog.trans ((same_unhook _ hne).trans (same_wakeOrFree _ hne))

theorem same_takeBack (a : TxAdap) {d e : DataPtr} (hne : e ≠ d) : Same a (takeBack a d) e := by
  unfold takeBack
  split
  · next h =>
    refine { Same.refl a e with sending := ⟨fun h' => (nomatch h'), fun h' => ?_⟩ }
    exact absurd (Option.some.inj (h'.symm.trans h)) hne
  · split
    · exact same_listDelInit a hne
    · exact { same_listDelInit a hne with }

theorem same_cecDataCancel (txStatus : UInt8) (now : ℕ) (a : TxAdap) {d e : DataPtr} (hne : e ≠ d) :
    Same a (cecDataCancel txStatus now a d) e := by
  have hlog : Same a { a with cancels := d :: a.cancels } e := { Same.refl a e with }
  exact hlog.trans ((same_takeBack _ hne).trans
    ((same_modify _ _ hne).trans (same_cecDataCompleted _ hne)))

/-! ## What a section does to its transmit -/

/-- The delayed work of the transmit is neither scheduled nor running. -/
def Idle (a : TxAdap) (d : DataPtr) : Prop :=
  (a.data d).pending = false ∧ (a.data d).running = false

section Moves

variable {a : TxAdap} {r : ℕ} {c : Option Phase} {d : DataPtr} {p : Place}

/-- Only waiting transmits, and those a receiver holds, have a work. -/
theorem At.idle (h : At a r c d p) (hw : p ≠ .waiting) (hr : p ≠ .received) : Idle a d := by
  refine ⟨Bool.eq_false_iff.mpr fun hp => hw (h.pending hp).1, Bool.eq_false_iff.mpr fun hrun => ?_⟩
  rcases h.running hrun with h' | h'
  · exact hw h'
  · exact hr h'

/-- Fields that no place looks at may change. -/
theorem At.modify (h : At a r c d p) (f : CecData → CecData)
    (hok : p ≠ .detached → p ≠ .completed → p ≠ .fresh → txOk (f (a.data d)).msg = txOk (a.data d).msg)
    (hfh : (f (a.data d)).fh = (a.data d).fh) (hblock : (f (a.data d)).blocking = (a.data d).blocking)
    (hflag : (f (a.data d)).completed = (a.data d).completed)
    (hpend : (f (a.data d)).pending = true → p = .waiting ∧ (f (a.data d)).running = false)
    (hrun : (f (a.data d)).running = true → p = .waiting ∨ p = .received) :
    At (a.modify d f) r c d p := by
  have hdata : (a.modify d f).data d = f (a.data d) := Function.update_self ..
  exact
    { h with
      unsent := fun hp => by
        rw [hdata, hok (by rintro rfl; simp at hp) (by rintro rfl; simp at hp) (by rintro rfl; simp at hp)]
        exact h.unsent hp
      sent := fun hp => by
        rw [hdata, hok (by rintro rfl; simp at hp) (by rintro rfl; simp at hp) (by rintro rfl; simp at hp)]
        exact h.sent hp
      pending := by rw [hdata]; exact hpend
      running := by rw [hdata]; exact hrun
      hooked := by rw [hdata, hfh]; exact h.hooked
      flag := by rw [hdata, hflag]; exact h.flag
      caller := by rw [hdata, hblock]; exact h.caller }

/-- The adapter keeps what it knows of the transmit besides where it is. -/
structure Kept (a b : TxAdap) (d : DataPtr) : Prop where
  allocated : b.allocated = a.allocated
  completions : b.completions = a.completions
  freed : b.freed = a.freed
  xferList : b.xferList = a.xferList
  fh : (b.data d).fh = (a.data d).fh
  blocking : (b.data d).blocking = (a.data d).blocking
  completed : (b.data d).completed = (a.data d).completed

/-- A transmit that is not completed goes from one place to another. -/
theorem At.move (h : At a r c d p) (hp : p ≠ .fresh ∧ p ≠ .completed) {b : TxAdap} {r' : ℕ} {q : Place}
    (hq : q ≠ .fresh ∧ q ≠ .completed) (hk : Kept a b d) (hh : Holds b r' d q) (hr : Ready (b.data d) q) :
    At b r' c d q where
  toHolds := hh
  toReady := hr
  allocated := by
    rw [hk.allocated, h.allocated]
    exact iff_of_true hp.1 hq.1
  completions := by rw [hk.completions, h.completions, if_neg hp.2, if_neg hq.2]
  freed := by rw [hk.freed, h.freed, if_neg fun h => hp.2 h.1, if_neg fun h => hq.2 h.1]
  hooked := by
    intro fh
    rw [hk.xferList, hk.fh, h.hooked fh]
    simp [hp, hq]
  flag := by
    intro _ _
    rw [hk.completed, h.flag hp.1 (Or.inl hp.2)]
    exact iff_of_false hp.2 hq.2
  caller := by
    intro _ _
    rw [hk.blocking, h.caller hp.1 hp.2]
  uncalled := fun h => absurd h hq.1

/-- A transmit without a work is ready to be detached. -/
theorem Idle.ready {b : TxAdap} (h : Idle b d) : Ready (b.data d) .detached where
  unsent := by simp
  sent := by simp
  pending := by rw [h.1]; simp
  running := by rw [h.2]; simp

/-- A queued or transmitting transmit, or an idle waiting one, is taken back. -/
theorem At.takeBack (h : At a r c d p)
    (hp : p = .queued ∨ p = .transmitting ∨ (p = .waiting ∧ Idle a d)) :
    At (takeBack a d) r c d .detached := by
  have hplace : p ≠ .fresh ∧ p ≠ .completed ∧ p ≠ .received ∧ p ≠ .detached := by
    rcases hp with rfl | rfl | ⟨rfl, -⟩ <;> decide
  have hidle : Idle a d := by
    rcases hp with rfl | rfl | ⟨-, hi⟩
    · exact h.idle (by decide) (by decide)
    · exact h.idle (by decide) (by decide)
    · exact hi
  have hrcv : r = if Place.detached = .received then 1 else 0 := by rw [h.received, if_neg hplace.2.2.1]; rfl
  unfold Cec.takeBack
  by_cases hs : a.transmitting = some d
  · obtain rfl := h.sending.mp hs
    rw [if_pos hs]
    exact h.move ⟨hplace.1, hplace.2.1⟩ (by decide) ⟨rfl, rfl, rfl, rfl, rfl, rfl, rfl⟩
      ⟨h.queued, by simp, h.waiting, hrcv⟩ hidle.ready
  · rw [if_neg hs]
    have hq : (a.transmitQueue.erase d).count d = 0 := by
      rw [List.count_erase_self, h.queued]
      split <;> rfl
    have hw : (a.waitQueue.erase d).count d = 0 := by
      rw [List.count_erase_self, h.waiting]
      split <;> rfl
    have hs' : a.transmitting = some d ↔ Place.detached = .transmitting := iff_of_false hs (by decide)
    split
    · exact h.move ⟨hplace.1, hplace.2.1⟩ (by decide) ⟨rfl, rfl, rfl, rfl, rfl, rfl, rfl⟩
        ⟨hq, hs', hw, hrcv⟩ hidle.ready
    · exact h.move ⟨hplace.1, hplace.2.1⟩ (by decide) ⟨rfl, rfl, rfl, rfl, rfl, rfl, rfl⟩
        ⟨hq, hs', hw, hrcv⟩ hidle.ready

/-- Unhooking leaves all but the lists of the file handles. -/
theorem unhook_eq (a : TxAdap) (d : DataPtr) : unhook a d = { a with xferList := (unhook a d).xferList } := by
  unfold unhook
  cases (a.data d).fh <;> rfl

/-- An unhooked transmit is on the list of no file handle. -/
theorem count_unhook (hhook : ∀ fh, (a.xferList fh).count d = if (a.data d).fh = some fh then 1 else 0) (fh : Fh) :
    ((unhook a d).xferList fh).count d = 0 := by
  unfold unhook
  cases hfh : (a.data d).fh with
  | none =>
    rw [Option.elim_none, hhook, hfh]
    rfl
  | some f =>
    change List.count d (Function.update a.xferList f ((a.xferList f).erase d) fh) = 0
    by_cases h : fh = f
    · rw [h, Function.update_self, List.count_erase_self, hhook, hfh, if_pos rfl]
    · rw [Function.update_of_ne h, hhook, hfh, if_neg fun h' => h (Option.some.inj h').symm]

/-- A detached transmit is completed. -/
theorem At.completed (h : At a r c d .detached) : At (cecDataCompleted a d) r c d .completed := by
  have hidle := h.idle (by decide) (by decide)
  have hcomp : (d :: a.completions).count d = 1 := by rw [List.count_cons_self, h.completions]; rfl
  have hhook : ∀ fh, ((unhook { a with completions := d :: a.completions } d).xferList fh).count d = 0 :=
    count_unhook fun fh => (h.hooked fh).trans (by simp)
  have hcaller := h.caller (by decide) (by decide)
  unfold cecDataCompleted
  rw [unhook_eq]
  generalize (unhook { a with completions := d :: a.completions } d).xferList = lists at hhook
  unfold wakeOrFree
  split
  · next hb =>
    have hc : c ≠ none := hcaller.mp hb
    have hdata : ∀ b : TxAdap, (b.modify d fun data => { data with completed := true }).data d =
        { b.data d with completed := true } := fun b => Function.update_self ..
    refine
      { queued := h.queued
        sending := iff_of_false (mt h.sending.mp (by decide)) (by decide)
        waiting := h.waiting
        received := h.received
        unsent := by simp
        sent := by simp
        pending := ?_
        running := ?_
        allocated := h.allocated.trans (by decide)
        completions := hcomp
        freed := h.freed.trans (by simp [hc])
        hooked := fun fh => (hhook fh).trans (by simp)
        flag := ?_
        caller := by simp
        uncalled := by simp }
    · rw [hdata]
      exact fun hp => absurd (hp.symm.trans hidle.1) (by decide)
    · rw [hdata]
      exact fun hp => absurd (hp.symm.trans hidle.2) (by decide)
    · rw [hdata]
      simp
  · next hb =>
    have hc : c = none := not_not.mp fun hne => hb (hcaller.mpr hne)
    exact
      { queued := h.queued
        sending := iff_of_false (mt h.sending.mp (by decide)) (by decide)
        waiting := h.waiting
        received := h.received
        unsent := by simp
        sent := by simp
        pending := fun hp => absurd (hp.symm.trans hidle.1) (by decide)
        running := fun hp => absurd (hp.symm.trans hidle.2) (by decide)
        allocated := h.allocated.trans (by decide)
        completions := hcomp
        freed := by
          change (d :: a.freed).count d = _
          rw [List.count_cons_self, h.freed]
          simp [hc]
        hooked := fun fh => (hhook fh).trans (by simp)
        flag := by simp [hc]
        caller := by simp
        uncalled := by simp }

end Moves

/-! ## The length of the queue -/

/-- The queue has the length it is said to have, and room for one more when nothing is transmitting. -/
structure Sized (a : TxAdap) : Prop where
  size : a.transmitQueueSz = UInt32.ofNat a.transmitQueue.length
  room : a.transmitQueue.length + a.transmitting.toList.length ≤ 19

/-- Changes elsewhere. -/
theorem Sized.of_eq {a b : TxAdap} (h : Sized a) (hq : b.transmitQueue = a.transmitQueue)
    (hsz : b.transmitQueueSz = a.transmitQueueSz) (ht : b.transmitting = a.transmitting) : Sized b :=
  ⟨by rw [hsz, hq, h.size], by rw [hq, ht]; exact h.room⟩

/-- Changes elsewhere, and in the transmitting slot. -/
theorem Sized.of_le {a b : TxAdap} (h : Sized a) (hq : b.transmitQueue = a.transmitQueue)
    (hsz : b.transmitQueueSz = a.transmitQueueSz)
    (ht : b.transmitting = a.transmitting ∨ b.transmitting = none) : Sized b := by
  refine ⟨by rw [hsz, hq, h.size], ?_⟩
  have hroom := h.room
  rw [hq]
  rcases ht with ht | ht
  · rw [ht]
    exact hroom
  · rw [ht]
    exact Nat.le_trans (Nat.add_le_add_left (Nat.zero_le _) _) hroom

theorem ofNat_succ_sub_one (n : ℕ) : UInt32.ofNat (n + 1) - 1 = UInt32.ofNat n := by
  rw [UInt32.ofNat_add]
  exact UInt32.add_sub_cancel _ _

/-- A transmit is taken from the queue. -/
theorem Sized.erase {a : TxAdap} (h : Sized a) {d : DataPtr} (hd : d ∈ a.transmitQueue) :
    a.transmitQueueSz - 1 = UInt32.ofNat (a.transmitQueue.erase d).length ∧
      (a.transmitQueue.erase d).length + 1 = a.transmitQueue.length := by
  have hlen : (a.transmitQueue.erase d).length + 1 = a.transmitQueue.length := by
    have := List.length_pos_of_mem hd
    rw [List.length_erase_of_mem hd]
    omega
  exact ⟨by rw [h.size, ← hlen, ofNat_succ_sub_one], hlen⟩

theorem sized_cecDataCompleted {a : TxAdap} (d : DataPtr) (h : Sized a) : Sized (cecDataCompleted a d) := by
  unfold cecDataCompleted
  rw [unhook_eq]
  unfold wakeOrFree
  split
  · exact h.of_eq rfl rfl rfl
  · exact h.of_eq rfl rfl rfl

theorem sized_takeBack {a : TxAdap} {r : ℕ} {c : Option Phase} {d : DataPtr} {p : Place} (h : At a r c d p)
    (hs : Sized a) (hp : p = .queued ∨ p = .transmitting ∨ (p = .waiting ∧ Idle a d)) :
    Sized (takeBack a d) := by
  unfold takeBack
  by_cases ht : a.transmitting = some d
  · rw [if_pos ht]
    exact ⟨hs.size, Nat.le_trans (Nat.add_le_add_left (Nat.zero_le _) _) hs.room⟩
  · rw [if_neg ht]
    rcases hp with rfl | rfl | ⟨rfl, -⟩
    · have hd : d ∈ a.transmitQueue := List.count_pos_iff.mp (by rw [h.queued]; decide)
      obtain ⟨hsz, hlen⟩ := hs.erase hd
      rw [if_neg (by rw [h.unsent (Or.inl rfl)]; decide)]
      refine ⟨hsz, ?_⟩
      have := hs.room
      change (a.transmitQueue.erase d).length + a.transmitting.toList.length ≤ 19
      omega
    · exact absurd (h.sending.mpr rfl) ht
    · have hd : d ∉ a.transmitQueue := List.count_eq_zero.mp h.queued
      rw [if_pos (h.sent (Or.inl rfl))]
      exact hs.of_eq (List.erase_of_not_mem hd) rfl rfl

/-! ## Every transmit at its place -/

/-- Every transmit is at its place, with the receivers and callers there are. -/
structure Placed (a : TxAdap) (receiving : List DataPtr) (caller : DataPtr → Option Phase)
    (place : DataPtr → Place) : Prop where
  at_place : ∀ d, At a (receiving.count d) (caller d) d (place d)
  sized : Sized a
  attached : ∀ d, place d ≠ .detached
  attended : ∀ d, place d = .waiting → Attended (a.data d) (caller d)

section Sections

variable {a : TxAdap} {receiving : List DataPtr} {caller : DataPtr → Option Phase}
  {place : DataPtr → Place}

/-- Only one transmit goes to another place, or changes hands. -/
theorem Placed.change (h : Placed a receiving caller place) {b : TxAdap} {receiving' : List DataPtr}
    {caller' : DataPtr → Option Phase} {d : DataPtr} {p : Place}
    (hd : At b (receiving'.count d) (caller' d) d p)
    (hp : p ≠ .detached ∧ (p = .waiting → Attended (b.data d) (caller' d))) (hsame : ∀ e, e ≠ d → Same a b e)
    (hrcv : ∀ e, e ≠ d → receiving'.count e = receiving.count e)
    (hcaller : ∀ e, e ≠ d → caller' e = caller e) (hsized : Sized b) :
    Placed b receiving' caller' (Function.update place d p) where
  at_place := by
    intro e
    by_cases he : e = d
    · rw [he, Function.update_self]
      exact hd
    · rw [Function.update_of_ne he, hrcv e he, hcaller e he]
      exact (h.at_place e).of_same (hsame e he)
  sized := hsized
  attached := by
    intro e
    by_cases he : e = d
    · rw [he, Function.update_self]
      exact hp.1
    · rw [Function.update_of_ne he]
      exact h.attached e
  attended := by
    intro e
    by_cases he : e = d
    · rw [he, Function.update_self]
      exact hp.2
    · rw [Function.update_of_ne he, (hsame e he).data, hcaller e he]
      exact h.attended e

/-- Only one transmit goes to another place. -/
theorem Placed.update (h : Placed a receiving caller place) {b : TxAdap} {d : DataPtr} {p : Place}
    (hd : At b (receiving.count d) (caller d) d p)
    (hp : p ≠ .detached ∧ (p = .waiting → Attended (b.data d) (caller d))) (hsame : ∀ e, e ≠ d → Same a b e)
    (hsized : Sized b) : Placed b receiving caller (Function.update place d p) :=
  h.change hd hp hsame (fun _ _ => rfl) (fun _ _ => rfl) hsized

/-- A cancelled status is no other place. -/
theorem At.cancelled {r : ℕ} {c : Option Phase} {d : DataPtr} (h : At a r c d .detached) (txStatus : UInt8)
    (now : ℕ) : At (a.modify d (cancelled txStatus now)) r c d .detached := by
  have hidle := h.idle (by decide) (by decide)
  have hf : ∀ data : CecData, (Cec.cancelled txStatus now data).fh = data.fh ∧
      (Cec.cancelled txStatus now data).blocking = data.blocking ∧
      (Cec.cancelled txStatus now data).completed = data.completed ∧
      (Cec.cancelled txStatus now data).pending = data.pending ∧
      (Cec.cancelled txStatus now data).running = data.running := by
    intro data
    unfold Cec.cancelled
    split <;> exact ⟨rfl, rfl, rfl, rfl, rfl⟩
  obtain ⟨h₁, h₂, h₃, h₄, h₅⟩ := hf (a.data d)
  refine h.modify _ (fun hp => absurd rfl hp) h₁ h₂ h₃ (fun hp => ?_) (fun hr => ?_)
  · exact absurd ((h₄.symm.trans hp).symm.trans hidle.1) (by decide)
  · exact absurd ((h₅.symm.trans hr).symm.trans hidle.2) (by decide)

/-- A transmit is cancelled from the queue, the transmitting slot or, when it is idle, the wait queue. -/
theorem At.cecDataCancel {r : ℕ} {c : Option Phase} {d : DataPtr} {p : Place} (h : At a r c d p)
    (txStatus : UInt8) (now : ℕ) (hp : p = .queued ∨ p = .transmitting ∨ (p = .waiting ∧ Idle a d)) :
    At (cecDataCancel txStatus now a d) r c d .completed := by
  have hlog : At { a with cancels := d :: a.cancels } r c d p := h.of_same { Same.refl a d with }
  exact ((hlog.takeBack hp).cancelled txStatus now).completed

theorem sized_cecDataCancel {r : ℕ} {c : Option Phase} {d : DataPtr} {p : Place} (h : At a r c d p)
    (hs : Sized a) (txStatus : UInt8) (now : ℕ)
    (hp : p = .queued ∨ p = .transmitting ∨ (p = .waiting ∧ Idle a d)) :
    Sized (cecDataCancel txStatus now a d) := by
  have hlog : At { a with cancels := d :: a.cancels } r c d p := h.of_same { Same.refl a d with }
  exact sized_cecDataCompleted d ((sized_takeBack hlog (hs.of_eq rfl rfl rfl) hp).of_eq rfl rfl rfl)

/-- **A transmit is cancelled**, and the others stay. -/
theorem Placed.cecDataCancel (h : Placed a receiving caller place) (txStatus : UInt8) (now : ℕ) {d : DataPtr}
    (hp : place d = .queued ∨ place d = .transmitting ∨ (place d = .waiting ∧ Idle a d)) :
    Placed (cecDataCancel txStatus now a d) receiving caller (Function.update place d .completed) :=
  h.update ((h.at_place d).cecDataCancel txStatus now hp) ⟨by decide, nofun⟩
    (fun e he => same_cecDataCancel txStatus now a he) (sized_cecDataCancel (h.at_place d) h.sized txStatus now hp)

/-! ## Flushing -/

/-- A transmit of the queue is at its place there. -/
theorem Placed.of_mem_queue (h : Placed a receiving caller place) {d : DataPtr} (hd : d ∈ a.transmitQueue) :
    place d = .queued := by
  by_contra hne
  have := (h.at_place d).queued
  rw [if_neg hne] at this
  exact List.count_eq_zero.mp this hd

theorem Placed.of_transmitting (h : Placed a receiving caller place) {d : DataPtr}
    (hd : a.transmitting = some d) : place d = .transmitting :=
  (h.at_place d).sending.mp hd

theorem Placed.of_mem_waitQueue (h : Placed a receiving caller place) {d : DataPtr} (hd : d ∈ a.waitQueue) :
    place d = .waiting := by
  by_contra hne
  have := (h.at_place d).waiting
  rw [if_neg hne] at this
  exact List.count_eq_zero.mp this hd

/-- The wait queue holds no transmit twice. -/
theorem Placed.nodup_waitQueue (h : Placed a receiving caller place) : a.waitQueue.Nodup := by
  rw [List.nodup_iff_count_le_one]
  intro d
  rw [(h.at_place d).waiting]
  split <;> omega

theorem Placed.flushQueue (now : ℕ) (n : ℕ) (h : Placed a receiving caller place) :
    ∃ place', Placed (flushQueue now n a) receiving caller place' := by
  induction n generalizing a place with
  | zero => exact ⟨place, h⟩
  | succ n ih =>
    unfold Cec.flushQueue
    cases hq : a.transmitQueue with
    | nil => exact ⟨place, h⟩
    | cons d rest =>
      exact ih (h.cecDataCancel _ now (Or.inl (h.of_mem_queue (by rw [hq]; exact List.mem_cons_self ..))))

theorem Placed.flushTransmitting (now : ℕ) (h : Placed a receiving caller place) :
    ∃ place', Placed (flushTransmitting now a) receiving caller place' := by
  unfold Cec.flushTransmitting
  cases ht : a.transmitting with
  | none => exact ⟨place, h⟩
  | some d => exact ⟨_, h.cecDataCancel _ now (Or.inr (Or.inl (h.of_transmitting ht)))⟩

/-- The timer of a work is stopped. -/
theorem At.stopTimer {r : ℕ} {c : Option Phase} {d : DataPtr} {p : Place} (h : At a r c d p) :
    At (a.modify d fun data => { data with pending := false }) r c d p :=
  h.modify _ (fun _ _ _ => rfl) rfl rfl rfl (fun hp => absurd hp Bool.false_ne_true) h.running

/-- A transmit whose timer has been stopped in time is idle. -/
theorem At.idle_stopTimer {r : ℕ} {c : Option Phase} {d : DataPtr} {p : Place} (h : At a r c d p)
    (hp : (a.data d).pending = true) : Idle (a.modify d fun data => { data with pending := false }) d := by
  have hdata : (a.modify d fun data => { data with pending := false }).data d =
      { a.data d with pending := false } := Function.update_self ..
  unfold Idle
  rw [hdata]
  exact ⟨rfl, (h.pending hp).2⟩

theorem Placed.flushWaiting (now : ℕ) (h : Placed a receiving caller place) {d : DataPtr}
    (hd : place d = .waiting) :
    ∃ place', Placed (flushWaiting now a d) receiving caller place' ∧ ∀ e, e ≠ d → place' e = place e := by
  unfold Cec.flushWaiting
  split
  · next hp =>
    have hat := (h.at_place d).stopTimer
    have hidle : place d = .queued ∨ place d = .transmitting ∨ (place d = .waiting ∧ Idle _ d) :=
      Or.inr (Or.inr ⟨hd, (h.at_place d).idle_stopTimer hp⟩)
    exact ⟨_, h.update (hat.cecDataCancel _ now hidle) ⟨by decide, nofun⟩
      (fun e he => (same_modify a _ he).trans (same_cecDataCancel _ now _ he))
      (sized_cecDataCancel hat (h.sized.of_eq rfl rfl rfl) _ now hidle), fun e he => Function.update_of_ne he _ _⟩
  · exact ⟨place, h, fun _ _ => rfl⟩

theorem Placed.foldl_flushWaiting (now : ℕ) (l : List DataPtr) (hl : l.Nodup)
    (h : Placed a receiving caller place) (hw : ∀ d ∈ l, place d = .waiting) :
    ∃ place', Placed (l.foldl (Cec.flushWaiting now) a) receiving caller place' := by
  induction l generalizing a place with
  | nil => exact ⟨place, h⟩
  | cons d l ih =>
    obtain ⟨hd, hl⟩ := List.nodup_cons.mp hl
    obtain ⟨place', h', hkeep⟩ := h.flushWaiting now (hw d (List.mem_cons_self ..))
    refine ih hl h' fun e he => ?_
    have hne : e ≠ d := fun heq => hd (heq ▸ he)
    rw [hkeep e hne, hw e (List.mem_cons_of_mem d he)]

/-- **Flushing** leaves every transmit at a place. -/
theorem Placed.cecFlush (now : ℕ) (h : Placed a receiving caller place) :
    ∃ place', Placed (cecFlush now a) receiving caller place' := by
  obtain ⟨place₁, h₁⟩ := h.flushQueue now a.transmitQueue.length
  obtain ⟨place₂, h₂⟩ := h₁.flushTransmitting now
  exact h₂.foldl_flushWaiting now _ h₂.nodup_waitQueue fun d hd => h₂.of_mem_waitQueue hd

/-! ## The main thread and the driver -/

/-- The first transmit of the queue goes to the transmitting slot, when nothing is there. -/
theorem Placed.startTransmit (h : Placed a receiving caller place) {d : DataPtr} (hd : d ∈ a.transmitQueue)
    (ht : a.transmitting = none) :
    Placed (startTransmit a d) receiving caller (Function.update place d .transmitting) := by
  have hp := h.of_mem_queue hd
  have hat := h.at_place d
  rw [hp] at hat
  have hidle := hat.idle (by decide) (by decide)
  have hdata : ∃ n, (Cec.startTransmit a d).data d = { a.data d with attempts := n } :=
    ⟨_, Function.update_self ..⟩
  obtain ⟨n, hdata⟩ := hdata
  obtain ⟨hsz, hlen⟩ := h.sized.erase hd
  refine h.update (hat.move (by decide) (by decide) ?_ ?_ ?_) ⟨by decide, nofun⟩ (fun e he => ?_) ⟨hsz, ?_⟩
  · exact ⟨rfl, rfl, rfl, rfl, by rw [hdata], by rw [hdata], by rw [hdata]⟩
  · refine ⟨?_, by simp [Cec.startTransmit], ?_, hat.received⟩
    · exact (List.count_erase_self ..).trans (by rw [hat.queued]; rfl)
    · exact (List.count_erase_self ..).trans (by rw [hat.waiting]; rfl)
  · rw [hdata]
    exact ⟨fun _ => hat.unsent (Or.inl rfl), by simp, fun hp => absurd (hp.symm.trans hidle.1) (by decide),
      fun hr => absurd (hr.symm.trans hidle.2) (by decide)⟩
  · refine { same_listDelInit a he with sending := ?_, data := Function.update_of_ne he _ _ }
    rw [ht]
    exact iff_of_false (fun h' => he (Option.some.inj h').symm) (by simp)
  · have := h.sized.room
    rw [ht] at this
    change (a.transmitQueue.erase d).length + 1 ≤ 19
    simp at this
    omega

/-- Counters, flags and settings are no business of the transmits. -/
theorem Placed.of_fields (h : Placed a receiving caller place) {b : TxAdap} (hs : ∀ e, Same a b e)
    (hq : b.transmitQueue = a.transmitQueue) (hsz : b.transmitQueueSz = a.transmitQueueSz)
    (ht : b.transmitting = a.transmitting) : Placed b receiving caller place :=
  ⟨fun e => (h.at_place e).of_same (hs e), h.sized.of_eq hq hsz ht, h.attached,
    fun e he => (hs e).data.symm ▸ h.attended e he⟩

theorem Placed.callDriver (h : Placed a receiving caller place) (accepts : Bool) (now sft : ℕ) {d : DataPtr}
    (hd : place d = .transmitting) :
    ∃ place', Placed (callDriver accepts now sft a d) receiving caller place' := by
  unfold Cec.callDriver
  split
  · exact ⟨place, h.of_fields (fun e => { Same.refl a e with }) rfl rfl rfl⟩
  · exact ⟨_, h.cecDataCancel _ now (Or.inr (Or.inl hd))⟩

/-- The slot is free when nothing is in progress. -/
def SlotInProgress (a : TxAdap) : Prop :=
  a.transmitting ≠ none → a.transmitInProgress = true

/-- **The main thread** leaves every transmit at a place. -/
theorem Placed.cecThreadFunc (h : Placed a receiving caller place) (hslot : SlotInProgress a)
    (timeout stop accepts : Bool) (now : ℕ) :
    ∃ place', Placed (cecThreadFunc timeout stop accepts now a) receiving caller place' := by
  unfold Cec.cecThreadFunc
  split
  · exact h.cecFlush now
  · split
    · next d ht =>
      have h' : Placed { a with transmitInProgress := false, txTimeouts := a.txTimeouts + 1 }
          receiving caller place := h.of_fields (fun e => { Same.refl a e with }) rfl rfl rfl
      exact ⟨_, h'.cecDataCancel _ now (Or.inr (Or.inl (h.of_transmitting ht)))⟩
    · split
      · exact ⟨place, h⟩
      · next hprog =>
        split
        · exact ⟨place, h⟩
        · next d rest hq =>
          have ht : a.transmitting = none := by
            by_contra hne
            exact hprog (hslot hne)
          have hmem : d ∈ a.transmitQueue := by rw [hq]; exact List.mem_cons_self ..
          exact (h.startTransmit hmem ht).callDriver accepts now _ (Function.update_self ..)

/-- The place of the transmit that the driver answers for. -/
theorem Placed.answered (h : Placed a receiving caller place) {d : DataPtr} (ht : a.transmitting = some d) :
    At a (receiving.count d) (caller d) d .transmitting := by
  have hat := h.at_place d
  rwa [h.of_transmitting ht] at hat

theorem recordDone_data (t : TxDone) (a : TxAdap) (d : DataPtr) :
    (recordDone t a d).data d = { a.data d with msg := t.record (a.data d).msg } :=
  Function.update_self ..

/-- Once its status is recorded, the transmit is in nobody's hands. -/
theorem At.recordDone {r : ℕ} {c : Option Phase} {d : DataPtr} (h : At a r c d .transmitting) (t : TxDone) :
    At (recordDone t a d) r c d .detached := by
  have hidle := h.idle (by decide) (by decide)
  have hdata := recordDone_data t a d
  refine h.move (by decide) (by decide) ⟨rfl, rfl, rfl, rfl, ?_, ?_, ?_⟩
    ⟨h.queued, iff_of_false (by simp [Cec.recordDone, TxAdap.modify]) (by decide), h.waiting, h.received⟩ ?_
  · rw [hdata]
  · rw [hdata]
  · rw [hdata]
  · refine Idle.ready ⟨?_, ?_⟩
    · rw [hdata]
      exact hidle.1
    · rw [hdata]
      exact hidle.2

theorem same_recordDone (t : TxDone) {d e : DataPtr} (ht : a.transmitting = some d) (hne : e ≠ d) :
    Same a (recordDone t a d) e := by
  have hslot : Same a { a with transmitInProgress := false, transmitting := none } e := by
    refine { Same.refl a e with sending := ?_ }
    rw [ht]
    exact iff_of_false (by simp) fun h => hne (Option.some.inj h).symm
  exact hslot.trans (same_modify _ _ hne)

/-- The transmit that is not tried again. -/
theorem At.finishDone {r : ℕ} {c : Option Phase} {d : DataPtr} (h : At a r c d .transmitting) (t : TxDone) :
    At (finishDone t a d) r c d .detached := by
  have hrec := h.recordDone t
  have hidle := hrec.idle (by decide) (by decide)
  refine hrec.modify _ (fun hp => absurd rfl hp) rfl rfl rfl (fun hp => ?_) (fun hr => ?_)
  · exact absurd (hp.symm.trans hidle.1) (by decide)
  · exact absurd (hr.symm.trans hidle.2) (by decide)

theorem same_finishDone (t : TxDone) {d e : DataPtr} (ht : a.transmitting = some d) (hne : e ≠ d) :
    Same a (finishDone t a d) e :=
  (same_recordDone t ht hne).trans (same_modify _ _ hne)

/-- The message goes back to the queue. -/
theorem Placed.retry (h : Placed a receiving caller place) {d : DataPtr} (ht : a.transmitting = some d)
    {t : TxDone} (hok : t.status &&& CEC_TX_STATUS_OK = 0) :
    Placed (retry t (recordDone t a d) d) receiving caller (Function.update place d .queued) := by
  have hat := h.answered ht
  have hrec := hat.recordDone t
  have hidle := hrec.idle (by decide) (by decide)
  have hrecord : ((recordDone t a d).data d).msg = t.record (a.data d).msg :=
    congrArg CecData.msg (recordDone_data t a d)
  obtain ⟨n, hdata⟩ : ∃ n, (Cec.retry t (recordDone t a d) d).data d =
      { (recordDone t a d).data d with attempts := n } := ⟨_, Function.update_self ..⟩
  have hq : d ∉ a.transmitQueue := List.count_eq_zero.mp hat.queued
  refine h.update (hrec.move (by decide) (by decide) ⟨rfl, rfl, rfl, rfl, ?_, ?_, ?_⟩ ?_ ?_) ⟨by decide, nofun⟩
    (fun e he => (same_recordDone t ht he).trans ?_) ⟨?_, ?_⟩
  · rw [hdata]
  · rw [hdata]
  · rw [hdata]
  · refine ⟨?_, iff_of_false (mt hrec.sending.mp (by decide)) (by decide), hat.waiting, hat.received⟩
    change (d :: a.transmitQueue).count d = 1
    rw [List.count_cons_self, List.count_eq_zero.mpr hq]
  · rw [hdata]
    refine ⟨fun _ => ?_, by simp, fun hp => absurd (hp.symm.trans hidle.1) (by decide),
      fun hr => absurd (hr.symm.trans hidle.2) (by decide)⟩
    change txOk ((recordDone t a d).data d).msg = false
    rw [hrecord]
    exact TxDone.txOk_record_eq_false (hat.unsent (Or.inr rfl)) hok
  · exact { same_modify (recordDone t a d) (fun data => { data with attempts := data.attempts - t.attemptsMade })
      he with queued := List.count_cons_of_ne he.symm }
  · change a.transmitQueueSz + 1 = UInt32.ofNat (a.transmitQueue.length + 1)
    rw [h.sized.size, UInt32.ofNat_add]
    rfl
  · have hroom := h.sized.room
    rw [ht] at hroom
    exact hroom

/-- The message waits for its reply. -/
theorem Placed.awaitReply (h : Placed a receiving caller place) {d : DataPtr} (ht : a.transmitting = some d)
    {t : TxDone} (hok : t.status &&& CEC_TX_STATUS_OK ≠ 0) :
    Placed (awaitReply (finishDone t a d) d) receiving caller (Function.update place d .waiting) := by
  have hat := h.answered ht
  have hfin := hat.finishDone t
  have hidle := hfin.idle (by decide) (by decide)
  have hrecord : ((finishDone t a d).data d).msg = t.record (a.data d).msg := by
    have htry : (Cec.finishDone t a d).data d = doneTrying t ((recordDone t a d).data d) :=
      Function.update_self ..
    rw [htry]
    exact (if_neg hok).trans (congrArg CecData.msg (recordDone_data t a d))
  have hdata : (Cec.awaitReply (finishDone t a d) d).data d =
      { (finishDone t a d).data d with pending := true } := Function.update_self ..
  have hw : d ∉ a.waitQueue := List.count_eq_zero.mp hat.waiting
  refine h.update (hfin.move (by decide) (by decide) ⟨rfl, rfl, rfl, rfl, ?_, ?_, ?_⟩ ?_ ?_)
    ⟨by decide, fun _ => .inl (by rw [hdata])⟩
    (fun e he => (same_finishDone t ht he).trans ?_) (h.sized.of_le rfl rfl (Or.inr rfl))
  · rw [hdata]
  · rw [hdata]
  · rw [hdata]
  · refine ⟨hat.queued, iff_of_false (mt hfin.sending.mp (by decide)) (by decide), ?_, hat.received⟩
    change (a.waitQueue ++ [d]).count d = 1
    rw [List.count_append, List.count_eq_zero.mpr hw, List.count_singleton_self]
  · rw [hdata]
    refine ⟨by simp, fun _ => ?_, fun _ => ⟨rfl, hidle.2⟩, fun _ => Or.inl rfl⟩
    change txOk ((finishDone t a d).data d).msg = true
    rw [hrecord]
    exact TxDone.txOk_record_eq_true _ hok
  · refine { same_modify (finishDone t a d) (fun data => { data with pending := true }) he with waiting := ?_ }
    change (a.waitQueue ++ [d]).count e = a.waitQueue.count e
    rw [List.count_append, List.count_singleton, if_neg (by simpa using he.symm), Nat.add_zero]

/-- **The driver's answer** leaves every transmit at a place. -/
theorem Placed.cecTransmitDoneTs (h : Placed a receiving caller place) (t : TxDone) :
    ∃ place', Placed (cecTransmitDoneTs t a) receiving caller place' := by
  unfold Cec.cecTransmitDoneTs
  split
  · exact ⟨place, h.of_fields (fun e => { Same.refl a e with }) rfl rfl rfl⟩
  · next d ht =>
    split
    · next hretry =>
      have hok : t.status &&& CEC_TX_STATUS_OK = 0 := by
        have := hretry.2
        rw [land_or, UInt8.or_eq_zero_iff] at this
        exact this.2
      exact ⟨_, h.retry ht hok⟩
    · split
      · next hwait => exact ⟨_, h.awaitReply ht hwait.1⟩
      · refine ⟨_, h.update ((h.answered ht).finishDone t).completed ⟨by decide, nofun⟩
          (fun e he => (same_finishDone t ht he).trans (same_cecDataCompleted _ he)) ?_⟩
        exact sized_cecDataCompleted d (h.sized.of_le rfl rfl (Or.inr rfl))

/-! ## Timeouts -/

/-- An idle transmit is taken from the wait queue. -/
theorem At.delWaiting {r : ℕ} {c : Option Phase} {d : DataPtr} (h : At a r c d .waiting) (hidle : Idle a d) :
    At (a.listDelInit d) r c d .detached := by
  refine h.move (by decide) (by decide) ⟨rfl, rfl, rfl, rfl, rfl, rfl, rfl⟩
    ⟨?_, iff_of_false (mt h.sending.mp (by decide)) (by decide), ?_, h.received⟩ (Idle.ready hidle)
  · exact (List.count_erase_self ..).trans (by rw [h.queued]; rfl)
  · exact (List.count_erase_self ..).trans (by rw [h.waiting]; rfl)

/-- What is not in the queue is not taken from it. -/
theorem Sized.listDelInit (h : Sized a) {d : DataPtr} (hd : d ∉ a.transmitQueue) : Sized (a.listDelInit d) :=
  h.of_eq (List.erase_of_not_mem hd) rfl rfl

/-- The timeout work has its turn. -/
theorem Placed.cecWaitTimeout (h : Placed a receiving caller place) (now : ℕ) {d : DataPtr}
    (hrun : (a.data d).running = true) :
    ∃ place', Placed (cecWaitTimeout now a d) receiving caller place' := by
  have hat := h.at_place d
  have hpend : (a.data d).pending = false := by
    refine Bool.eq_false_iff.mpr fun hp => ?_
    exact absurd (hrun.symm.trans (hat.pending hp).2) (by decide)
  have hstop : At (a.modify d fun data => { data with running := false }) (receiving.count d) (caller d) d
      (place d) := by
    refine hat.modify _ (fun _ _ _ => rfl) rfl rfl rfl (fun hp => ?_) fun hr => absurd hr Bool.false_ne_true
    exact absurd (hp.symm.trans hpend) (by decide)
  have hidle : Idle (a.modify d fun data => { data with running := false }) d := by
    have hdata : (a.modify d fun data => { data with running := false }).data d =
        { a.data d with running := false } := Function.update_self ..
    unfold Idle
    rw [hdata]
    exact ⟨hpend, rfl⟩
  have hsame : ∀ e, e ≠ d → Same a (a.modify d fun data => { data with running := false }) e :=
    fun e he => same_modify a _ he
  have hsized : Sized (a.modify d fun data => { data with running := false }) := h.sized.of_eq rfl rfl rfl
  unfold Cec.cecWaitTimeout
  dsimp only
  generalize (a.modify d fun data => { data with running := false }) = b at *
  split
  · next hlist =>
    have hw : place d = .waiting := by
      rcases hat.running hrun with h' | h'
      · exact h'
      · rw [h'] at hstop
        rcases hlist with hq | hw
        · exact absurd hq (List.count_eq_zero.mp hstop.queued)
        · exact absurd hw (List.count_eq_zero.mp hstop.waiting)
    rw [hw] at hstop
    have hdel := hstop.delWaiting hidle
    have hdone : At ((b.listDelInit d).modify d (timedOut now)) (receiving.count d) (caller d) d .detached :=
      hdel.modify _ (fun hp => absurd rfl hp) rfl rfl rfl
        (fun hp => absurd (hp.symm.trans hidle.1) (by decide))
        (fun hr => absurd (hr.symm.trans hidle.2) (by decide))
    refine ⟨_, h.update hdone.completed ⟨by decide, nofun⟩ (fun e he => (hsame e he).trans
      ((same_listDelInit b he).trans ((same_modify _ _ he).trans (same_cecDataCompleted _ he))))
      (sized_cecDataCompleted d ?_)⟩
    exact (hsized.listDelInit (List.count_eq_zero.mp hstop.queued)).of_eq rfl rfl rfl
  · next hlist =>
    refine ⟨_, h.update hstop ⟨h.attached d, fun hw => absurd (Or.inr ?_) hlist⟩ hsame hsized⟩
    rw [hw] at hstop
    exact List.count_pos_iff.mp (by rw [hstop.waiting]; decide)

/-! ## Callers -/

/-- A caller frees its transmit, which has been completed. -/
theorem At.kfree {r : ℕ} {c : Option Phase} {d : DataPtr} (h : At a r c d .completed) (hc : c ≠ none) :
    At (a.kfree d) r none d .completed where
  toHolds := ⟨h.queued, h.sending, h.waiting, h.received⟩
  toReady := h.toReady
  allocated := h.allocated
  completions := h.completions
  freed := by
    change (d :: a.freed).count d = _
    rw [List.count_cons_self, h.freed, if_neg fun h => hc h.2, if_pos ⟨rfl, rfl⟩]
  hooked := h.hooked
  flag := by simp
  caller := by simp
  uncalled := by simp

/-- How far a caller is does not matter. -/
theorem At.caller_ne {r : ℕ} {c c' : Option Phase} {d : DataPtr} {p : Place} (h : At a r c d p) (hc : c ≠ none)
    (hc' : c' ≠ none) : At a r c' d p :=
  { h with
    freed := by
      rw [h.freed, if_neg fun h' => hc h'.2, if_neg fun h' => hc' h'.2]
    flag := fun hp _ => h.flag hp (Or.inr hc)
    caller := fun hp hp' => (h.caller hp hp').trans (iff_of_true hc hc')
    uncalled := fun hp => absurd (h.uncalled hp) hc }

/-- A caller goes on. -/
theorem Placed.callerGoes (h : Placed a receiving caller place) {d : DataPtr} {c : Phase}
    (hc : caller d = some .waiting) : Placed a receiving (Function.update caller d (some c)) place := by
  have hne : caller d ≠ none := by rw [hc]; exact Option.some_ne_none _
  have hd : At a (receiving.count d) (Function.update caller d (some c) d) d (place d) := by
    rw [Function.update_self]
    exact (h.at_place d).caller_ne hne (Option.some_ne_none c)
  have hch := h.change hd ⟨h.attached d, fun hw => ?_⟩ (fun e _ => Same.refl a e) (fun _ _ => rfl)
    (fun e he => Function.update_of_ne he _ _) h.sized
  · rwa [Function.update_eq_self] at hch
  · rcases h.attended d hw with hp | hr | hrelock
    · exact .inl hp
    · exact .inr (.inl hr)
    · exact absurd (hc.symm.trans hrelock) (by decide)

/-- A caller has cancelled the work, and will take the lock. -/
theorem Placed.cancelSync (h : Placed a receiving caller place) {d : DataPtr} (hc : caller d ≠ none) :
    Placed (a.modify d fun data => { data with pending := false }) receiving
      (Function.update caller d (some .relocking)) place := by
  have hd : At (a.modify d fun data => { data with pending := false }) (receiving.count d)
      (Function.update caller d (some .relocking) d) d (place d) := by
    rw [Function.update_self]
    exact (h.at_place d).stopTimer.caller_ne hc (Option.some_ne_none _)
  have hch := h.change hd ⟨h.attached d, fun _ => .inr (.inr (Function.update_self ..))⟩
    (fun e he => same_modify a _ he) (fun _ _ => rfl) (fun e he => Function.update_of_ne he _ _)
    (h.sized.of_eq rfl rfl rfl)
  rwa [Function.update_eq_self] at hch

/-- **A caller gets the lock again**, and frees its transmit. -/
theorem Placed.cecTransmitFinish (h : Placed a receiving caller place) (now : ℕ) {d : DataPtr}
    (hc : caller d ≠ none) (hrcv : d ∉ receiving) (hidle : Idle a d) :
    Placed (cecTransmitFinish now a d) receiving (Function.update caller d none)
      (Function.update place d .completed) := by
  have hat := h.at_place d
  have hfresh : place d ≠ .fresh := fun hp => hc (hat.uncalled hp)
  have hfree : ∀ b : TxAdap, At b (receiving.count d) (caller d) d .completed → (∀ e, e ≠ d → Same a b e) →
      Sized b → Placed (b.kfree d) receiving (Function.update caller d none)
        (Function.update place d .completed) := by
    intro b hb hsame hsized
    refine h.change ?_ ⟨by decide, nofun⟩ (fun e he => (hsame e he).trans (same_kfree b he)) (fun _ _ => rfl)
      (fun e he => Function.update_of_ne he _ _) (hsized.of_eq rfl rfl rfl)
    rw [Function.update_self]
    exact hb.kfree hc
  unfold Cec.cecTransmitFinish
  split
  · next hdone =>
    have hp : place d = .completed := (hat.flag hfresh (Or.inr hc)).mp hdone
    rw [hp] at hat
    exact hfree a hat (fun e _ => Same.refl a e) h.sized
  · next hopen =>
    have hp : place d ≠ .completed := mt (hat.flag hfresh (Or.inr hc)).mpr hopen
    have hplace : place d = .queued ∨ place d = .transmitting ∨ (place d = .waiting ∧ Idle a d) := by
      have hdet := h.attached d
      have hrec : place d ≠ .received := fun hp => by
        have := hat.received
        rw [hp, List.count_eq_zero.mpr hrcv] at this
        exact absurd this (by decide)
      cases hpl : place d with
      | fresh => exact absurd hpl hfresh
      | queued => exact Or.inl rfl
      | transmitting => exact Or.inr (Or.inl rfl)
      | waiting => exact Or.inr (Or.inr ⟨rfl, hidle⟩)
      | received => exact absurd hpl hrec
      | detached => exact absurd hpl hdet
      | completed => exact absurd hpl hp
    have hcancel := h.cecDataCancel CEC_TX_STATUS_ABORTED now hplace
    have hb := hcancel.at_place d
    rw [Function.update_self] at hb
    exact hfree _ hb (fun e he => same_cecDataCancel _ now a he) hcancel.sized

/-! ## New transmits -/

theorem same_enqueue (msg : CecMsg) (fh : Option Fh) (block : Bool) {e : DataPtr} (hne : e ≠ a.allocated) :
    Same a (enqueue a msg fh block) e where
  allocated := by
    change e < a.allocated + 1 ↔ e < a.allocated
    rw [Nat.lt_succ_iff_lt_or_eq]
    exact ⟨fun h => h.resolve_right hne, Or.inl⟩
  queued := by
    change (a.transmitQueue ++ [a.allocated]).count e = _
    rw [List.count_append, List.count_singleton, if_neg (by simpa using hne.symm), Nat.add_zero]
  sending := Iff.rfl
  waiting := rfl
  completions := rfl
  freed := rfl
  data := Function.update_of_ne hne _ _
  hooked := by
    intro f
    unfold enqueue
    cases fh with
    | none => rfl
    | some fh =>
      change List.count e (Function.update a.xferList fh (a.xferList fh ++ [a.allocated]) f) = _
      by_cases hf : f = fh
      · rw [hf, Function.update_self, List.count_append, List.count_singleton,
          if_neg (by simpa using hne.symm), Nat.add_zero]
      · rw [Function.update_of_ne hf]

/-- The new transmit is queued. -/
theorem At.enqueue {r : ℕ} (h : At a r none a.allocated .fresh) {msg : CecMsg} (hmsg : msg.txStatus = 0)
    (fh : Option Fh) (block : Bool) {c : Option Phase} (hc : block = true ↔ c ≠ none) :
    At (enqueue a msg fh block) r c a.allocated .queued := by
  have hdata : (Cec.enqueue a msg fh block).data a.allocated = ⟨msg, fh, 0, block, false, false, false⟩ :=
    Function.update_self ..
  refine
    { queued := ?_, sending := iff_of_false (mt h.sending.mp (by decide)) (by decide), waiting := h.waiting
      received := h.received, unsent := ?_, sent := by simp, pending := ?_, running := ?_
      allocated := iff_of_true (Nat.lt_succ_self _) (by decide), completions := h.completions
      freed := h.freed.trans (by simp), hooked := ?_, flag := ?_, caller := ?_, uncalled := by simp }
  · change (a.transmitQueue ++ [a.allocated]).count a.allocated = 1
    rw [List.count_append, h.queued, List.count_singleton_self]
    rfl
  · rw [hdata]
    intro _
    rw [txOk_eq_false, hmsg]
    rfl
  · rw [hdata]
    simp
  · rw [hdata]
    simp
  · intro f
    rw [hdata]
    have hold : (a.xferList f).count a.allocated = 0 := (h.hooked f).trans (by simp)
    unfold Cec.enqueue
    cases fh with
    | none =>
      change (a.xferList f).count a.allocated = _
      rw [hold]
      simp
    | some fh =>
      change List.count a.allocated (Function.update a.xferList fh (a.xferList fh ++ [a.allocated]) f) = _
      by_cases hf : f = fh
      · rw [hf] at hold ⊢
        rw [Function.update_self, List.count_append, hold, List.count_singleton_self]
        simp
      · rw [Function.update_of_ne hf, hold, if_neg fun h' => hf (Option.some.inj h'.1).symm]
  · intro _ _
    rw [hdata]
    simp
  · intro _ _
    rw [hdata]
    exact hc

/-- A transmit that has not been allocated is at no place. -/
theorem Placed.fresh (h : Placed a receiving caller place) : place a.allocated = .fresh := by
  by_contra hp
  exact Nat.lt_irrefl _ ((h.at_place a.allocated).allocated.mpr hp)

/-- **A message is queued** where there is room for it. -/
theorem Placed.enqueue (h : Placed a receiving caller place) (hroom : a.transmitQueueSz < CEC_MAX_MSG_TX_QUEUE_SZ)
    {msg : CecMsg} (hmsg : msg.txStatus = 0) (fh : Option Fh) (block : Bool) {caller' : DataPtr → Option Phase}
    (hc : block = true ↔ caller' a.allocated ≠ none) (hcaller : ∀ e, e ≠ a.allocated → caller' e = caller e) :
    Placed (enqueue a msg fh block) receiving caller' (Function.update place a.allocated .queued) := by
  have hat := h.at_place a.allocated
  rw [h.fresh] at hat
  rw [hat.uncalled rfl] at hat
  refine h.change (hat.enqueue hmsg fh block hc) ⟨by decide, nofun⟩ (fun e he => same_enqueue msg fh block he)
    (fun _ _ => rfl) hcaller ⟨?_, ?_⟩
  · change a.transmitQueueSz + 1 = UInt32.ofNat (a.transmitQueue ++ [a.allocated]).length
    rw [h.sized.size, List.length_append, UInt32.ofNat_add]
    rfl
  · change (a.transmitQueue ++ [a.allocated]).length + a.transmitting.toList.length ≤ 19
    have hlen : a.transmitQueue.length < 18 := by
      have hbound := h.sized.room
      have hlt : a.transmitQueue.length < 2 ^ 32 := by omega
      rw [h.sized.size, UInt32.lt_iff_toNat_lt, UInt32.toNat_ofNat', Nat.mod_eq_of_lt hlt] at hroom
      exact hroom
    have hslot : a.transmitting.toList.length ≤ 1 := by cases a.transmitting <;> simp
    rw [List.length_append, List.length_singleton]
    omega

/-! ## Replies -/

/-- The rewritten transmit has the status of the one that waits. -/
def SameStatus (a : TxAdap) (w : WaitingData) : Prop :=
  w.msg.txStatus = (a.data w.ptr).msg.txStatus

theorem txOk_congr {m m' : CecMsg} (h : m.txStatus = m'.txStatus) : txOk m = txOk m' := by
  unfold txOk
  rw [h]

/-- Writing back a transmit leaves the statuses. -/
theorem writeBack_txStatus {w : WaitingData} (hw : SameStatus a w) (d : DataPtr) :
    ((writeBack a w).data d).msg.txStatus = (a.data d).msg.txStatus := by
  change (Function.update a.data w.ptr { a.data w.ptr with msg := w.msg } d).msg.txStatus = _
  by_cases hd : d = w.ptr
  · rw [hd, Function.update_self]
    exact hw
  · rw [Function.update_of_ne hd]

theorem Placed.writeBack (h : Placed a receiving caller place) {w : WaitingData} (hw : SameStatus a w) :
    Placed (writeBack a w) receiving caller place := by
  have hat := h.at_place w.ptr
  have hd : At (a.modify w.ptr fun data => { data with msg := w.msg }) (receiving.count w.ptr) (caller w.ptr)
      w.ptr (place w.ptr) :=
    hat.modify _ (fun _ _ _ => txOk_congr hw) rfl rfl rfl hat.pending hat.running
  have hdata : (a.modify w.ptr fun data => { data with msg := w.msg }).data w.ptr =
      { a.data w.ptr with msg := w.msg } := Function.update_self ..
  have hup := h.update hd ⟨h.attached _, fun hw => ?_⟩ (fun e he => same_modify a _ he) (h.sized.of_eq rfl rfl rfl)
  · rwa [Function.update_eq_self] at hup
  · have hold := h.attended _ hw
    unfold Attended
    rw [hdata]
    exact hold

/-- The wait queue is written back. -/
theorem Placed.foldl_writeBack (h : Placed a receiving caller place) {l : List WaitingData}
    (hl : ∀ w ∈ l, SameStatus a w) :
    Placed (l.foldl Cec.writeBack a) receiving caller place ∧ (l.foldl Cec.writeBack a).waitQueue = a.waitQueue ∧
      ∀ d, ((l.foldl Cec.writeBack a).data d).msg.txStatus = (a.data d).msg.txStatus := by
  induction l generalizing a with
  | nil => exact ⟨h, rfl, fun _ => rfl⟩
  | cons w l ih =>
    have hw := hl w (List.mem_cons_self ..)
    have hkeep := writeBack_txStatus hw
    obtain ⟨hp, hq, hs⟩ := ih (h.writeBack hw)
      fun v hv => (hl v (List.mem_cons_of_mem w hv)).trans (hkeep v.ptr).symm
    exact ⟨hp, hq, fun d => (hs d).trans (hkeep d)⟩

/-- An answered transmit that has no work scheduled is left with the receiver. -/
theorem At.receive {r : ℕ} {c : Option Phase} {d : DataPtr} (h : At a r c d .waiting)
    (hpend : (a.data d).pending = false) : At (a.listDelInit d) (r + 1) c d .received := by
  have hr : r = 0 := h.toHolds.received
  refine h.move (by decide) (by decide) ⟨rfl, rfl, rfl, rfl, rfl, rfl, rfl⟩
    ⟨?_, iff_of_false (mt h.sending.mp (by decide)) (by decide), ?_, by rw [hr]; rfl⟩ ⟨by simp, ?_, ?_, ?_⟩
  · exact (List.count_erase_self ..).trans (by rw [h.queued]; rfl)
  · exact (List.count_erase_self ..).trans (by rw [h.waiting]; rfl)
  · exact fun _ => h.sent (Or.inl rfl)
  · exact fun hp => absurd (hp.symm.trans hpend) (by decide)
  · exact fun _ => Or.inr rfl

/-- **A transmit that got its reply** is completed, or left with the receiver. -/
theorem Placed.takeReply (h : Placed a receiving caller place) {w : WaitingData} (hw : SameStatus a w)
    (hmem : w.ptr ∈ a.waitQueue) :
    ∃ place', Placed (takeReply a w).1 ((takeReply a w).2.elim receiving (· :: receiving)) caller place' := by
  have hplace := h.of_mem_waitQueue hmem
  have h' := h.writeBack hw
  have hat := h'.at_place w.ptr
  rw [hplace] at hat
  have hq : w.ptr ∉ (Cec.writeBack a w).transmitQueue := List.count_eq_zero.mp hat.queued
  have hdata : (Cec.writeBack a w).data w.ptr = { a.data w.ptr with msg := w.msg } := Function.update_self ..
  unfold Cec.takeReply
  dsimp only
  split
  · next hpend =>
    have hidle := hat.idle_stopTimer (by rw [hdata]; exact hpend)
    have hdel := hat.stopTimer.delWaiting hidle
    have hsame : ∀ e, e ≠ w.ptr → Same (Cec.writeBack a w)
        (((Cec.writeBack a w).modify w.ptr fun data => { data with pending := false }).listDelInit w.ptr) e :=
      fun e he => (same_modify _ _ he).trans (same_listDelInit _ he)
    have hsized : Sized (((Cec.writeBack a w).modify w.ptr fun data =>
        { data with pending := false }).listDelInit w.ptr) := (h'.sized.listDelInit hq).of_eq rfl rfl rfl
    exact ⟨_, h'.update hdel.completed ⟨by decide, nofun⟩
      (fun e he => (hsame e he).trans (same_cecDataCompleted _ he)) (sized_cecDataCompleted _ hsized)⟩
  · next hpend =>
    have hrec : At ((Cec.writeBack a w).listDelInit w.ptr) ((w.ptr :: receiving).count w.ptr) (caller w.ptr)
        w.ptr .received := by
      rw [List.count_cons_self]
      exact hat.receive (by rw [hdata]; exact Bool.eq_false_iff.mpr hpend)
    exact ⟨_, h'.change hrec ⟨by decide, nofun⟩ (fun e he => same_listDelInit _ he)
      (fun e he => List.count_cons_of_ne he.symm) (fun _ _ => rfl) (h'.sized.listDelInit hq)⟩

/-- A transmit that waits on has its status. -/
theorem sameStatus_of_waitsOn {l m : List WaitingData} (hl : ∀ e ∈ l, SameStatus a e)
    (h : List.Forall₂ WaitsOn l m) : ∀ w ∈ m, SameStatus a w := by
  induction h with
  | nil => exact fun w hw => absurd hw List.not_mem_nil
  | @cons e e' l m hw _ ih =>
    intro w hmem
    rcases List.mem_cons.mp hmem with rfl | hmem
    · obtain ⟨hptr, -, hmsg⟩ := hw
      unfold SameStatus
      rw [hptr, hmsg]
      exact hl e (List.mem_cons_self ..)
    · exact ih (fun e he => hl e (List.mem_cons_of_mem _ he)) w hmem

/-- The transmits that wait, as they are. -/
theorem sameStatus_waitingData (a : TxAdap) (l : List DataPtr) :
    ∀ e ∈ l.map (waitingData a), SameStatus a e := by
  intro e he
  obtain ⟨d, -, rfl⟩ := List.mem_map.mp he
  rfl

/-- **A received message** leaves every transmit at a place. -/
theorem Placed.cecReceivedSection (h : Placed a receiving caller place) (msg : CecMsg) (ts : ℕ) :
    ∃ place', Placed (cecReceivedSection msg ts a).1
      ((cecReceivedSection msg ts a).2.elim receiving (· :: receiving)) caller place' := by
  have hold := sameStatus_waitingData a a.waitQueue
  have hlog : Placed { a with lastInitiator := (cecReceivedMsgTs (rxAdap a) msg ts).adap.lastInitiator }
      receiving caller place := h.of_fields (fun e => { Same.refl a e with }) rfl rfl rfl
  unfold Cec.cecReceivedSection
  dsimp only
  rcases cecReceivedMsgTs_cases (rxAdap a) msg ts with
    ⟨-, hdone, hqueue⟩ | ⟨before, d, after, data, -, ⟨hsplit, -, -⟩, hdone, hholds, hqueue⟩
  · rw [hdone]
    exact ⟨place, (hlog.foldl_writeBack (sameStatus_of_waitsOn hold hqueue)).1⟩
  · rw [hdone]
    have hsub : ∀ e ∈ before ++ after, SameStatus a e := by
      intro e he
      refine hold e ?_
      change e ∈ (rxAdap a).waitQueue
      rw [hsplit]
      rcases List.mem_append.mp he with he | he
      · exact List.mem_append_left _ he
      · exact List.mem_append_right _ (List.mem_cons_of_mem d he)
    obtain ⟨hp, hq, hs⟩ := hlog.foldl_writeBack (sameStatus_of_waitsOn hsub hqueue)
    obtain ⟨d', hd', rfl⟩ : ∃ d' ∈ a.waitQueue, waitingData a d' = d := by
      refine List.mem_map.mp ?_
      change d ∈ (rxAdap a).waitQueue
      rw [hsplit]
      exact List.mem_append_right _ (List.mem_cons_self ..)
    obtain ⟨hptr, -, -, -, -, hstatus, -⟩ := hholds
    have hptr' : data.ptr = d' := hptr
    refine hp.takeReply ?_ ?_
    · unfold SameStatus
      rw [hs, hptr']
      exact hstatus
    · rw [hq, hptr']
      exact hd'

/-- The receiver takes the lock again, once the work has run. -/
theorem Placed.flushed (h : Placed a receiving caller place) {d : DataPtr} (hd : d ∈ receiving)
    (hrun : (a.data d).running = false) :
    Placed (cecDataCompleted a d) (receiving.erase d) caller (Function.update place d .completed) := by
  have hat := h.at_place d
  have hplace : place d = .received := by
    by_contra hne
    have := hat.received
    rw [if_neg hne] at this
    exact List.count_eq_zero.mp this hd
  rw [hplace] at hat
  have hidle : Idle a d := ⟨Bool.eq_false_iff.mpr fun hp => absurd (hat.pending hp).1 (by decide), hrun⟩
  have hone : receiving.count d = 1 := hat.toHolds.received
  have hdet : At a ((receiving.erase d).count d) (caller d) d .detached := by
    rw [List.count_erase_self, hone]
    exact hat.move (by decide) (by decide) ⟨rfl, rfl, rfl, rfl, rfl, rfl, rfl⟩
      ⟨hat.queued, iff_of_false (mt hat.sending.mp (by decide)) (by decide), hat.waiting, rfl⟩ hidle.ready
  exact h.change hdet.completed ⟨by decide, nofun⟩ (fun e he => same_cecDataCompleted a he)
    (fun e he => List.count_erase_of_ne he) (fun _ _ => rfl) (sized_cecDataCompleted d h.sized)

/-- The timer of a work goes off. -/
theorem Placed.startWork (h : Placed a receiving caller place) {d : DataPtr} (hd : (a.data d).pending = true) :
    Placed (a.modify d fun data => { data with pending := false, running := true }) receiving caller place := by
  have hat := h.at_place d
  have hmod : At (a.modify d fun data => { data with pending := false, running := true }) (receiving.count d)
      (caller d) d (place d) :=
    hat.modify _ (fun _ _ _ => rfl) rfl rfl rfl (fun hp => absurd hp Bool.false_ne_true)
      fun _ => Or.inl (hat.pending hd).1
  have hdata : (a.modify d fun data => { data with pending := false, running := true }).data d =
      { a.data d with pending := false, running := true } := Function.update_self ..
  have hup := h.update hmod ⟨h.attached d, fun _ => .inr (.inl (by rw [hdata]))⟩ (fun e he => same_modify a _ he)
    (h.sized.of_eq rfl rfl rfl)
  rwa [Function.update_eq_self] at hup

/-! ## Closing a file handle -/

theorem same_unhookReleased (fh : Fh) (a : TxAdap) {d e : DataPtr} (hne : e ≠ d) :
    Same a (unhookReleased fh a d) e :=
  (same_modify a _ hne).trans (same_listDelXfer _ fh hne)

/-- A transmit on the list of a file handle belongs to it. -/
theorem At.of_mem_xferList {r : ℕ} {c : Option Phase} {d : DataPtr} {p : Place} (h : At a r c d p) {fh : Fh}
    (hd : d ∈ a.xferList fh) : (a.data d).fh = some fh ∧ p ≠ .fresh ∧ p ≠ .completed := by
  by_contra hne
  have hcount := h.hooked fh
  rw [if_neg hne] at hcount
  exact List.count_eq_zero.mp hcount hd

/-- A transmit that nobody waits for is unhooked from its file handle. -/
theorem Placed.unhookReleased (h : Placed a receiving caller place) {fh : Fh} {d : DataPtr}
    (hd : d ∈ a.xferList fh) (hc : caller d = none) :
    Placed (unhookReleased fh a d) receiving caller place := by
  have hat := h.at_place d
  obtain ⟨hfh, hfresh, hcomp⟩ := hat.of_mem_xferList hd
  have hdata : (Cec.unhookReleased fh a d).data d = { a.data d with blocking := false, fh := none } :=
    Function.update_self ..
  have hout : At (Cec.unhookReleased fh a d) (receiving.count d) (caller d) d (place d) :=
    { queued := hat.queued
      sending := hat.sending
      waiting := hat.waiting
      received := hat.toHolds.received
      unsent := by rw [hdata]; exact hat.unsent
      sent := by rw [hdata]; exact hat.sent
      pending := by rw [hdata]; exact hat.pending
      running := by rw [hdata]; exact hat.running
      allocated := hat.allocated
      completions := hat.completions
      freed := hat.freed
      hooked := by
        intro fh'
        rw [hdata]
        change List.count d (Function.update a.xferList fh ((a.xferList fh).erase d) fh') = 0
        by_cases hfh' : fh' = fh
        · rw [hfh', Function.update_self, List.count_erase_self, hat.hooked fh, if_pos ⟨hfh, hfresh, hcomp⟩]
        · rw [Function.update_of_ne hfh', hat.hooked fh', hfh,
            if_neg fun h' => hfh' (Option.some.inj h'.1).symm]
      flag := by rw [hdata]; exact hat.flag
      caller := fun _ _ => by
        rw [hdata, hc]
        simp
      uncalled := hat.uncalled }
  have hup := h.update hout ⟨h.attached d, fun hw => ?_⟩ (fun e he => same_unhookReleased fh a he)
    (h.sized.of_eq rfl rfl rfl)
  · rwa [Function.update_eq_self] at hup
  · have hold := h.attended d hw
    unfold Attended
    rw [hdata]
    exact hold

theorem Placed.foldl_unhookReleased (h : Placed a receiving caller place) {fh : Fh} {l : List DataPtr}
    (hl : l.Nodup) (hmem : ∀ d ∈ l, d ∈ a.xferList fh) (hc : ∀ d ∈ l, caller d = none) :
    Placed (l.foldl (Cec.unhookReleased fh) a) receiving caller place := by
  induction l generalizing a with
  | nil => exact h
  | cons d l ih =>
    obtain ⟨hd, hl⟩ := List.nodup_cons.mp hl
    refine ih (h.unhookReleased (hmem d (List.mem_cons_self ..)) (hc d (List.mem_cons_self ..))) hl
      (fun e he => ?_) fun e he => hc e (List.mem_cons_of_mem d he)
    have hne : e ≠ d := fun heq => hd (heq ▸ he)
    have hold := List.count_pos_iff.mpr (hmem e (List.mem_cons_of_mem d he))
    exact List.count_pos_iff.mp ((same_unhookReleased fh a hne).hooked fh ▸ hold)

/-- **A file handle is closed** that nobody waits on. -/
theorem Placed.cecReleaseTransmits (h : Placed a receiving caller place) {fh : Fh}
    (hfree : ∀ d < a.allocated, caller d ≠ none → (a.data d).fh ≠ some fh) :
    Placed (cecReleaseTransmits a fh) receiving caller place := by
  refine h.foldl_unhookReleased (List.nodup_iff_count_le_one.mpr fun d => ?_) (fun _ hd => hd) fun d hd => ?_
  · rw [(h.at_place d).hooked fh]
    split <;> omega
  · obtain ⟨hfh, hfresh, -⟩ := (h.at_place d).of_mem_xferList hd
    by_contra hc
    exact hfree d ((h.at_place d).allocated.mpr hfresh) hc hfh

end Sections

/-! ## The transmitting slot -/

theorem SlotInProgress.of_kept {a b : TxAdap} (h : SlotInProgress a) (hk : SlotKept a b) : SlotInProgress b := by
  intro hne
  obtain ⟨-, -, hs | ⟨hnone, -⟩⟩ := hk.slot
  · rw [hs] at hne
    exact hk.inProgress.trans (h hne)
  · exact absurd hnone hne

theorem slotInProgress_of_none {a : TxAdap} (h : a.transmitting = none) : SlotInProgress a :=
  fun hne => absurd h hne

/-- Cancelling what is transmitted empties the slot. -/
theorem cecDataCancel_transmitting {a : TxAdap} {d : DataPtr} (txStatus : UInt8) (now : ℕ)
    (h : a.transmitting = some d) : (cecDataCancel txStatus now a d).transmitting = none := by
  have htake : ((takeBack { a with cancels := d :: a.cancels } d).modify d
      (cancelled txStatus now)).transmitting = none := by
    unfold takeBack
    rw [if_pos h]
    rfl
  obtain ⟨-, -, hs | ⟨hnone, -⟩⟩ := (slotKept_cecDataCompleted ((takeBack { a with cancels := d :: a.cancels }
    d).modify d (cancelled txStatus now)) d).slot
  · exact hs.trans htake
  · exact hnone

theorem SlotInProgress.cecThreadFunc {a : TxAdap} (h : SlotInProgress a) (timeout stop accepts : Bool) (now : ℕ) :
    SlotInProgress (cecThreadFunc timeout stop accepts now a) := by
  unfold Cec.cecThreadFunc
  split
  · exact h.of_kept (slotKept_cecFlush now a)
  · split
    · next d ht => exact slotInProgress_of_none (cecDataCancel_transmitting _ now ht)
    · split
      · exact h
      · split
        · exact h
        · next d rest hq =>
          unfold callDriver
          split
          · exact fun _ => rfl
          · exact slotInProgress_of_none (cecDataCancel_transmitting _ now rfl)

theorem slotInProgress_cecTransmitDoneTs (t : TxDone) (a : TxAdap) : SlotInProgress (cecTransmitDoneTs t a) := by
  unfold cecTransmitDoneTs
  split
  · next ht => exact slotInProgress_of_none ht
  · next d ht =>
    split
    · exact slotInProgress_of_none rfl
    · split
      · exact slotInProgress_of_none rfl
      · exact (slotInProgress_of_none rfl).of_kept (slotKept_cecDataCompleted (finishDone t a d) d)

theorem slotKept_cecReceivedSection (msg : CecMsg) (ts : ℕ) (a : TxAdap) :
    SlotKept a (cecReceivedSection msg ts a).1 := by
  have hwrite : ∀ (b : TxAdap) (w : WaitingData), SlotKept b (writeBack b w) :=
    fun b w => SlotKept.of_eq rfl rfl rfl rfl
  have htake : ∀ (b : TxAdap) (w : WaitingData), SlotKept b (takeReply b w).1 := by
    intro b w
    unfold takeReply
    dsimp only
    split
    · have hdel : SlotKept b (((writeBack b w).listDelInit w.ptr).modify w.ptr
          fun data => { data with pending := false }) := SlotKept.of_eq rfl rfl rfl rfl
      exact hdel.trans (slotKept_cecDataCompleted _ _)
    · exact SlotKept.of_eq rfl rfl rfl rfl
  have hfold : ∀ (i : UInt8) (l : List WaitingData), SlotKept a (l.foldl writeBack { a with lastInitiator := i }) := by
    intro i l
    have hset : SlotKept a { a with lastInitiator := i } := SlotKept.of_eq rfl rfl rfl rfl
    exact hset.trans (slotKept_foldl hwrite l _)
  unfold cecReceivedSection
  dsimp only
  cases (cecReceivedMsgTs (rxAdap a) msg ts).completed with
  | none => exact hfold _ _
  | some w => exact (hfold _ _).trans (htake _ w)

theorem slotKept_cecReleaseTransmits (a : TxAdap) (fh : Fh) : SlotKept a (cecReleaseTransmits a fh) := by
  have hunhook : ∀ (b : TxAdap) (d : DataPtr), SlotKept b (unhookReleased fh b d) :=
    fun b d => SlotKept.of_eq rfl rfl rfl rfl
  exact slotKept_foldl hunhook _ a

theorem slotKept_cecTransmitFinish (now : ℕ) (a : TxAdap) (d : DataPtr) :
    SlotKept a (cecTransmitFinish now a d) := by
  have hfree : ∀ b : TxAdap, SlotKept b (b.kfree d) := fun b => SlotKept.of_eq rfl rfl rfl rfl
  unfold cecTransmitFinish
  split
  · exact hfree a
  · exact (slotKept_cecDataCancel _ now a d).trans (hfree _)

theorem slotKept_cecTransmitMsgFh (a : TxAdap) (msg : CecMsg) (fh : Option Fh) (block rawio memory : Bool)
    (now : ℕ) : SlotKept a (cecTransmitMsgFh a msg fh block rawio memory now).adap := by
  rcases cecTransmitMsgFh_cases a msg fh block rawio memory now with
    ⟨-, sequence, hadap⟩ | ⟨-, -, sequence, msg', -, hadap⟩
  · rw [hadap]
    exact SlotKept.of_eq rfl rfl rfl rfl
  · rw [hadap]
    exact SlotKept.of_eq rfl rfl rfl rfl

/-! ## Runs -/

/-- Every transmit is at a place, and the slot is free when nothing is in progress. -/
structure WellPlaced (s : TxSys) : Prop where
  placed : ∃ place, Placed s.adap s.receiving s.caller place
  slot : SlotInProgress s.adap

theorem wellPlaced_initial (needsHpd : Bool) (cfg : Config) : WellPlaced (TxSys.initial needsHpd cfg) := by
  refine ⟨⟨fun _ => .fresh, fun d => ?_, ⟨rfl, Nat.zero_le _⟩, fun d => by decide, nofun⟩, slotInProgress_of_none rfl⟩
  exact
    { queued := rfl
      sending := iff_of_false (by simp [TxSys.initial]) (by decide)
      waiting := rfl
      received := rfl
      unsent := by simp
      sent := by simp
      pending := fun hp => absurd hp Bool.false_ne_true
      running := fun hr => absurd hr Bool.false_ne_true
      allocated := iff_of_false (Nat.not_lt_zero d) (by simp)
      completions := rfl
      freed := rfl
      hooked := fun fh => by simp [TxSys.initial]
      flag := by simp
      caller := by simp
      uncalled := fun _ => rfl }

/-- A message is accepted, with a caller that waits for it or not. -/
theorem WellPlaced.submit {s t : TxSys} (h : WellPlaced s) {msg : CecMsg} {fh : Option Fh}
    {block rawio memory : Bool} {now : ℕ} (hs : txStep s (.submit msg fh block rawio memory now) = some t) :
    WellPlaced t := by
  obtain ⟨place, hp⟩ := h.placed
  have hkept := slotKept_cecTransmitMsgFh s.adap msg fh block rawio memory now
  simp only [txStep] at hs
  split at hs
  · obtain rfl := Option.some.inj hs
    refine ⟨?_, h.slot.of_kept hkept⟩
    dsimp only
    rcases cecTransmitMsgFh_cases s.adap msg fh block rawio memory now with
      ⟨hnone, sequence, hadap⟩ | ⟨hroom, hsome, sequence, msg', hmsg, hadap⟩
    · rw [hadap, hnone, Option.elim_none, ite_self]
      exact ⟨place, hp.of_fields (fun e => { Same.refl s.adap e with }) rfl rfl rfl⟩
    · rw [hadap, hsome, Option.elim_some]
      have hseq : Placed { s.adap with sequence := sequence } s.receiving s.caller place :=
        hp.of_fields (fun e => { Same.refl s.adap e with }) rfl rfl rfl
      have hfresh : s.caller s.adap.allocated = none := (hp.at_place _).uncalled hp.fresh
      refine ⟨_, hseq.enqueue hroom hmsg fh block ?_ fun e he => ?_⟩
      · cases block with
        | true => simp
        | false => simp [hfresh]
      · split
        · exact Function.update_of_ne he _ _
        · rfl
  · exact absurd hs.symm (Option.some_ne_none t)

/-- **A step** leaves every transmit at a place, unless a killed caller frees what others hold. -/
theorem wellPlaced_txStep {s t : TxSys} {e : TxAct} (h : WellPlaced s) (hf : FinishesAlone s e)
    (hs : txStep s e = some t) : WellPlaced t := by
  obtain ⟨place, hp⟩ := h.placed
  have hno : ∀ {p : Prop} [Decidable p] {x : TxSys}, (if p then some x else none) = some t → p ∧ x = t := by
    intro p _ x hx
    by_cases hpos : p
    · rw [if_pos hpos] at hx
      exact ⟨hpos, Option.some.inj hx⟩
    · rw [if_neg hpos] at hx
      exact absurd hx.symm (Option.some_ne_none t)
  cases e with
  | submit msg fh block rawio memory now => exact h.submit hs
  | woken d =>
    obtain ⟨hg, rfl⟩ := hno hs
    exact ⟨⟨place, hp.callerGoes hg.1⟩, h.slot⟩
  | killed d =>
    obtain ⟨hg, rfl⟩ := hno hs
    exact ⟨⟨place, hp.callerGoes hg.1⟩, h.slot⟩
  | cancelSync d =>
    obtain ⟨hg, rfl⟩ := hno hs
    exact ⟨⟨place, hp.cancelSync (by rw [hg.1]; exact Option.some_ne_none _)⟩, h.slot⟩
  | finish d now =>
    obtain ⟨hg, rfl⟩ := hno hs
    refine ⟨⟨_, hp.cecTransmitFinish now (by rw [hg]; exact Option.some_ne_none _) hf.1 hf.2⟩, ?_⟩
    exact h.slot.of_kept (slotKept_cecTransmitFinish now s.adap d)
  | thread timeout stop accepts now =>
    obtain rfl := Option.some.inj hs
    exact ⟨hp.cecThreadFunc h.slot timeout stop accepts now, h.slot.cecThreadFunc timeout stop accepts now⟩
  | done td =>
    obtain rfl := Option.some.inj hs
    exact ⟨hp.cecTransmitDoneTs td, slotInProgress_cecTransmitDoneTs td s.adap⟩
  | receive msg ts =>
    obtain rfl := Option.some.inj hs
    exact ⟨hp.cecReceivedSection msg ts, h.slot.of_kept (slotKept_cecReceivedSection msg ts s.adap)⟩
  | flushed d =>
    obtain ⟨hg, rfl⟩ := hno hs
    exact ⟨⟨_, hp.flushed hg.1 hg.2⟩, h.slot.of_kept (slotKept_cecDataCompleted s.adap d)⟩
  | timer d =>
    obtain ⟨hg, rfl⟩ := hno hs
    exact ⟨⟨place, hp.startWork hg⟩, h.slot⟩
  | timeout d now =>
    obtain ⟨hg, rfl⟩ := hno hs
    exact ⟨hp.cecWaitTimeout now hg, h.slot.of_kept (slotKept_cecWaitTimeout now s.adap d)⟩
  | unconfigure now =>
    obtain rfl := Option.some.inj hs
    refine ⟨?_, h.slot.of_kept (slotKept_cecAdapUnconfigure now s.adap)⟩
    exact Placed.cecFlush now (hp.of_fields (fun e => { Same.refl s.adap e with }) rfl rfl rfl)
  | configure cfg =>
    obtain rfl := Option.some.inj hs
    exact ⟨⟨place, hp.of_fields (fun e => { Same.refl s.adap e with }) rfl rfl rfl⟩, h.slot⟩
  | openFh fh =>
    obtain rfl := Option.some.inj hs
    exact ⟨⟨place, hp⟩, h.slot⟩
  | release fh =>
    obtain ⟨hg, rfl⟩ := hno hs
    exact ⟨⟨place, hp.cecReleaseTransmits hg.2⟩, h.slot.of_kept (slotKept_cecReleaseTransmits s.adap fh)⟩

/-- The party that holds a transmit is the one of its place. -/
theorem Placed.holders_eq {s : TxSys} {place : DataPtr → Place} (h : Placed s.adap s.receiving s.caller place)
    (d : DataPtr) : holders s d = if place d = .fresh ∨ place d = .completed then 0 else 1 := by
  have hat := h.at_place d
  have hdet := h.attached d
  have hslot : (if s.adap.transmitting = some d then 1 else 0) = if place d = .transmitting then 1 else 0 :=
    if_congr hat.sending rfl rfl
  unfold holders
  rw [hat.queued, hat.waiting, hslot, hat.toHolds.received]
  cases hp : place d <;> first | rfl | exact absurd hp hdet

/-- Only what has been freed is not referenced. -/
theorem Placed.unreferenced {s : TxSys} {place : DataPtr → Place} (h : Placed s.adap s.receiving s.caller place)
    {d : DataPtr} (hp : place d = .completed) (hc : s.caller d = none) : ¬ Referenced s d := by
  have hat := h.at_place d
  rw [hp] at hat
  have hidle := hat.idle (by decide) (by decide)
  rintro (hq | hw | ht | ⟨fh, hx⟩ | hpend | hrun | hr | hcall)
  · exact List.count_eq_zero.mp hat.queued hq
  · exact List.count_eq_zero.mp hat.waiting hw
  · exact absurd (hat.sending.mp ht) (by decide)
  · exact (hat.of_mem_xferList hx).2.2 rfl
  · exact absurd (hpend.symm.trans hidle.1) (by decide)
  · exact absurd (hrun.symm.trans hidle.2) (by decide)
  · exact List.count_eq_zero.mp hat.toHolds.received hr
  · exact hcall hc

theorem WellPlaced.completesOnce {s : TxSys} (h : WellPlaced s) : CompletesOnce s := by
  obtain ⟨place, hp⟩ := h.placed
  refine ⟨fun d hd => ?_, fun d hd => hp.attended d (hp.of_mem_waitQueue hd), fun d hd => ?_, ?_⟩
  · have hat := hp.at_place d
    have hfresh := hat.allocated.mp hd
    rw [hp.holders_eq, hat.completions]
    by_cases hc : place d = .completed
    · rw [if_pos hc, if_pos (Or.inr hc)]
    · rw [if_neg hc, if_neg fun h => h.elim hfresh hc]
  · have hat := hp.at_place d
    have hfreed := List.count_pos_iff.mpr hd
    rw [hat.freed] at hfreed
    have hcond : place d = .completed ∧ s.caller d = none := by
      by_contra hne
      rw [if_neg hne] at hfreed
      exact Nat.lt_irrefl 0 hfreed
    refine ⟨List.count_pos_iff.mp ?_, ?_, hp.unreferenced hcond.1 hcond.2⟩
    · rw [hat.completions, if_pos hcond.1]
      exact Nat.one_pos
    · rw [hat.freed, if_pos hcond]
  · have hroom := hp.sized.room
    have hlt : s.adap.transmitQueue.length < 2 ^ 32 := by omega
    rw [hp.sized.size, UInt32.toNat_ofNat', Nat.mod_eq_of_lt hlt]

/-- **Every run** in which no killed caller frees a transmit that a receiver holds, or whose timeout work is
scheduled or running, completes its transmits once. -/
theorem completesOnce_run (needsHpd : Bool) (cfg : Config) (es : List TxAct) (t : TxSys)
    (hf : Along txStep FinishesAlone (TxSys.initial needsHpd cfg) es)
    (h : run txStep (TxSys.initial needsHpd cfg) es = some t) : CompletesOnce t :=
  (run_inv_along (fun _ _ _ hs hP hstep => wellPlaced_txStep hs hP hstep) (wellPlaced_initial needsHpd cfg)
    hf h).completesOnce

/-! ## A killed caller -/

/-- A message of `len` bytes, the operands of which are 0, and the reply that is asked for. -/
def message (len : ℕ) (header opcode reply : UInt8) (timeout : ℕ) : CecMsg :=
  { noData.msg with
    len := len
    timeout := timeout
    msg := fun i => if i = 0 then header else if i = 1 then opcode else 0
    reply := reply }

/-- An adapter that is configured as playback device 1. -/
def playback : Config where
  physAddr := 0x1000
  isConfiguring := false
  isConfigured := true
  logAddrMask := 0x10
  cecVersion := CEC_OP_CEC_VERSION_1_4
  cdcOnly := false

/-- The transmit was acknowledged. -/
def acknowledged : TxDone where
  status := CEC_TX_STATUS_OK
  arbLostCnt := 0
  nackCnt := 0
  lowDriveCnt := 0
  errorCnt := 0
  ts := 0

/-- The TV is asked for its power status, the caller is killed, before the message is sent. -/
theorem completesOnce_run_killed : ∃ t, run txStep (TxSys.initial true playback)
    [.openFh 1, .submit (message 2 0x40 0x8f 0x90 1000) (some 1) true false true 0, .killed 0, .cancelSync 0,
      .finish 0 1, .release 1] = some t ∧ CompletesOnce t := by
  have hgo : (run txStep (TxSys.initial true playback)
      [.openFh 1, .submit (message 2 0x40 0x8f 0x90 1000) (some 1) true false true 0, .killed 0, .cancelSync 0,
        .finish 0 1, .release 1]).isSome = true := by decide +kernel
  obtain ⟨t, ht⟩ := Option.isSome_iff_exists.mp hgo
  have halone : Along txStep FinishesAlone (TxSys.initial true playback)
      [.openFh 1, .submit (message 2 0x40 0x8f 0x90 1000) (some 1) true false true 0, .killed 0, .cancelSync 0,
        .finish 0 1, .release 1] := by
    refine ⟨trivial, fun s₁ h₁ => ⟨trivial, fun s₂ h₂ => ⟨trivial, fun s₃ h₃ => ⟨trivial, fun s₄ h₄ =>
      ⟨?_, fun s₅ _ => ⟨trivial, fun _ _ => trivial⟩⟩⟩⟩⟩⟩
    have hs : run txStep (TxSys.initial true playback)
        [.openFh 1, .submit (message 2 0x40 0x8f 0x90 1000) (some 1) true false true 0, .killed 0,
          .cancelSync 0] = some s₄ := by
      rw [run_cons, h₁, Option.bind_some, run_cons, h₂, Option.bind_some, run_cons, h₃, Option.bind_some,
        run_cons, h₄]
      rfl
    have hmap := congrArg (Option.map fun s : TxSys =>
      (s.receiving, (s.adap.data 0).pending, (s.adap.data 0).running)) hs
    have hval : (run txStep (TxSys.initial true playback)
        [.openFh 1, .submit (message 2 0x40 0x8f 0x90 1000) (some 1) true false true 0, .killed 0,
          .cancelSync 0]).map (fun s : TxSys =>
            (s.receiving, (s.adap.data 0).pending, (s.adap.data 0).running)) = some ([], false, false) := by
      decide +kernel
    rw [hval] at hmap
    obtain ⟨hr, hp, hrun⟩ : s₄.receiving = [] ∧ (s₄.adap.data 0).pending = false ∧
        (s₄.adap.data 0).running = false := by simpa using hmap.symm
    exact ⟨by rw [hr]; exact List.not_mem_nil, hp, hrun⟩
  exact ⟨t, ht, completesOnce_run true playback _ t halone ht⟩

/-- **A killed caller frees a transmit that a receiver holds**: its reply comes in between
`cancel_delayed_work_sync` and the caller's turn, and the transmit is completed twice. -/
theorem not_completesOnce : ∃ t, run txStep (TxSys.initial true playback)
    [.openFh 1, .submit (message 2 0x40 0x8f 0x90 1000) (some 1) true false true 0, .thread false false true 1,
      .done acknowledged, .killed 0, .cancelSync 0, .receive (message 3 0x04 0x90 0 0) 2, .finish 0 3,
      .flushed 0] = some t ∧ ¬ CompletesOnce t := by
  have hval : (run txStep (TxSys.initial true playback)
      [.openFh 1, .submit (message 2 0x40 0x8f 0x90 1000) (some 1) true false true 0, .thread false false true 1,
        .done acknowledged, .killed 0, .cancelSync 0, .receive (message 3 0x04 0x90 0 0) 2, .finish 0 3,
        .flushed 0]).map (fun t : TxSys => (t.adap.completions, t.adap.allocated)) = some ([0, 0], 1) := by
    decide +kernel
  obtain ⟨t, ht, hobs⟩ := Option.map_eq_some_iff.mp hval
  obtain ⟨hcomp, halloc⟩ := Prod.mk.inj hobs
  refine ⟨t, ht, fun h => ?_⟩
  have honce := h.once 0 (by rw [halloc]; exact Nat.one_pos)
  rw [hcomp] at honce
  change 2 + holders t 0 = 1 at honce
  omega

end Cec
end TbsMedia
