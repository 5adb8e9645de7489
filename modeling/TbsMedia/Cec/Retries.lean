import TbsMedia.Cec.TransmitOnce

/-!
# Retries of a transmit

A message that the driver could not send is put in front of the queue again, as long as it has attempts left.

A transmit on its way is unsent, and one that has left its way keeps the status it got.  So a section that takes
transmits off their way needs one lemma (`Settles`), whatever the way is; only a call of the driver and a retry
leave a transmit on it, and for these the calls are counted against the attempts (`Budget`).

* `handedOver`, `tryStep`: the calls of `adap_transmit`, accepted or refused, next to the system of transmits.
* `Settles`: a section that takes transmits out of the queue and gives them their final status.
* `Attempted`, `Budget`: what holds of every transmit, and of its calls.
* `retries_run`: a message is handed to the driver four times at most, twice if it is a poll of a configured adapter,
  and is completed with a status that tells whether it was sent.
-/

namespace TbsMedia
namespace Cec

open Lib

/-! ## The calls of the driver -/

/-- The transmit for which the section of the main thread calls `adap_transmit`. -/
def handedOver (timeout stop : Bool) (a : TxAdap) : Option DataPtr :=
  if (a.needsHpd ∧ a.cfg.isConfigured = false ∧ a.cfg.isConfiguring = false) ∨ stop then none
  else if a.transmitting.isSome ∧ timeout then none
  else if a.transmitInProgress then none
  else a.transmitQueue.head?

/-- A poll message while the adapter is configured. -/
def secondaryPoll (a : TxAdap) (d : DataPtr) : Bool :=
  (a.data d).msg.len = 1 ∧ a.cfg.isConfigured

/-- The system, and the calls of `adap_transmit` for each transmit, the latest one first: whether the message was a
poll and the adapter configured. -/
structure TrySys where
  sys : TxSys
  tries : DataPtr → List Bool

/-- A call of `adap_transmit` is remembered. -/
def recordTry (s : TrySys) (d : DataPtr) : DataPtr → List Bool :=
  Function.update s.tries d (secondaryPoll s.sys.adap d :: s.tries d)

/-- The calls after what happens next. -/
def triesAfter (s : TrySys) : TxAct → DataPtr → List Bool
  | .thread timeout stop _ _ => (handedOver timeout stop s.sys.adap).elim s.tries (recordTry s)
  | _ => s.tries

def tryStep (s : TrySys) (e : TxAct) : Option TrySys :=
  (txStep s.sys e).map fun t => ⟨t, triesAfter s e⟩

def TrySys.initial (needsHpd : Bool) (cfg : Config) : TrySys where
  sys := .initial needsHpd cfg
  tries := fun _ => []

/-- The driver does not report that a message was sent and that its retries failed. -/
def ReportsOnce : TxAct → Prop
  | .done t => t.status &&& CEC_TX_STATUS_OK = 0 ∨ t.status &&& CEC_TX_STATUS_MAX_RETRIES = 0
  | _ => True

/-! ## Statuses -/

/-- A message that is neither sent nor given up. -/
def Unsent (status : UInt8) : Prop :=
  status &&& CEC_TX_STATUS_OK = 0 ∧ status &&& CEC_TX_STATUS_MAX_RETRIES = 0

/-- Exactly one of `CEC_TX_STATUS_OK` and `CEC_TX_STATUS_MAX_RETRIES` is set. -/
def Final (status : UInt8) : Prop :=
  status &&& CEC_TX_STATUS_OK = 0 ↔ status &&& CEC_TX_STATUS_MAX_RETRIES ≠ 0

/-- **The calls are bounded, and what is completed has its final status.** -/
structure RetriesBounded (s : TrySys) : Prop where
  four : ∀ d, (s.tries d).length ≤ 4
  poll : ∀ d, (s.tries d).getLast? = some true → (s.tries d).length ≤ 2
  final : ∀ d ∈ s.sys.adap.completions, Final (s.sys.adap.data d).msg.txStatus

/-! ## Transmits on their way -/

/-- The transmit is in the queue, or in the transmitting slot. -/
def Active (a : TxAdap) (d : DataPtr) : Prop :=
  d ∈ a.transmitQueue ∨ a.transmitting = some d

/-- The transmit has been accepted, and is on its way no more. -/
def Gone (a : TxAdap) (d : DataPtr) : Prop :=
  d < a.allocated ∧ ¬ Active a d

/-- The transmit waits, has been completed, or has a timeout work. -/
def Held (a : TxAdap) (d : DataPtr) : Prop :=
  d ∈ a.waitQueue ∨ d ∈ a.completions ∨ (a.data d).pending = true ∨ (a.data d).running = true

/-- A transmit on its way is unsent; any other has its final status. -/
def StatusOk (a : TxAdap) (d : DataPtr) : Prop :=
  Active a d ∧ Unsent (a.data d).msg.txStatus ∨ ¬ Active a d ∧ Final (a.data d).msg.txStatus

/-- No transmit is put on its way, and those that leave it get their final status. -/
structure Settles (a b : TxAdap) : Prop where
  allocated : b.allocated = a.allocated
  queue : b.transmitQueue.Sublist a.transmitQueue
  slot : b.transmitting = a.transmitting ∨ b.transmitting = none
  attempts : ∀ d, Active b d → (b.data d).attempts = (a.data d).attempts
  status : ∀ d, StatusOk a d → StatusOk b d
  ok : ∀ d, txOk (a.data d).msg = true → txOk (b.data d).msg = true
  waiting : ∀ d ∈ b.waitQueue, d ∈ a.waitQueue ∨ txOk (b.data d).msg = true
  held : ∀ d, Held b d → Held a d ∨ Gone b d

section Settles

variable {a b c : TxAdap} {d e : DataPtr}

theorem Settles.active (h : Settles a b) (hd : Active b d) : Active a d := by
  rcases hd with hq | ht
  · exact Or.inl (h.queue.subset hq)
  · rcases h.slot with hs | hs
    · exact Or.inr (hs ▸ ht)
    · exact absurd (hs.symm.trans ht) (by simp)

theorem Settles.gone (h : Settles a b) (hd : Gone a d) : Gone b d :=
  ⟨h.allocated ▸ hd.1, fun hact => hd.2 (h.active hact)⟩

theorem Settles.refl (a : TxAdap) : Settles a a :=
  ⟨rfl, List.Sublist.refl _, Or.inl rfl, fun _ _ => rfl, fun _ h => h, fun _ h => h, fun _ h => Or.inl h,
    fun _ h => Or.inl h⟩

theorem Settles.trans (h : Settles a b) (h' : Settles b c) : Settles a c where
  allocated := h'.allocated.trans h.allocated
  queue := h'.queue.trans h.queue
  slot := by
    rcases h'.slot with hs | hs
    · rw [hs]
      exact h.slot
    · exact Or.inr hs
  attempts d hd := (h'.attempts d hd).trans (h.attempts d (h'.active hd))
  status d hd := h'.status d (h.status d hd)
  ok d hd := h'.ok d (h.ok d hd)
  waiting d hd := by
    rcases h'.waiting d hd with hw | hok
    · exact (h.waiting d hw).imp_right (h'.ok d)
    · exact Or.inr hok
  held d hd := by
    rcases h'.held d hd with hb | hg
    · exact (h.held d hb).imp_right h'.gone
    · exact Or.inr hg

/-- A section that touches neither the transmits nor where they are. -/
theorem Settles.of_eq (hq : b.transmitQueue = a.transmitQueue) (hw : b.waitQueue = a.waitQueue)
    (ht : b.transmitting = a.transmitting) (hd : b.data = a.data) (ha : b.allocated = a.allocated)
    (hc : b.completions = a.completions) : Settles a b := by
  have hact : ∀ d, Active b d ↔ Active a d := fun d => by rw [Active, Active, hq, ht]
  refine ⟨ha, by rw [hq], Or.inl ht, fun d _ => by rw [hd], fun d hs => ?_, fun d hs => by rwa [hd],
    fun d hs => Or.inl (hw ▸ hs), fun d hs => Or.inl ?_⟩
  · rw [StatusOk, hact, hd]
    exact hs
  · rw [Held, hw, hc, hd] at hs
    exact hs

theorem modify_self (a : TxAdap) (d : DataPtr) (f : CecData → CecData) : (a.modify d f).data d = f (a.data d) :=
  Function.update_self ..

theorem modify_of_ne (a : TxAdap) (f : CecData → CecData) (h : e ≠ d) : (a.modify d f).data e = a.data e :=
  Function.update_of_ne h ..

/-- A transmit is changed, but for its status, and for its attempts while it is on its way. -/
theorem settles_modify {f : CecData → CecData}
    (hattempts : Active a d → (f (a.data d)).attempts = (a.data d).attempts)
    (hstatus : (f (a.data d)).msg.txStatus = (a.data d).msg.txStatus)
    (hheld : (f (a.data d)).pending = true ∨ (f (a.data d)).running = true → Held a d ∨ Gone a d) :
    Settles a (a.modify d f) := by
  have hsame : ∀ e, ((a.modify d f).data e).msg.txStatus = (a.data e).msg.txStatus := by
    intro e
    by_cases he : e = d
    · rw [he, modify_self, hstatus]
    · rw [modify_of_ne a f he]
  refine ⟨rfl, List.Sublist.refl _, Or.inl rfl, fun e hact => ?_, fun e hs => ?_, fun e hs => ?_,
    fun e hs => Or.inl hs, fun e hs => ?_⟩
  · by_cases he : e = d
    · rw [he] at hact ⊢
      rw [modify_self, hattempts hact]
    · rw [modify_of_ne a f he]
  · rw [StatusOk, hsame]
    exact hs
  · rwa [txOk_congr (hsame e)]
  · by_cases he : e = d
    · subst he
      rcases hs with hw | hc | hp
      · exact Or.inl (Or.inl hw)
      · exact Or.inl (Or.inr (Or.inl hc))
      · rw [modify_self] at hp
        exact hheld hp
    · rw [Held, modify_of_ne a f he] at hs
      exact Or.inl hs

theorem settles_cecDataCompleted (hg : Gone a d) : Settles a (cecDataCompleted a d) := by
  have hlog : Settles a { a with completions := d :: a.completions } := by
    refine ⟨rfl, List.Sublist.refl _, Or.inl rfl, fun _ _ => rfl, fun _ h => h, fun _ h => h, fun _ h => Or.inl h,
      fun e hs => ?_⟩
    rcases hs with hw | hc | hp
    · exact Or.inl (Or.inl hw)
    · rcases List.mem_cons.mp hc with rfl | hc
      · exact Or.inr hg
      · exact Or.inl (Or.inr (Or.inl hc))
    · exact Or.inl (Or.inr (Or.inr hp))
  have hunhook : ∀ b : TxAdap, Settles b (unhook b d) := by
    intro b
    unfold unhook
    cases (b.data d).fh <;> exact Settles.of_eq rfl rfl rfl rfl rfl rfl
  have hwake : ∀ b : TxAdap, Settles b (wakeOrFree b d) := by
    intro b
    unfold wakeOrFree
    split
    · exact settles_modify (fun _ => rfl) rfl fun h => Or.inl (Or.inr (Or.inr h))
    · exact Settles.of_eq rfl rfl rfl rfl rfl rfl
  exact hlog.trans ((hunhook _).trans (hwake _))

end Settles

/-! ## Every transmit -/

/-- A transmit on its way is unsent and at one place only; any other has its final status. -/
structure Attempted (a : TxAdap) : Prop where
  nodup : a.transmitQueue.Nodup
  apart : ∀ d, a.transmitting = some d → d ∉ a.transmitQueue
  active : ∀ d, Active a d → d < a.allocated
  status : ∀ d < a.allocated, StatusOk a d
  waiting : ∀ d ∈ a.waitQueue, txOk (a.data d).msg = true
  held : ∀ d, Held a d → Gone a d

section Attempted

variable {a b : TxAdap} {d e : DataPtr}

theorem Settles.attempted (hs : Settles a b) (h : Attempted a) : Attempted b where
  nodup := h.nodup.sublist hs.queue
  apart d hd hq := by
    rcases hs.slot with ht | ht
    · exact h.apart d (ht ▸ hd) (hs.queue.subset hq)
    · exact absurd (ht.symm.trans hd) (by simp)
  active d hd := hs.allocated ▸ h.active d (hs.active hd)
  status d hd := hs.status d (h.status d (hs.allocated ▸ hd))
  waiting d hd := by
    rcases hs.waiting d hd with hw | hok
    · exact hs.ok d (h.waiting d hw)
    · exact hok
  held d hd := by
    rcases hs.held d hd with hh | hg
    · exact hs.gone (h.held d hh)
    · exact hg

theorem txOk_eq_false_of_unsent {msg : CecMsg} (h : Unsent msg.txStatus) : txOk msg = false :=
  txOk_eq_false.mpr h.1

/-- A status to which `CEC_TX_STATUS_MAX_RETRIES` is added, and which does not say that the message was sent. -/
theorem final_or {status more : UInt8} (hs : status &&& CEC_TX_STATUS_OK = 0) (hm : more &&& CEC_TX_STATUS_OK = 0) :
    Final (status ||| (more ||| CEC_TX_STATUS_MAX_RETRIES)) := by
  have hok : (status ||| (more ||| CEC_TX_STATUS_MAX_RETRIES)) &&& CEC_TX_STATUS_OK = 0 := by
    rw [or_land, or_land, hs, hm]
    decide
  have hmax : (status ||| (more ||| CEC_TX_STATUS_MAX_RETRIES)) &&& CEC_TX_STATUS_MAX_RETRIES ≠ 0 := by
    rw [or_land, or_land, Ne, UInt8.or_eq_zero_iff, UInt8.or_eq_zero_iff]
    rintro ⟨-, -, hz⟩
    exact absurd hz (by decide)
  exact iff_of_true hok hmax

/-- A transmit that is taken back is on its way no more. -/
theorem not_active_takeBack (h : Attempted a) (cancels : List DataPtr) :
    ¬ Active (takeBack { a with cancels := cancels } d) d := by
  unfold takeBack
  by_cases ht : a.transmitting = some d
  · rw [if_pos ht]
    rintro (hq | hs)
    · exact h.apart d ht hq
    · exact absurd hs (by simp)
  · have herase : d ∉ a.transmitQueue.erase d := fun hq => (h.nodup.mem_erase_iff.mp hq).1 rfl
    rw [if_neg ht]
    split <;> exact fun hact => hact.elim herase ht

/-- The others are where they were. -/
theorem active_takeBack (cancels : List DataPtr) (he : e ≠ d) :
    Active (takeBack { a with cancels := cancels } d) e ↔ Active a e := by
  unfold takeBack
  by_cases ht : a.transmitting = some d
  · rw [if_pos ht, Active, Active, ht, Option.some.injEq]
    exact or_congr Iff.rfl (iff_of_false (by simp) (Ne.symm he))
  · rw [if_neg ht]
    split <;> exact or_congr (List.mem_erase_of_ne he) Iff.rfl

theorem takeBack_fields (b : TxAdap) (d : DataPtr) :
    (takeBack b d).allocated = b.allocated ∧ (takeBack b d).transmitQueue.Sublist b.transmitQueue ∧
      ((takeBack b d).transmitting = b.transmitting ∨ (takeBack b d).transmitting = none) ∧
      (takeBack b d).data = b.data ∧ (takeBack b d).waitQueue ⊆ b.waitQueue ∧
      (takeBack b d).completions = b.completions := by
  unfold takeBack
  split
  · exact ⟨rfl, List.Sublist.refl _, Or.inr rfl, rfl, List.Subset.refl _, rfl⟩
  · split <;> exact ⟨rfl, List.erase_sublist, Or.inl rfl, rfl, List.erase_subset, rfl⟩

/-- The status of a transmit that is cancelled. -/
theorem final_cancelled {txStatus : UInt8} (now : ℕ) {data : CecData}
    (hdata : Unsent data.msg.txStatus ∨ Final data.msg.txStatus)
    (hs : txStatus &&& CEC_TX_STATUS_OK = 0 ∨ txOk data.msg = true) :
    Final (cancelled txStatus now data).msg.txStatus := by
  unfold cancelled
  by_cases hok : txOk data.msg = true
  · rw [if_pos hok]
    rcases hdata with hu | hf
    · exact absurd (hok.symm.trans (txOk_eq_false_of_unsent hu)) (by decide)
    · exact hf
  · rw [if_neg hok]
    exact final_or (txOk_eq_false.mp (Bool.eq_false_iff.mpr hok)) (hs.resolve_right hok)

/-- **A transmit is cancelled.** -/
theorem settles_cecDataCancel (h : Attempted a) (hd : d < a.allocated) (now : ℕ) {txStatus : UInt8}
    (hs : txStatus &&& CEC_TX_STATUS_OK = 0 ∨ txOk (a.data d).msg = true) :
    Settles a (cecDataCancel txStatus now a d) := by
  obtain ⟨halloc, hqueue, hslot, hdata, hwait, hcomp⟩ := takeBack_fields { a with cancels := d :: a.cancels } d
  have hout := not_active_takeBack (d := d) h (d :: a.cancels)
  have hothers := fun e (he : e ≠ d) => active_takeBack (a := a) (d :: a.cancels) he
  unfold cecDataCancel
  generalize takeBack { a with cancels := d :: a.cancels } d = b at halloc hqueue hslot hdata hwait hcomp hout hothers ⊢
  have hself : ((b.modify d (cancelled txStatus now)).data d) = cancelled txStatus now (a.data d) := by
    rw [modify_self, hdata]
  have hne : ∀ e, e ≠ d → (b.modify d (cancelled txStatus now)).data e = a.data e := by
    intro e he
    rw [modify_of_ne b _ he, hdata]
  have hgone : Gone (b.modify d (cancelled txStatus now)) d := ⟨halloc ▸ hd, hout⟩
  have hcancel : Settles a (b.modify d (cancelled txStatus now)) := by
    refine ⟨halloc, hqueue, hslot, fun e hact => ?_, fun e hst => ?_, fun e hok => ?_, fun e hw => Or.inl (hwait hw),
      fun e hh => ?_⟩
    · have he : e ≠ d := fun he => hout (he ▸ hact)
      rw [hne e he]
    · by_cases he : e = d
      · subst he
        refine Or.inr ⟨hout, ?_⟩
        rw [hself]
        exact final_cancelled now (hst.imp And.right And.right) hs
      · have hiff : Active (b.modify d (cancelled txStatus now)) e ↔ Active a e := hothers e he
        rw [StatusOk, hiff, hne e he]
        exact hst
    · by_cases he : e = d
      · subst he
        rw [hself, cancelled, if_pos hok]
        exact hok
      · rwa [hne e he]
    · by_cases he : e = d
      · exact Or.inr (he ▸ hgone)
      · rcases hh with hw | hc | hp
        · exact Or.inl (Or.inl (hwait hw))
        · exact Or.inl (Or.inr (Or.inl (hcomp ▸ hc)))
        · rw [hne e he] at hp
          exact Or.inl (Or.inr (Or.inr hp))
  exact hcancel.trans (settles_cecDataCompleted hgone)

/-! ## Flushing -/

theorem settles_flushQueue (now n : ℕ) (h : Attempted a) : Settles a (flushQueue now n a) := by
  induction n generalizing a with
  | zero => exact Settles.refl a
  | succ n ih =>
    unfold flushQueue
    cases hq : a.transmitQueue with
    | nil => exact Settles.refl a
    | cons d rest =>
      have hd : d < a.allocated := h.active d (Or.inl (hq ▸ List.mem_cons_self ..))
      have hcancel := settles_cecDataCancel h hd now (Or.inl (by decide : CEC_TX_STATUS_ABORTED &&& CEC_TX_STATUS_OK = 0))
      exact hcancel.trans (ih (hcancel.attempted h))

theorem settles_flushTransmitting (now : ℕ) (h : Attempted a) : Settles a (flushTransmitting now a) := by
  unfold flushTransmitting
  cases ht : a.transmitting with
  | none => exact Settles.refl a
  | some d => exact settles_cecDataCancel h (h.active d (Or.inr ht)) now (Or.inl (by decide))

theorem settles_flushWaiting (now : ℕ) (h : Attempted a) (hd : d < a.allocated) (hok : txOk (a.data d).msg = true) :
    Settles a (flushWaiting now a d) := by
  unfold flushWaiting
  split
  · have hmod : Settles a (a.modify d fun data => { data with pending := false }) :=
      settles_modify (fun _ => rfl) rfl fun hp => hp.elim (fun hp => absurd hp Bool.false_ne_true)
        fun hr => Or.inl (Or.inr (Or.inr (Or.inr hr)))
    exact hmod.trans (settles_cecDataCancel (hmod.attempted h) hd now (Or.inr (hmod.ok d hok)))
  · exact Settles.refl a

theorem settles_foldl_flushWaiting (now : ℕ) (h : Attempted a) (l : List DataPtr)
    (hl : ∀ d ∈ l, d < a.allocated ∧ txOk (a.data d).msg = true) : Settles a (l.foldl (flushWaiting now) a) := by
  induction l generalizing a with
  | nil => exact Settles.refl a
  | cons d l ih =>
    obtain ⟨hd, hok⟩ := hl d (List.mem_cons_self ..)
    have hone := settles_flushWaiting now h hd hok
    refine hone.trans (ih (hone.attempted h) fun e he => ?_)
    obtain ⟨he', hok'⟩ := hl e (List.mem_cons_of_mem d he)
    exact ⟨hone.allocated ▸ he', hone.ok e hok'⟩

/-- **Flushing** settles what it cancels. -/
theorem settles_cecFlush (now : ℕ) (h : Attempted a) : Settles a (cecFlush now a) := by
  have hqueue := settles_flushQueue now a.transmitQueue.length h
  have hslot := settles_flushTransmitting now (hqueue.attempted h)
  have hboth := hqueue.trans hslot
  have hat := hboth.attempted h
  exact hboth.trans (settles_foldl_flushWaiting now hat _ fun d hd =>
    ⟨(hat.held d (Or.inl hd)).1, hat.waiting d hd⟩)

end Attempted

/-! ## The budget of a transmit -/

/-- The number of calls that a transmit is given with its first one. -/
def limit (tries : List Bool) : ℕ :=
  if tries.getLast? = some true then 2 else 4

/-- The calls so far and the attempts that are left stay within the limit. -/
structure Budget (a : TxAdap) (tries : List Bool) (d : DataPtr) : Prop where
  spent : tries.length ≤ limit tries
  queued : d ∈ a.transmitQueue → (a.data d).attempts = 0 ∧ tries = [] ∨
    0 < (a.data d).attempts ∧ tries ≠ [] ∧ tries.length + (a.data d).attempts ≤ limit tries
  sending : a.transmitting = some d →
    0 < (a.data d).attempts ∧ tries ≠ [] ∧ tries.length + (a.data d).attempts ≤ limit tries + 1
  fresh : a.allocated ≤ d → tries = []

section Thread

variable {a b : TxAdap} {d e : DataPtr} {tries : List Bool}

theorem Budget.settles (h : Budget a tries d) (hs : Settles a b) : Budget b tries d := by
  refine ⟨h.spent, fun hq => ?_, fun ht => ?_, fun hd => h.fresh (hs.allocated ▸ hd)⟩
  · rw [hs.attempts d (Or.inl hq)]
    exact h.queued (hs.queue.subset hq)
  · rw [hs.attempts d (Or.inr ht)]
    rcases hs.slot with hslot | hslot
    · exact h.sending (hslot ▸ ht)
    · exact absurd (hslot.symm.trans ht) (by simp)

/-- What the section of the main thread does. -/
theorem cecThreadFunc_cases (timeout stop accepts : Bool) (now : ℕ) (a : TxAdap) :
    handedOver timeout stop a = none ∧
        (cecThreadFunc timeout stop accepts now a = cecFlush now a ∨
          cecThreadFunc timeout stop accepts now a = a ∨
          ∃ d, a.transmitting = some d ∧ cecThreadFunc timeout stop accepts now a =
            cecDataCancel CEC_TX_STATUS_TIMEOUT now
              { a with transmitInProgress := false, txTimeouts := a.txTimeouts + 1 } d) ∨
      ∃ d sft, handedOver timeout stop a = some d ∧ a.transmitInProgress = false ∧ d ∈ a.transmitQueue ∧
        cecThreadFunc timeout stop accepts now a = callDriver accepts now sft (startTransmit a d) d := by
  unfold handedOver cecThreadFunc
  split
  · exact Or.inl ⟨rfl, Or.inl rfl⟩
  · rcases ht : a.transmitting with _ | d
    · cases hp : a.transmitInProgress with
      | true => exact Or.inl ⟨rfl, Or.inr (Or.inl rfl)⟩
      | false =>
        rcases hq : a.transmitQueue with _ | ⟨d, rest⟩
        · exact Or.inl ⟨rfl, Or.inr (Or.inl rfl)⟩
        · exact Or.inr ⟨d, _, rfl, rfl, List.mem_cons_self .., rfl⟩
    · cases timeout with
      | true => exact Or.inl ⟨rfl, Or.inr (Or.inr ⟨d, rfl, rfl⟩)⟩
      | false =>
        cases hp : a.transmitInProgress with
        | true => exact Or.inl ⟨rfl, Or.inr (Or.inl rfl)⟩
        | false =>
          rcases hq : a.transmitQueue with _ | ⟨e, rest⟩
          · exact Or.inl ⟨rfl, Or.inr (Or.inl rfl)⟩
          · exact Or.inr ⟨e, _, rfl, rfl, List.mem_cons_self .., rfl⟩

/-- A transmit that is started stays on its way. -/
theorem active_startTransmit (hd : d ∈ a.transmitQueue) (ht : a.transmitting = none) :
    Active (startTransmit a d) e ↔ Active a e := by
  show e ∈ a.transmitQueue.erase d ∨ some d = some e ↔ e ∈ a.transmitQueue ∨ a.transmitting = some e
  rw [ht, Option.some.injEq]
  by_cases he : e = d
  · subst he
    exact iff_of_true (Or.inr rfl) (Or.inl hd)
  · exact or_congr (List.mem_erase_of_ne he) (iff_of_false (Ne.symm he) (by simp))

theorem startTransmit_data_of_ne (he : e ≠ d) : (startTransmit a d).data e = a.data e :=
  Function.update_of_ne he ..

theorem startTransmit_data_self : (startTransmit a d).data d =
    { a.data d with
      attempts := if (a.data d).attempts = 0 then suggestedAttempts a (a.data d).msg else (a.data d).attempts } :=
  Function.update_self ..

theorem startTransmit_status (e : DataPtr) :
    ((startTransmit a d).data e).msg = (a.data e).msg ∧ ((startTransmit a d).data e).pending = (a.data e).pending ∧
      ((startTransmit a d).data e).running = (a.data e).running := by
  by_cases he : e = d
  · subst he
    rw [startTransmit_data_self]
    exact ⟨rfl, rfl, rfl⟩
  · rw [startTransmit_data_of_ne he]
    exact ⟨rfl, rfl, rfl⟩

/-- The first transmit of the queue is started. -/
theorem attempted_startTransmit (h : Attempted a) (hd : d ∈ a.transmitQueue) (ht : a.transmitting = none) :
    Attempted (startTransmit a d) := by
  have hact := fun e => active_startTransmit (e := e) hd ht
  have hdata := fun e => startTransmit_status (a := a) (d := d) e
  have hgone : ∀ e, Gone (startTransmit a d) e ↔ Gone a e := fun e => and_congr Iff.rfl (not_congr (hact e))
  refine ⟨h.nodup.erase d, fun e he => ?_, fun e he => h.active e ((hact e).mp he), fun e he => ?_, fun e he => ?_,
    fun e he => (hgone e).mpr (h.held e ?_)⟩
  · obtain rfl := Option.some.inj he
    exact fun hq => (h.nodup.mem_erase_iff.mp hq).1 rfl
  · rw [StatusOk, hact, (hdata e).1]
    exact h.status e he
  · rw [(hdata e).1]
    exact h.waiting e (List.mem_of_mem_erase he)
  · rcases he with hw | hc | hp
    · exact Or.inl (List.mem_of_mem_erase hw)
    · exact Or.inr (Or.inl hc)
    · rw [(hdata e).2.1, (hdata e).2.2] at hp
      exact Or.inr (Or.inr hp)

/-- The first call sets the limit, and every call is within it. -/
theorem Budget.startTransmit (h : Budget a tries d) (hd : d ∈ a.transmitQueue) :
    let after := secondaryPoll a d :: tries
    after.length ≤ limit after ∧ 0 < ((startTransmit a d).data d).attempts ∧
      after.length + ((Cec.startTransmit a d).data d).attempts ≤ limit after + 1 := by
  dsimp only
  rw [startTransmit_data_self]
  rcases h.queued hd with ⟨hzero, rfl⟩ | ⟨hpos, hne, hle⟩
  · have hlimit : limit [secondaryPoll a d] = suggestedAttempts a (a.data d).msg := by
      unfold limit suggestedAttempts secondaryPoll
      refine if_congr ?_ rfl rfl
      rw [List.getLast?_singleton, Option.some.injEq, decide_eq_true_eq]
    have hsuggested : 2 ≤ suggestedAttempts a (a.data d).msg := by
      unfold suggestedAttempts
      split <;> decide
    dsimp only
    rw [if_pos hzero, hlimit, List.length_singleton]
    omega
  · have hlimit : limit (secondaryPoll a d :: tries) = limit tries := by
      unfold limit
      rw [List.getLast?_cons_of_ne_nil hne]
    dsimp only
    rw [if_neg (Nat.pos_iff_ne_zero.mp hpos), hlimit, List.length_cons]
    omega

/-- Another transmit is started. -/
theorem Budget.startOther (h : Budget a tries e) (he : e ≠ d) : Budget (Cec.startTransmit a d) tries e := by
  refine ⟨h.spent, fun hq => ?_, fun ht => absurd (Option.some.inj ht).symm he, h.fresh⟩
  rw [startTransmit_data_of_ne he]
  exact h.queued (List.mem_of_mem_erase hq)

/-- The driver is called, and accepts or refuses the transmit. -/
theorem settles_callDriver (h : Attempted a) (hd : d < a.allocated) (accepts : Bool) (now sft : ℕ) :
    Settles a (callDriver accepts now sft a d) := by
  unfold callDriver
  split
  · exact Settles.of_eq rfl rfl rfl rfl rfl rfl
  · exact settles_cecDataCancel h hd now (Or.inl (by decide))

end Thread

/-! ## Completion by the driver -/

section Done

variable {a b : TxAdap} {d e : DataPtr} {tries : List Bool}

theorem recordDone_self (t : TxDone) (a : TxAdap) (d : DataPtr) :
    (recordDone t a d).data d = { a.data d with msg := t.record (a.data d).msg } :=
  Function.update_self ..

theorem recordDone_of_ne (t : TxDone) (a : TxAdap) (he : e ≠ d) : (recordDone t a d).data e = a.data e :=
  Function.update_of_ne he ..

/-- What is transmitted is taken out of its slot. -/
theorem active_recordDone (h : Attempted a) (ht : a.transmitting = some d) (t : TxDone) :
    (¬ Active (recordDone t a d) d) ∧ ∀ e, e ≠ d → (Active (recordDone t a d) e ↔ Active a e) := by
  refine ⟨fun hact => hact.elim (h.apart d ht) fun hs => absurd hs (by simp [recordDone, TxAdap.modify]),
    fun e he => ?_⟩
  rw [Active, Active, ht, Option.some.injEq]
  exact or_congr Iff.rfl (iff_of_false (by simp [recordDone, TxAdap.modify]) (Ne.symm he))

theorem finishDone_self (t : TxDone) (a : TxAdap) (d : DataPtr) : (finishDone t a d).data d =
    doneTrying t { a.data d with msg := t.record (a.data d).msg } := by
  rw [finishDone, modify_self, recordDone_self]

theorem finishDone_of_ne (t : TxDone) (a : TxAdap) (he : e ≠ d) : (finishDone t a d).data e = a.data e := by
  rw [finishDone, modify_of_ne _ _ he, recordDone_of_ne t a he]

/-- The status of a transmit that is not tried again. -/
theorem final_doneTrying {t : TxDone} {data : CecData} (hu : Unsent data.msg.txStatus)
    (ht : t.status &&& CEC_TX_STATUS_OK = 0 ∨ t.status &&& CEC_TX_STATUS_MAX_RETRIES = 0) :
    Final (doneTrying t { data with msg := t.record data.msg }).msg.txStatus := by
  unfold doneTrying
  by_cases hok : t.status &&& CEC_TX_STATUS_OK = 0
  · rw [if_pos hok]
    have hfinal : Final (data.msg.txStatus ||| (t.status ||| CEC_TX_STATUS_MAX_RETRIES)) := final_or hu.1 hok
    rw [← UInt8.or_assoc] at hfinal
    exact hfinal
  · rw [if_neg hok]
    have hmax := ht.resolve_left hok
    refine iff_of_false ?_ (not_not.mpr ?_)
    · show (data.msg.txStatus ||| t.status) &&& CEC_TX_STATUS_OK ≠ 0
      rw [or_land, hu.1, UInt8.zero_or]
      exact hok
    · show (data.msg.txStatus ||| t.status) &&& CEC_TX_STATUS_MAX_RETRIES = 0
      rw [or_land, hu.2, hmax]
      rfl

/-- A status is only added to. -/
theorem txOk_doneTrying {t : TxDone} {data : CecData} (h : txOk data.msg = true) :
    txOk (doneTrying t { data with msg := t.record data.msg }).msg = true := by
  rw [txOk_eq_true] at h ⊢
  unfold doneTrying
  dsimp only
  split
  · show (data.msg.txStatus ||| t.status ||| CEC_TX_STATUS_MAX_RETRIES) &&& CEC_TX_STATUS_OK ≠ 0
    rw [or_land, or_land, Ne, UInt8.or_eq_zero_iff, UInt8.or_eq_zero_iff]
    exact fun hz => h hz.1.1
  · show (data.msg.txStatus ||| t.status) &&& CEC_TX_STATUS_OK ≠ 0
    rw [or_land, Ne, UInt8.or_eq_zero_iff]
    exact fun hz => h hz.1

/-- **A transmit is not tried again.** -/
theorem settles_finishDone (h : Attempted a) (ht : a.transmitting = some d) {t : TxDone}
    (hs : t.status &&& CEC_TX_STATUS_OK = 0 ∨ t.status &&& CEC_TX_STATUS_MAX_RETRIES = 0) :
    Settles a (finishDone t a d) ∧ Gone (finishDone t a d) d := by
  obtain ⟨hout, hothers⟩ := active_recordDone h ht t
  have hgone : Gone (finishDone t a d) d := ⟨h.active d (Or.inr ht), hout⟩
  have hunsent : Unsent (a.data d).msg.txStatus :=
    (h.status d (h.active d (Or.inr ht))).elim And.right fun hn => absurd (Or.inr ht) hn.1
  refine ⟨⟨rfl, List.Sublist.refl _, Or.inr rfl, fun e hact => ?_, fun e hst => ?_, fun e hok => ?_,
    fun e hw => Or.inl hw, fun e hh => ?_⟩, hgone⟩
  · have he : e ≠ d := fun he => hgone.2 (he ▸ hact)
    rw [finishDone_of_ne t a he]
  · by_cases he : e = d
    · subst he
      refine Or.inr ⟨hgone.2, ?_⟩
      rw [finishDone_self]
      exact final_doneTrying hunsent hs
    · have hiff : Active (finishDone t a d) e ↔ Active a e := hothers e he
      rw [StatusOk, hiff, finishDone_of_ne t a he]
      exact hst
  · by_cases he : e = d
    · subst he
      rw [finishDone_self]
      exact txOk_doneTrying hok
    · rwa [finishDone_of_ne t a he]
  · by_cases he : e = d
    · exact Or.inr (he ▸ hgone)
    · refine Or.inl ?_
      rw [Held, finishDone_of_ne t a he] at hh
      exact hh

/-- The message was sent, and waits for its reply. -/
theorem settles_awaitReply (hg : Gone a d) (hok : txOk (a.data d).msg = true) : Settles a (awaitReply a d) := by
  have hmod : Settles a (a.modify d fun data => { data with pending := true }) :=
    settles_modify (fun _ => rfl) rfl fun _ => Or.inr hg
  have hqueue : Settles (a.modify d fun data => { data with pending := true }) (awaitReply a d) := by
    refine ⟨rfl, List.Sublist.refl _, Or.inl rfl, fun _ _ => rfl, fun _ hs => hs, fun _ hs => hs, fun e hw => ?_,
      fun e hh => ?_⟩
    · rcases List.mem_append.mp hw with hw | hw
      · exact Or.inl hw
      · obtain rfl := List.mem_singleton.mp hw
        exact Or.inr (hmod.ok e hok)
    · rcases hh with hw | hc | hp
      · rcases List.mem_append.mp hw with hw | hw
        · exact Or.inl (Or.inl hw)
        · obtain rfl := List.mem_singleton.mp hw
          exact Or.inr hg
      · exact Or.inl (Or.inr (Or.inl hc))
      · exact Or.inl (Or.inr (Or.inr hp))
  exact hmod.trans hqueue

theorem retry_data (t : TxDone) (a : TxAdap) (d : DataPtr) : (retry t a d).data =
    (a.modify d fun data => { data with attempts := data.attempts - t.attemptsMade }).data := rfl

theorem retry_self (t : TxDone) (a : TxAdap) (d : DataPtr) : (retry t (recordDone t a d) d).data d =
    { a.data d with msg := t.record (a.data d).msg, attempts := (a.data d).attempts - t.attemptsMade } := by
  rw [retry_data, modify_self, recordDone_self]

theorem retry_of_ne (t : TxDone) (a : TxAdap) (he : e ≠ d) : (retry t (recordDone t a d) d).data e = a.data e := by
  rw [retry_data, modify_of_ne _ _ he, recordDone_of_ne t a he]

/-- A transmit that is tried again stays on its way. -/
theorem active_retry (h : Attempted a) (ht : a.transmitting = some d) (t : TxDone) :
    Active (retry t (recordDone t a d) d) e ↔ Active a e := by
  obtain ⟨-, hothers⟩ := active_recordDone h ht t
  by_cases he : e = d
  · subst he
    exact iff_of_true (Or.inl (List.mem_cons_self ..)) (Or.inr ht)
  · rw [← hothers e he]
    exact or_congr (List.mem_cons.trans (or_iff_right he)) Iff.rfl

/-- **A transmit is tried again.** -/
theorem attempted_retry (h : Attempted a) (ht : a.transmitting = some d) {t : TxDone}
    (hs : t.status &&& (CEC_TX_STATUS_MAX_RETRIES ||| CEC_TX_STATUS_OK) = 0) :
    Attempted (retry t (recordDone t a d) d) := by
  have hact := fun e => active_retry (e := e) h ht t
  have hgone : ∀ e, Gone (retry t (recordDone t a d) d) e ↔ Gone a e := fun e => and_congr Iff.rfl (not_congr (hact e))
  rw [land_or, UInt8.or_eq_zero_iff] at hs
  refine ⟨List.nodup_cons.mpr ⟨h.apart d ht, h.nodup⟩, fun e he => absurd he (by simp [retry, recordDone, TxAdap.modify]),
    fun e he => h.active e ((hact e).mp he), fun e he => ?_, fun e he => ?_, fun e he => (hgone e).mpr (h.held e ?_)⟩
  · rw [StatusOk, hact]
    by_cases hed : e = d
    · subst hed
      rcases h.status e he with ⟨hon, hunsent⟩ | ⟨hoff, -⟩
      · refine Or.inl ⟨hon, ?_⟩
        rw [retry_self]
        show (((a.data e).msg.txStatus ||| t.status) &&& CEC_TX_STATUS_OK) = 0 ∧
          (((a.data e).msg.txStatus ||| t.status) &&& CEC_TX_STATUS_MAX_RETRIES) = 0
        rw [or_land, or_land, hunsent.1, hunsent.2, hs.1, hs.2]
        exact ⟨rfl, rfl⟩
      · exact absurd (Or.inr ht) hoff
    · rw [retry_of_ne t a hed]
      exact h.status e he
  · have hed : e ≠ d := fun hed => (h.held e (Or.inl he)).2 (hed ▸ Or.inr ht)
    rw [retry_of_ne t a hed]
    exact h.waiting e he
  · by_cases hed : e = d
    · subst hed
      rw [Held, retry_self] at he
      exact he
    · rw [Held, retry_of_ne t a hed] at he
      exact he

theorem TxDone.attemptsMade_pos (t : TxDone) : 0 < t.attemptsMade :=
  Nat.lt_of_lt_of_le Nat.one_pos (Nat.le_max_left 1 _)

/-- The attempts that were made are taken from those that are left. -/
theorem Budget.retry (h : Budget a tries e) (ht : a.transmitting = some d) {t : TxDone}
    (hleft : t.attemptsMade < (a.data d).attempts) : Budget (Cec.retry t (recordDone t a d) d) tries e := by
  have hmade := t.attemptsMade_pos
  refine ⟨h.spent, fun hq => ?_, fun hs => absurd hs (by simp [Cec.retry, recordDone, TxAdap.modify]), h.fresh⟩
  by_cases he : e = d
  · subst he
    obtain ⟨hpos, hne, hle⟩ := h.sending ht
    rw [retry_self]
    dsimp only
    exact Or.inr ⟨by omega, hne, by omega⟩
  · rw [retry_of_ne t a he]
    rcases List.mem_cons.mp hq with hq | hq
    · exact absurd hq he
    · exact h.queued hq

/-- What the driver's report does: nothing, another try, or the end of the tries. -/
theorem cecTransmitDoneTs_cases (t : TxDone) (a : TxAdap) :
    a.transmitting = none ∧ cecTransmitDoneTs t a = { a with transmitInProgress := false } ∨
      ∃ d, a.transmitting = some d ∧
        (t.attemptsMade < (a.data d).attempts ∧
            t.status &&& (CEC_TX_STATUS_MAX_RETRIES ||| CEC_TX_STATUS_OK) = 0 ∧
            cecTransmitDoneTs t a = retry t (recordDone t a d) d ∨
          t.status &&& CEC_TX_STATUS_OK ≠ 0 ∧ cecTransmitDoneTs t a = awaitReply (finishDone t a d) d ∨
          cecTransmitDoneTs t a = cecDataCompleted (finishDone t a d) d) := by
  unfold cecTransmitDoneTs
  rcases ht : a.transmitting with _ | d
  · exact Or.inl ⟨rfl, rfl⟩
  · refine Or.inr ⟨d, rfl, ?_⟩
    dsimp only
    split
    · next hretry => exact Or.inl ⟨hretry.1, hretry.2, rfl⟩
    · split
      · next hwait => exact Or.inr (Or.inl ⟨hwait.1, rfl⟩)
      · exact Or.inr (Or.inr rfl)

end Done

/-! ## Timeouts, replies and callers -/

section Others

variable {a b : TxAdap} {d e : DataPtr} {tries : List Bool}

/-- A transmit that is on its way no more is taken from its list. -/
theorem settles_listDelInit (hg : Gone a d) : Settles a (a.listDelInit d) := by
  have hact : ∀ e, Active (a.listDelInit d) e ↔ Active a e := by
    intro e
    by_cases he : e = d
    · subst he
      exact iff_of_false (fun h => hg.2 (h.imp_left List.mem_of_mem_erase)) hg.2
    · exact or_congr (List.mem_erase_of_ne he) Iff.rfl
  refine ⟨rfl, List.erase_sublist, Or.inl rfl, fun _ _ => rfl, fun e hs => ?_, fun _ hs => hs,
    fun e hw => Or.inl (List.mem_of_mem_erase hw), fun e hh => Or.inl (hh.imp_left List.mem_of_mem_erase)⟩
  rw [StatusOk, hact]
  exact hs

theorem settles_cecWaitTimeout (h : Attempted a) (now : ℕ) (hd : (a.data d).running = true) :
    Settles a (cecWaitTimeout now a d) := by
  have hg := h.held d (Or.inr (Or.inr (Or.inr hd)))
  have hrun : Settles a (a.modify d fun data => { data with running := false }) :=
    settles_modify (fun _ => rfl) rfl fun _ => Or.inr hg
  unfold cecWaitTimeout
  dsimp only
  generalize a.modify d (fun data => { data with running := false }) = b at hrun ⊢
  split
  · have hdel := settles_listDelInit (hrun.gone hg)
    have hmod : Settles (b.listDelInit d) ((b.listDelInit d).modify d (timedOut now)) :=
      settles_modify (fun _ => rfl) rfl fun hp => Or.inl (Or.inr (Or.inr hp))
    have hall := hrun.trans (hdel.trans hmod)
    exact hall.trans (settles_cecDataCompleted (hall.gone hg))
  · exact hrun

theorem settles_writeBack {w : WaitingData} (hw : SameStatus a w) : Settles a (writeBack a w) :=
  settles_modify (fun _ => rfl) hw fun hp => Or.inl (Or.inr (Or.inr hp))

theorem settles_foldl_writeBack {l : List WaitingData} (hl : ∀ w ∈ l, SameStatus a w) :
    Settles a (l.foldl writeBack a) ∧
      ∀ d, ((l.foldl writeBack a).data d).msg.txStatus = (a.data d).msg.txStatus := by
  induction l generalizing a with
  | nil => exact ⟨Settles.refl a, fun _ => rfl⟩
  | cons w l ih =>
    have hw := hl w (List.mem_cons_self ..)
    have hkeep := writeBack_txStatus hw
    obtain ⟨hs, hk⟩ := ih (a := writeBack a w) fun v hv => (hl v (List.mem_cons_of_mem w hv)).trans (hkeep v.ptr).symm
    exact ⟨(settles_writeBack hw).trans hs, fun d => (hk d).trans (hkeep d)⟩

/-- A transmit that got its reply is completed, or left with the receiver. -/
theorem settles_takeReply {w : WaitingData} (hw : SameStatus a w) (hg : Gone a w.ptr) :
    Settles a (takeReply a w).1 ∧ ∀ e, (takeReply a w).2 = some e → e = w.ptr := by
  have hback := (settles_writeBack hw).trans (settles_listDelInit ((settles_writeBack hw).gone hg))
  unfold takeReply
  dsimp only
  split
  · have hstop : Settles ((writeBack a w).listDelInit w.ptr) (((writeBack a w).listDelInit w.ptr).modify w.ptr
        fun data => { data with pending := false }) :=
      settles_modify (fun _ => rfl) rfl fun hp => hp.elim (fun hp => absurd hp Bool.false_ne_true)
        fun hr => Or.inl (Or.inr (Or.inr (Or.inr hr)))
    have hall := hback.trans hstop
    exact ⟨hall.trans (settles_cecDataCompleted (hall.gone hg)), fun e he => absurd he (by simp)⟩
  · exact ⟨hback, fun e he => (Option.some.inj he).symm⟩

/-- **A received message** settles the transmit that it answers. -/
theorem settles_cecReceivedSection (h : Attempted a) (msg : CecMsg) (ts : ℕ) :
    Settles a (cecReceivedSection msg ts a).1 ∧
      ∀ e, (cecReceivedSection msg ts a).2 = some e → Gone a e := by
  have hold := sameStatus_waitingData a a.waitQueue
  have hlog : Settles a { a with lastInitiator := (cecReceivedMsgTs (rxAdap a) msg ts).adap.lastInitiator } :=
    Settles.of_eq rfl rfl rfl rfl rfl rfl
  unfold cecReceivedSection
  dsimp only
  rcases cecReceivedMsgTs_cases (rxAdap a) msg ts with
    ⟨-, hdone, hqueue⟩ | ⟨before, d, after, data, -, ⟨hsplit, -, -⟩, hdone, hholds, hqueue⟩
  · rw [hdone]
    have hfold := settles_foldl_writeBack
      (a := { a with lastInitiator := (cecReceivedMsgTs (rxAdap a) msg ts).adap.lastInitiator })
      (sameStatus_of_waitsOn hold hqueue)
    exact ⟨hlog.trans hfold.1, fun e he => absurd he (by simp)⟩
  · rw [hdone]
    have hsub : ∀ e ∈ before ++ after, SameStatus a e := by
      intro e he
      refine hold e ?_
      change e ∈ (rxAdap a).waitQueue
      rw [hsplit]
      rcases List.mem_append.mp he with he | he
      · exact List.mem_append_left _ he
      · exact List.mem_append_right _ (List.mem_cons_of_mem d he)
    obtain ⟨hs, hk⟩ := settles_foldl_writeBack
      (a := { a with lastInitiator := (cecReceivedMsgTs (rxAdap a) msg ts).adap.lastInitiator })
      (sameStatus_of_waitsOn hsub hqueue)
    obtain ⟨d', hd', rfl⟩ : ∃ d' ∈ a.waitQueue, waitingData a d' = d := by
      refine List.mem_map.mp ?_
      change d ∈ (rxAdap a).waitQueue
      rw [hsplit]
      exact List.mem_append_right _ (List.mem_cons_self ..)
    obtain ⟨hptr, -, -, -, -, hstatus, -⟩ := hholds
    have hptr' : data.ptr = d' := hptr
    have hg : Gone a data.ptr := by
      rw [hptr']
      exact h.held d' (Or.inl hd')
    have hsame : SameStatus ((cecReceivedMsgTs (rxAdap a) msg ts).adap.waitQueue.foldl writeBack
        { a with lastInitiator := (cecReceivedMsgTs (rxAdap a) msg ts).adap.lastInitiator }) data := by
      unfold SameStatus
      rw [hk, hptr']
      exact hstatus
    have hall := hlog.trans hs
    obtain ⟨htake, hwho⟩ := settles_takeReply hsame (hall.gone hg)
    exact ⟨hall.trans htake, fun e he => (hwho e he) ▸ hg⟩

theorem settles_cecReleaseTransmits (a : TxAdap) (fh : Fh) : Settles a (cecReleaseTransmits a fh) := by
  have hunhook : ∀ (b : TxAdap) (d : DataPtr), Settles b (unhookReleased fh b d) := by
    intro b d
    have hmod : Settles b (b.modify d fun data => { data with blocking := false, fh := none }) :=
      settles_modify (fun _ => rfl) rfl fun hp => Or.inl (Or.inr (Or.inr hp))
    exact hmod.trans (Settles.of_eq rfl rfl rfl rfl rfl rfl)
  unfold cecReleaseTransmits
  generalize a.xferList fh = l
  induction l generalizing a with
  | nil => exact Settles.refl a
  | cons d l ih => exact (hunhook a d).trans (ih _)

theorem settles_cecTransmitFinish (h : Attempted a) (hd : d < a.allocated) (now : ℕ) :
    Settles a (cecTransmitFinish now a d) := by
  have hfree : ∀ b : TxAdap, Settles b (b.kfree d) := fun b => Settles.of_eq rfl rfl rfl rfl rfl rfl
  unfold cecTransmitFinish
  split
  · exact hfree a
  · exact (settles_cecDataCancel h hd now (Or.inl (by decide))).trans (hfree _)

theorem settles_cecAdapUnconfigure (h : Attempted a) (now : ℕ) : Settles a (cecAdapUnconfigure now a) := by
  unfold cecAdapUnconfigure
  generalize hcfg : ({ a.cfg with logAddrMask := 0, isConfiguring := false, isConfigured := false } : Config) = cfg
  have hset : Settles a { a with cfg := cfg } := Settles.of_eq rfl rfl rfl rfl rfl rfl
  exact hset.trans (settles_cecFlush now (hset.attempted h))

/-! ## New transmits -/

theorem enqueue_self (msg : CecMsg) (fh : Option Fh) (block : Bool) :
    (enqueue a msg fh block).data a.allocated =
      { msg := msg, fh := fh, attempts := 0, blocking := block, completed := false, pending := false,
        running := false } :=
  Function.update_self ..

theorem enqueue_of_ne (msg : CecMsg) (fh : Option Fh) (block : Bool) (he : e ≠ a.allocated) :
    (enqueue a msg fh block).data e = a.data e :=
  Function.update_of_ne he ..

theorem active_enqueue (msg : CecMsg) (fh : Option Fh) (block : Bool) :
    Active (enqueue a msg fh block) e ↔ e = a.allocated ∨ Active a e := by
  show e ∈ a.transmitQueue ++ [a.allocated] ∨ _ ↔ _ ∨ _ ∨ _
  rw [List.mem_append, List.mem_singleton]
  tauto

/-- **A message is queued** as a transmit that is unsent. -/
theorem attempted_enqueue (h : Attempted a) {msg : CecMsg} (hmsg : msg.txStatus = 0) (fh : Option Fh)
    (block : Bool) : Attempted (enqueue a msg fh block) := by
  have hfresh : ¬ Active a a.allocated := fun hact => Nat.lt_irrefl _ (h.active _ hact)
  have hgone : ∀ e, Gone a e → e ≠ a.allocated ∧ Gone (enqueue a msg fh block) e := by
    intro e he
    have hne := Nat.ne_of_lt he.1
    exact ⟨hne, Nat.lt_succ_of_lt he.1, fun hact => ((active_enqueue msg fh block).mp hact).elim hne he.2⟩
  refine ⟨?_, fun e he hq => ?_, fun e he => ?_, fun e he => ?_, fun e he => ?_, fun e he => ?_⟩
  · exact List.nodup_append.mpr ⟨h.nodup, List.nodup_singleton _, fun x hx y hy heq =>
      hfresh (Or.inl ((List.mem_singleton.mp hy) ▸ heq ▸ hx))⟩
  · rcases List.mem_append.mp hq with hq | hq
    · exact h.apart e he hq
    · exact hfresh ((List.mem_singleton.mp hq) ▸ Or.inr he)
  · rcases (active_enqueue msg fh block).mp he with rfl | hact
    · exact Nat.lt_succ_self _
    · exact Nat.lt_succ_of_lt (h.active e hact)
  · rw [StatusOk, active_enqueue]
    rcases Nat.lt_succ_iff_lt_or_eq.mp he with hlt | rfl
    · have hne := Nat.ne_of_lt hlt
      rw [or_iff_right hne, enqueue_of_ne msg fh block hne]
      exact h.status e hlt
    · refine Or.inl ⟨Or.inl rfl, ?_⟩
      rw [enqueue_self]
      dsimp only
      rw [hmsg]
      exact ⟨rfl, rfl⟩
  · rw [enqueue_of_ne msg fh block (hgone e (h.held e (Or.inl he))).1]
    exact h.waiting e he
  · by_cases hne : e = a.allocated
    · subst hne
      have hnone : ∀ {p : Prop}, (p → Held a a.allocated) → ¬ p := fun hp hq =>
        (hgone _ (h.held _ (hp hq))).1 rfl
      rcases he with hw | hc | hp
      · exact absurd hw (hnone Or.inl)
      · exact absurd hc (hnone fun hc => Or.inr (Or.inl hc))
      · rw [enqueue_self] at hp
        exact hp.elim (fun hp => absurd hp Bool.false_ne_true) fun hr => absurd hr Bool.false_ne_true
    · rw [Held, enqueue_of_ne msg fh block hne] at he
      exact (hgone e (h.held e he)).2

theorem Budget.enqueue (h : Budget a tries e) (ha : Attempted a) (msg : CecMsg) (fh : Option Fh) (block : Bool) :
    Budget (Cec.enqueue a msg fh block) tries e := by
  by_cases he : e = a.allocated
  · subst he
    obtain rfl := h.fresh (Nat.le_refl _)
    refine ⟨h.spent, fun _ => Or.inl ⟨by rw [enqueue_self], rfl⟩, fun ht => ?_, fun _ => rfl⟩
    exact absurd (ha.active _ (Or.inr ht)) (Nat.lt_irrefl _)
  · refine ⟨h.spent, fun hq => ?_, fun ht => ?_, fun hle => h.fresh (Nat.le_of_succ_le hle)⟩
    · rw [enqueue_of_ne msg fh block he]
      rcases List.mem_append.mp hq with hq | hq
      · exact h.queued hq
      · exact absurd (List.mem_singleton.mp hq) he
    · rw [enqueue_of_ne msg fh block he]
      exact h.sending ht

end Others

/-! ## Runs -/

/-- What every step keeps. -/
structure WithinBudget (s : TrySys) : Prop where
  attempted : Attempted s.sys.adap
  slot : SlotInProgress s.sys.adap
  receiving : ∀ d ∈ s.sys.receiving, Gone s.sys.adap d
  caller : ∀ d, s.sys.caller d ≠ none → d < s.sys.adap.allocated
  budget : ∀ d, Budget s.sys.adap (s.tries d) d

theorem WithinBudget.bounded {s : TrySys} (h : WithinBudget s) : RetriesBounded s := by
  refine ⟨fun d => ?_, fun d hd => ?_, fun d hd => ?_⟩
  · refine (h.budget d).spent.trans ?_
    unfold limit
    split <;> decide
  · have hspent := (h.budget d).spent
    rwa [limit, if_pos hd] at hspent
  · have hg := h.attempted.held d (Or.inr (Or.inl hd))
    exact (h.attempted.status d hg.1).elim (fun hon => absurd hon.1 hg.2) And.right

/-- A step that settles transmits and calls no driver. -/
theorem WithinBudget.settles {s : TrySys} (h : WithinBudget s) {t : TxSys} (hs : Settles s.sys.adap t.adap)
    (hslot : SlotInProgress t.adap) (hrec : ∀ d ∈ t.receiving, d ∈ s.sys.receiving ∨ Gone s.sys.adap d)
    (hcall : ∀ d, t.caller d ≠ none → s.sys.caller d ≠ none) : WithinBudget ⟨t, s.tries⟩ where
  attempted := hs.attempted h.attempted
  slot := hslot
  receiving d hd := hs.gone ((hrec d hd).elim (h.receiving d) id)
  caller d hd := hs.allocated ▸ h.caller d (hcall d hd)
  budget d := (h.budget d).settles hs

theorem withinBudget_initial (needsHpd : Bool) (cfg : Config) : WithinBudget (TrySys.initial needsHpd cfg) := by
  refine ⟨⟨List.nodup_nil, fun d hd => absurd hd (by simp [TrySys.initial, TxSys.initial]), fun d hd => ?_,
    fun d hd => absurd hd (Nat.not_lt_zero d), fun d hd => absurd hd List.not_mem_nil, fun d hd => ?_⟩,
    slotInProgress_of_none rfl, fun d hd => absurd hd List.not_mem_nil, fun d hd => absurd rfl hd, fun d => ?_⟩
  · exact hd.elim (fun hq => absurd hq List.not_mem_nil) fun ht => absurd ht (by simp [TrySys.initial, TxSys.initial])
  · rcases hd with hw | hc | hp | hr
    · exact absurd hw List.not_mem_nil
    · exact absurd hc List.not_mem_nil
    · exact absurd hp Bool.false_ne_true
    · exact absurd hr Bool.false_ne_true
  · exact ⟨Nat.zero_le _, fun hq => absurd hq List.not_mem_nil,
      fun ht => absurd ht (by simp [TrySys.initial, TxSys.initial]), fun _ => rfl⟩

/-- The main thread hands a transmit to the driver, or settles what it flushes. -/
theorem WithinBudget.thread {s : TrySys} (h : WithinBudget s) (timeout stop accepts : Bool) (now : ℕ) :
    WithinBudget ⟨{ s.sys with adap := cecThreadFunc timeout stop accepts now s.sys.adap },
      triesAfter s (.thread timeout stop accepts now)⟩ := by
  have hslot := h.slot.cecThreadFunc timeout stop accepts now
  rcases cecThreadFunc_cases timeout stop accepts now s.sys.adap with ⟨hnone, hwhat⟩ | ⟨d, sft, hsome, hidle, hd, heq⟩
  · have hs : Settles s.sys.adap (cecThreadFunc timeout stop accepts now s.sys.adap) := by
      rcases hwhat with heq | heq | ⟨d, ht, heq⟩
      · rw [heq]
        exact settles_cecFlush now h.attempted
      · rw [heq]
        exact Settles.refl _
      · rw [heq]
        have hset : Settles s.sys.adap
            { s.sys.adap with transmitInProgress := false, txTimeouts := s.sys.adap.txTimeouts + 1 } :=
          Settles.of_eq rfl rfl rfl rfl rfl rfl
        exact hset.trans (settles_cecDataCancel (hset.attempted h.attempted) (h.attempted.active d (Or.inr ht)) now
          (Or.inl (by decide)))
    have htries : triesAfter s (.thread timeout stop accepts now) = s.tries := by
      show (handedOver timeout stop s.sys.adap).elim s.tries (recordTry s) = s.tries
      rw [hnone]
      rfl
    rw [htries]
    exact h.settles hs hslot (fun d hd => Or.inl hd) fun d hd => hd
  · have hempty : s.sys.adap.transmitting = none := by
      by_contra hne
      exact absurd ((h.slot hne).symm.trans hidle) (by decide)
    have hstart := attempted_startTransmit h.attempted hd hempty
    have hlt : d < (startTransmit s.sys.adap d).allocated := h.attempted.active d (Or.inl hd)
    have hs := settles_callDriver hstart hlt accepts now sft
    have htries : triesAfter s (.thread timeout stop accepts now) = recordTry s d := by
      show (handedOver timeout stop s.sys.adap).elim s.tries (recordTry s) = recordTry s d
      rw [hsome]
      rfl
    rw [htries, heq]
    rw [heq] at hslot
    refine ⟨hs.attempted hstart, hslot, fun e he => hs.gone ?_, fun e he => hs.allocated ▸ h.caller e he, fun e => ?_⟩
    · have hg := h.receiving e he
      exact ⟨hg.1, fun hact => hg.2 ((active_startTransmit hd hempty).mp hact)⟩
    · refine Budget.settles ?_ hs
      by_cases he : e = d
      · subst he
        obtain ⟨hspent, hpos, hle⟩ := (h.budget e).startTransmit hd
        show Budget _ (recordTry s e e) e
        rw [recordTry, Function.update_self]
        refine ⟨hspent, fun hq => absurd hq (hstart.apart e rfl), fun _ => ⟨hpos, List.cons_ne_nil _ _, hle⟩,
          fun hle' => absurd hlt (Nat.not_lt.mpr hle')⟩
      · show Budget _ (recordTry s d e) e
        rw [recordTry, Function.update_of_ne he]
        exact (h.budget e).startOther he

/-- The driver reports the end of a transmit. -/
theorem WithinBudget.done {s : TrySys} (h : WithinBudget s) {t : TxDone}
    (ht : t.status &&& CEC_TX_STATUS_OK = 0 ∨ t.status &&& CEC_TX_STATUS_MAX_RETRIES = 0) :
    WithinBudget ⟨{ s.sys with adap := cecTransmitDoneTs t s.sys.adap }, s.tries⟩ := by
  have hslot := slotInProgress_cecTransmitDoneTs t s.sys.adap
  rcases cecTransmitDoneTs_cases t s.sys.adap with ⟨-, heq⟩ | ⟨d, hd, ⟨hleft, hstatus, heq⟩ | hend⟩
  · refine h.settles ?_ hslot (fun d hd => Or.inl hd) fun d hd => hd
    rw [heq]
    exact Settles.of_eq rfl rfl rfl rfl rfl rfl
  · rw [heq] at hslot ⊢
    have hact := fun e => active_retry (e := e) h.attempted hd t
    refine ⟨attempted_retry h.attempted hd hstatus, hslot, fun e he => ?_, fun e he => h.caller e he,
      fun e => (h.budget e).retry hd hleft⟩
    have hg := h.receiving e he
    exact ⟨hg.1, fun hon => hg.2 ((hact e).mp hon)⟩
  · obtain ⟨hs, hg⟩ := settles_finishDone h.attempted hd ht
    refine h.settles (hs.trans ?_) hslot (fun d hd => Or.inl hd) fun d hd => hd
    rcases hend with ⟨hok, heq⟩ | heq
    · rw [heq]
      refine settles_awaitReply hg ?_
      rw [finishDone_self, doneTrying]
      dsimp only
      rw [if_neg hok]
      exact TxDone.txOk_record_eq_true _ hok
    · rw [heq]
      exact settles_cecDataCompleted hg

/-- A message is accepted, or not. -/
theorem WithinBudget.submit {s : TrySys} (h : WithinBudget s) {msg : CecMsg} {fh : Option Fh}
    {block rawio memory : Bool} {now : ℕ} {t : TxSys}
    (hs : txStep s.sys (.submit msg fh block rawio memory now) = some t) : WithinBudget ⟨t, s.tries⟩ := by
  have hkept := slotKept_cecTransmitMsgFh s.sys.adap msg fh block rawio memory now
  simp only [txStep] at hs
  split at hs
  · obtain rfl := Option.some.inj hs
    have hslot := h.slot.of_kept hkept
    rcases cecTransmitMsgFh_cases s.sys.adap msg fh block rawio memory now with
      ⟨hnone, sequence, hadap⟩ | ⟨-, hsome, sequence, msg', hmsg, hadap⟩
    · rw [hadap] at hslot ⊢
      rw [hnone, Option.elim_none, ite_self]
      exact h.settles (Settles.of_eq rfl rfl rfl rfl rfl rfl) hslot (fun d hd => Or.inl hd) fun d hd => hd
    · have hseq : Settles s.sys.adap { s.sys.adap with sequence := sequence } :=
        Settles.of_eq rfl rfl rfl rfl rfl rfl
      have hat := hseq.attempted h.attempted
      rw [hadap] at hslot ⊢
      rw [hsome, Option.elim_some]
      refine ⟨attempted_enqueue hat hmsg fh block, hslot, fun d hd => ?_, fun d hd => ?_,
        fun d => ((h.budget d).settles hseq).enqueue hat msg' fh block⟩
      · have hg := h.receiving d hd
        refine ⟨Nat.lt_succ_of_lt hg.1, fun hact => ?_⟩
        exact ((active_enqueue msg' fh block).mp hact).elim (Nat.ne_of_lt hg.1) hg.2
      · by_cases he : d = s.sys.adap.allocated
        · rw [he]
          exact Nat.lt_succ_self _
        · refine Nat.lt_succ_of_lt (h.caller d ?_)
          intro hnone
          refine hd ?_
          dsimp only
          split
          · rw [Function.update_of_ne he, hnone]
          · exact hnone
  · exact absurd hs.symm (Option.some_ne_none t)

/-- **A step** keeps every transmit within its budget. -/
theorem withinBudget_tryStep {s t : TrySys} {e : TxAct} (h : WithinBudget s) (hr : ReportsOnce e)
    (hs : tryStep s e = some t) : WithinBudget t := by
  obtain ⟨u, hu, rfl⟩ := Option.map_eq_some_iff.mp hs
  have hno : ∀ {p : Prop} [Decidable p] {x : TxSys}, (if p then some x else none) = some u → p ∧ x = u := by
    intro p _ x hx
    by_cases hpos : p
    · rw [if_pos hpos] at hx
      exact ⟨hpos, Option.some.inj hx⟩
    · rw [if_neg hpos] at hx
      exact absurd hx.symm (Option.some_ne_none u)
  have hcaller : ∀ {d : DataPtr} {c : Option Phase}, s.sys.caller d ≠ none → ∀ e,
      Function.update s.sys.caller d c e ≠ none → s.sys.caller e ≠ none := by
    intro d c hd e he
    by_cases hed : e = d
    · rwa [hed]
    · rwa [Function.update_of_ne hed] at he
  cases e with
  | submit msg fh block rawio memory now => exact h.submit hu
  | woken d =>
    obtain ⟨hg, rfl⟩ := hno hu
    exact h.settles (Settles.refl _) h.slot (fun e he => Or.inl he) (hcaller (by rw [hg.1]; exact Option.some_ne_none _))
  | killed d =>
    obtain ⟨hg, rfl⟩ := hno hu
    exact h.settles (Settles.refl _) h.slot (fun e he => Or.inl he) (hcaller (by rw [hg.1]; exact Option.some_ne_none _))
  | cancelSync d =>
    obtain ⟨hg, rfl⟩ := hno hu
    have hstop : Settles s.sys.adap (s.sys.adap.modify d fun data => { data with pending := false }) :=
      settles_modify (fun _ => rfl) rfl fun hp => hp.elim (fun hp => absurd hp Bool.false_ne_true)
        fun hr => Or.inl (Or.inr (Or.inr (Or.inr hr)))
    exact h.settles hstop h.slot (fun e he => Or.inl he) (hcaller (by rw [hg.1]; exact Option.some_ne_none _))
  | finish d now =>
    obtain ⟨hg, rfl⟩ := hno hu
    have hsome : s.sys.caller d ≠ none := by
      rw [hg]
      exact Option.some_ne_none _
    exact h.settles (settles_cecTransmitFinish h.attempted (h.caller d hsome) now)
      (h.slot.of_kept (slotKept_cecTransmitFinish now s.sys.adap d)) (fun e he => Or.inl he) (hcaller hsome)
  | thread timeout stop accepts now =>
    obtain rfl := Option.some.inj hu
    exact h.thread timeout stop accepts now
  | done t =>
    obtain rfl := Option.some.inj hu
    exact h.done hr
  | receive msg ts =>
    obtain rfl := Option.some.inj hu
    obtain ⟨hset, hwho⟩ := settles_cecReceivedSection h.attempted msg ts
    refine h.settles hset (h.slot.of_kept (slotKept_cecReceivedSection msg ts s.sys.adap)) (fun e he => ?_)
      fun e he => he
    dsimp only at he
    rcases hd : (cecReceivedSection msg ts s.sys.adap).2 with _ | d
    · rw [hd] at he
      exact Or.inl he
    · rw [hd] at he
      rcases List.mem_cons.mp he with rfl | he
      · exact Or.inr (hwho _ hd)
      · exact Or.inl he
  | flushed d =>
    obtain ⟨hg, rfl⟩ := hno hu
    exact h.settles (settles_cecDataCompleted (h.receiving d hg.1))
      (h.slot.of_kept (slotKept_cecDataCompleted s.sys.adap d)) (fun e he => Or.inl (List.mem_of_mem_erase he))
      fun e he => he
  | timer d =>
    obtain ⟨hg, rfl⟩ := hno hu
    have hstart : Settles s.sys.adap
        (s.sys.adap.modify d fun data => { data with pending := false, running := true }) :=
      settles_modify (fun _ => rfl) rfl fun _ => Or.inl (Or.inr (Or.inr (Or.inl hg)))
    exact h.settles hstart h.slot (fun e he => Or.inl he) fun e he => he
  | timeout d now =>
    obtain ⟨hg, rfl⟩ := hno hu
    exact h.settles (settles_cecWaitTimeout h.attempted now hg)
      (h.slot.of_kept (slotKept_cecWaitTimeout now s.sys.adap d)) (fun e he => Or.inl he) fun e he => he
  | unconfigure now =>
    obtain rfl := Option.some.inj hu
    exact h.settles (settles_cecAdapUnconfigure h.attempted now)
      (h.slot.of_kept (slotKept_cecAdapUnconfigure now s.sys.adap)) (fun e he => Or.inl he) fun e he => he
  | configure cfg =>
    obtain rfl := Option.some.inj hu
    exact h.settles (Settles.of_eq rfl rfl rfl rfl rfl rfl) h.slot (fun e he => Or.inl he) fun e he => he
  | openFh fh =>
    obtain rfl := Option.some.inj hu
    exact h.settles (Settles.refl _) h.slot (fun e he => Or.inl he) fun e he => he
  | release fh =>
    obtain ⟨hg, rfl⟩ := hno hu
    exact h.settles (settles_cecReleaseTransmits s.sys.adap fh)
      (h.slot.of_kept (slotKept_cecReleaseTransmits s.sys.adap fh)) (fun e he => Or.inl he) fun e he => he

/-- **Retries are bounded in every run**: `adap_transmit` is called four times at most for a message, twice if the
first call was for a poll of a configured adapter, and a message that is completed was either sent or given up. -/
theorem retries_run (needsHpd : Bool) (cfg : Config) (es : List TxAct) (t : TrySys)
    (hr : ∀ e ∈ es, ReportsOnce e) (h : run tryStep (TrySys.initial needsHpd cfg) es = some t) :
    RetriesBounded t :=
  (run_inv_along (fun _ _ _ hs hP hstep => withinBudget_tryStep hs hP hstep) (withinBudget_initial needsHpd cfg)
    (Along.of_forall (P := fun _ e => ReportsOnce e) fun e he _ => hr e he) h).bounded

/-- The transmit was not acknowledged. -/
def notAcknowledged : TxDone where
  status := CEC_TX_STATUS_NACK
  arbLostCnt := 0
  nackCnt := 1
  lowDriveCnt := 0
  errorCnt := 0
  ts := 0

/-- A poll of the TV is not acknowledged, twice. -/
theorem retries_run_poll : ∃ t, run tryStep (TrySys.initial true playback)
    [.submit (message 1 0x40 0 0 0) none true false true 0, .thread false false true 1, .done notAcknowledged,
      .thread false false true 2, .done notAcknowledged, .thread false false true 3] = some t ∧ RetriesBounded t := by
  have hgo : (run tryStep (TrySys.initial true playback)
      [.submit (message 1 0x40 0 0 0) none true false true 0, .thread false false true 1, .done notAcknowledged,
        .thread false false true 2, .done notAcknowledged, .thread false false true 3]).isSome = true := by
    decide +kernel
  obtain ⟨t, ht⟩ := Option.isSome_iff_exists.mp hgo
  refine ⟨t, ht, retries_run true playback _ t (fun e he => ?_) ht⟩
  simp only [List.mem_cons, List.not_mem_nil, or_false] at he
  rcases he with rfl | rfl | rfl | rfl | rfl | rfl
  · trivial
  · trivial
  · exact Or.inl (by decide)
  · trivial
  · exact Or.inl (by decide)
  · trivial

end Cec
end TbsMedia
