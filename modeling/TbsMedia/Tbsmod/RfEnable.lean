import Mathlib
import TbsMedia.Tbsmod.Tbsmod

/-!
# Which channels are switched on

A client that opens a channel reads the register, sets the bit of the channel and writes the register
back, and one that releases it does the same with the bit cleared.  The bits are those of the open
channels as long as two things do not happen: that another client writes the register between the two
transactions, and that a channel is released which somebody else still has open, since nobody counts.

* `Clean`: the writes by which the register stays exact.
* `rfEnable_exact`: it is exact after every run whose writes are clean.
-/

namespace TbsMedia
namespace Tbsmod

open Lib Function

/-! ## Handles -/

/-- The channel that a client has a handle of. -/
def Client.handle : Client → Option (Fin CHANNELS)
  | .opened i => some i
  | .writing i _ _ => some i
  | _ => none

/-- The channel that a client has switched on, and has not yet switched off. -/
def Client.driven : Client → Option (Fin CHANNELS)
  | .opened i => some i
  | .writing i _ _ => some i
  | .releasing i => some i
  | .releasingRead i _ => some i
  | _ => none

/-- A client is in `tbsmod_open` or in `tbsmod_release`. -/
def Client.inCall : Client → Bool
  | .opening _ => true
  | .openingRead _ _ => true
  | .releasing _ => true
  | .releasingRead _ _ => true
  | _ => false

theorem Client.driven_of_handle {client : Client} {i : Fin CHANNELS} (h : client.handle = some i) :
    client.driven = some i := by
  cases client <;> first | exact h | cases h

theorem Client.handle_of_driven {client : Client} {i : Fin CHANNELS} (h : client.driven = some i)
    (hcall : client.inCall = false) : client.handle = some i := by
  cases client <;> first | exact h | cases hcall

/-! ## The register -/

/-- The bit of channel `i` in `AD9789_CHANNEL_ENABLE` is set. -/
def Enabled (dev : TbsPcieDev) (i : Fin CHANNELS) : Prop :=
  dev.channelEnable.toBitVec.getLsbD i = true

/-- Somebody has a handle of channel `i`. -/
def IsOpen (dev : TbsPcieDev) (i : Fin CHANNELS) : Prop := ∃ c, (dev.client c).handle = some i

/-- The write of a transaction is clean: apart from the bit of its own channel the register is still as
it has been read, and a channel that is switched off is not open. -/
def Clean (dev : TbsPcieDev) : ModEvent → Prop
  | .wt c =>
    match dev.client c with
    | .openingRead i buff => ∀ j, j ≠ i → (Enabled dev j ↔ buff.toBitVec.getLsbD j = true)
    | .releasingRead i buff =>
      (∀ j, j ≠ i → (Enabled dev j ↔ buff.toBitVec.getLsbD j = true)) ∧ ¬ IsOpen dev i
    | _ => True
  | _ => True

theorem getLsbD_channelBit (i j : Fin CHANNELS) :
    (channelBit i).toBitVec.getLsbD j = decide (i = j) := by
  revert i j
  decide

theorem getLsbD_switchOn (buff : UInt8) (i j : Fin CHANNELS) :
    (buff ||| channelBit i).toBitVec.getLsbD j = (buff.toBitVec.getLsbD j || decide (i = j)) := by
  rw [UInt8.toBitVec_or, BitVec.getLsbD_or, getLsbD_channelBit]

theorem getLsbD_switchOff (buff : UInt8) (i j : Fin CHANNELS) :
    (buff &&& ~~~channelBit i).toBitVec.getLsbD j =
      (buff.toBitVec.getLsbD j && !decide (i = j)) := by
  have hj : (j : ℕ) < 8 := Nat.lt_of_lt_of_le j.isLt (by decide)
  rw [UInt8.toBitVec_and, BitVec.getLsbD_and, UInt8.toBitVec_not, BitVec.getLsbD_not,
    getLsbD_channelBit, decide_eq_true hj, Bool.true_and]

/-! ## Steps that leave the register alone -/

/-- The register is as it was, and so are the handles. -/
structure SameRf (dev dev' : TbsPcieDev) : Prop where
  cardid : dev'.cardid = dev.cardid
  channelEnable : dev'.channelEnable = dev.channelEnable
  driven : ∀ c, (dev'.client c).driven = (dev.client c).driven
  handle : ∀ c, (dev'.client c).handle = (dev.client c).handle

theorem SameRf.refl (dev : TbsPcieDev) : SameRf dev dev :=
  ⟨rfl, rfl, fun _ => rfl, fun _ => rfl⟩

theorem SameRf.trans {dev dev' dev'' : TbsPcieDev} (h : SameRf dev dev') (h' : SameRf dev' dev'') :
    SameRf dev dev'' :=
  ⟨h'.cardid.trans h.cardid, h'.channelEnable.trans h.channelEnable,
    fun c => (h'.driven c).trans (h.driven c), fun c => (h'.handle c).trans (h.handle c)⟩

theorem SameRf.of_client {dev dev' : TbsPcieDev} (hcardid : dev'.cardid = dev.cardid)
    (hchannel : dev'.channelEnable = dev.channelEnable) (hclient : dev'.client = dev.client) :
    SameRf dev dev' :=
  ⟨hcardid, hchannel, fun c => by rw [hclient], fun c => by rw [hclient]⟩

/-- A client goes on with the handle it has. -/
theorem SameRf.setClient {dev : TbsPcieDev} {c : ℕ} {client : Client}
    (hdriven : client.driven = (dev.client c).driven)
    (hhandle : client.handle = (dev.client c).handle) : SameRf dev (dev.setClient c client) := by
  refine ⟨rfl, rfl, fun c' => ?_, fun c' => ?_⟩
  · by_cases hc : c' = c
    · rw [hc, client_setClient_self]
      exact hdriven
    · rw [client_setClient_of_ne hc]
  · by_cases hc : c' = c
    · rw [hc, client_setClient_self]
      exact hhandle
    · rw [client_setClient_of_ne hc]

theorem sameRf_setSpeed {dev dev' : TbsPcieDev} {i : Fin CHANNELS}
    (h : setSpeed dev i = some dev') : SameRf dev dev' := by
  unfold setSpeed at h
  dsimp only at h
  split_ifs at h
  · obtain ⟨speed, -, rfl⟩ := Option.map_eq_some_iff.mp h
    split_ifs <;> exact SameRf.of_client rfl rfl rfl
  · obtain rfl := Option.some.inj h
    exact SameRf.refl dev

theorem sameRf_startDmaTransfer {dev dev' : TbsPcieDev} {i : Fin CHANNELS}
    (h : startDmaTransfer dev i = some dev') : SameRf dev dev' := by
  obtain ⟨dev₁, hspeed, rfl⟩ := Option.map_eq_some_iff.mp h
  exact (sameRf_setSpeed hspeed).trans (SameRf.of_client rfl rfl rfl)

theorem sameRf_channelprocess {dev dev' : TbsPcieDev} {i : Fin CHANNELS}
    (h : channelprocess dev i = some dev') : SameRf dev dev' := by
  unfold channelprocess at h
  dsimp only at h
  split_ifs at h
  · have hsame := sameRf_startDmaTransfer h
    exact ⟨hsame.cardid, hsame.channelEnable, hsame.driven, hsame.handle⟩
  · obtain rfl := Option.some.inj h
    exact SameRf.of_client rfl rfl rfl
  · obtain ⟨delay, -, rfl⟩ := Option.map_eq_some_iff.mp h
    exact SameRf.of_client rfl rfl rfl

theorem sameRf_irqChannels {stat : UInt32} {is : List (Fin CHANNELS)} {dev dev' : TbsPcieDev}
    (h : irqChannels stat is dev = some dev') : SameRf dev dev' := by
  induction is generalizing dev with
  | nil =>
    obtain rfl := Option.some.inj h
    exact SameRf.refl dev
  | cons i is ih =>
    unfold irqChannels at h
    split_ifs at h
    · obtain ⟨dev₁, hprocess, h⟩ := Option.bind_eq_some_iff.mp h
      exact (sameRf_channelprocess hprocess).trans (ih h)
    · exact ih h

/-- A client goes on in `tbsmod_write`, or is done. -/
theorem SameRf.goOn {dev dev' : TbsPcieDev} (h : SameRf dev dev') {c : ℕ} {i : Fin CHANNELS}
    (hclient : (dev.client c).handle = some i) {client : Client} (hhandle : client.handle = some i) :
    SameRf dev (dev'.setClient c client) := by
  refine h.trans (SameRf.setClient ?_ ?_)
  · rw [h.driven, Client.driven_of_handle hclient, Client.driven_of_handle hhandle]
  · rw [h.handle, hclient, hhandle]

theorem sameRf_writeLoop {dev dev' : TbsPcieDev} {c : ℕ} {i : Fin CHANNELS} {data : List UInt8}
    {n : ℕ} (hclient : (dev.client c).handle = some i)
    (h : writeLoop dev c i data n = some dev') : SameRf dev dev' := by
  unfold writeLoop at h
  dsimp only at h
  split_ifs at h
  · obtain ⟨dev₁, hstart, rfl⟩ := Option.map_eq_some_iff.mp h
    have hsame := sameRf_startDmaTransfer hstart
    refine SameRf.goOn ?_ hclient rfl
    exact hsame.trans (SameRf.of_client rfl rfl rfl)
  · obtain rfl := Option.some.inj h
    exact (SameRf.refl dev).goOn hclient rfl
  · obtain rfl := Option.some.inj h
    refine SameRf.goOn ?_ hclient rfl
    exact SameRf.of_client rfl rfl rfl

theorem sameRf_writeWake {dev dev' : TbsPcieDev} {c : ℕ} {i : Fin CHANNELS} {data : List UInt8}
    {n : ℕ} (hclient : (dev.client c).handle = some i)
    (h : writeWake dev c i data n = some dev') : SameRf dev dev' := by
  unfold writeWake at h
  split_ifs at h
  · obtain rfl := Option.some.inj h
    exact (SameRf.refl dev).goOn hclient rfl
  · exact sameRf_writeLoop hclient h

/-! ## The invariant -/

/-- The bits of the open channels are set, and a bit that is set has been set by somebody who has not
yet cleared it. -/
structure RfInv (dev : TbsPcieDev) : Prop where
  card : rfEnable dev = true
  enabled : ∀ i, IsOpen dev i → Enabled dev i
  driven : ∀ i, Enabled dev i → ∃ c, (dev.client c).driven = some i

theorem RfInv.same {dev dev' : TbsPcieDev} (hinv : RfInv dev) (h : SameRf dev dev') :
    RfInv dev' := by
  have henabled : ∀ i, Enabled dev' i ↔ Enabled dev i := fun i => by
    unfold Enabled
    rw [h.channelEnable]
  refine ⟨?_, fun i ⟨c, hc⟩ => ?_, fun i hi => ?_⟩
  · have hcard := hinv.card
    unfold rfEnable at hcard ⊢
    rw [h.cardid]
    exact hcard
  · rw [h.handle] at hc
    exact (henabled i).mpr (hinv.enabled i ⟨c, hc⟩)
  · obtain ⟨c, hc⟩ := hinv.driven i ((henabled i).mp hi)
    exact ⟨c, (h.driven c).trans hc⟩

/-- A channel is switched on. -/
theorem RfInv.switchOn {dev : TbsPcieDev} (hinv : RfInv dev) {c : ℕ} {i : Fin CHANNELS}
    {buff : UInt8} (hclient : dev.client c = .openingRead i buff)
    (hclean : ∀ j, j ≠ i → (Enabled dev j ↔ buff.toBitVec.getLsbD j = true)) :
    RfInv ((ad9789Wt dev (buff ||| channelBit i)).setClient c (.opened i)) := by
  have henabled : ∀ j, Enabled ((ad9789Wt dev (buff ||| channelBit i)).setClient c (.opened i)) j ↔
      j = i ∨ Enabled dev j := by
    intro j
    change (buff ||| channelBit i).toBitVec.getLsbD j = true ↔ _
    rw [getLsbD_switchOn, Bool.or_eq_true, decide_eq_true_iff]
    by_cases hj : j = i
    · exact iff_of_true (Or.inr hj.symm) (Or.inl hj)
    · rw [hclean j hj, or_iff_left (Ne.symm hj), or_iff_right hj]
  refine ⟨hinv.card, fun j ⟨c', hc'⟩ => ?_, fun j hj => ?_⟩
  · rw [henabled]
    by_cases hc : c' = c
    · rw [hc, client_setClient_self] at hc'
      exact Or.inl (Option.some.inj hc').symm
    · rw [client_setClient_of_ne hc] at hc'
      exact Or.inr (hinv.enabled j ⟨c', hc'⟩)
  · rcases (henabled j).mp hj with rfl | hj
    · exact ⟨c, by rw [client_setClient_self]; rfl⟩
    · obtain ⟨c', hc'⟩ := hinv.driven j hj
      have hc : c' ≠ c := by
        rintro rfl
        rw [hclient] at hc'
        cases hc'
      exact ⟨c', by rw [client_setClient_of_ne hc]; exact hc'⟩

/-- A channel that nobody has open is switched off. -/
theorem RfInv.switchOff {dev : TbsPcieDev} (hinv : RfInv dev) {c : ℕ} {i : Fin CHANNELS}
    {buff : UInt8} (hclient : dev.client c = .releasingRead i buff)
    (hclean : ∀ j, j ≠ i → (Enabled dev j ↔ buff.toBitVec.getLsbD j = true))
    (hopen : ¬ IsOpen dev i) :
    RfInv ((ad9789Wt dev (buff &&& ~~~channelBit i)).setClient c .closed) := by
  have henabled : ∀ j, Enabled ((ad9789Wt dev (buff &&& ~~~channelBit i)).setClient c .closed) j ↔
      j ≠ i ∧ Enabled dev j := by
    intro j
    change (buff &&& ~~~channelBit i).toBitVec.getLsbD j = true ↔ _
    rw [getLsbD_switchOff, Bool.and_eq_true, Bool.not_eq_true', decide_eq_false_iff_not]
    by_cases hj : j = i
    · exact iff_of_false (fun h => h.2 hj.symm) (fun h => h.1 hj)
    · rw [hclean j hj, and_iff_left (Ne.symm hj), and_iff_right hj]
  refine ⟨hinv.card, fun j ⟨c', hc'⟩ => ?_, fun j hj => ?_⟩
  · have hc : c' ≠ c := by
      rintro rfl
      rw [client_setClient_self] at hc'
      cases hc'
    rw [client_setClient_of_ne hc] at hc'
    refine (henabled j).mpr ⟨?_, hinv.enabled j ⟨c', hc'⟩⟩
    rintro rfl
    exact hopen ⟨c', hc'⟩
  · obtain ⟨hne, hj⟩ := (henabled j).mp hj
    obtain ⟨c', hc'⟩ := hinv.driven j hj
    have hc : c' ≠ c := by
      rintro rfl
      rw [hclient] at hc'
      exact hne (Option.some.inj hc').symm
    exact ⟨c', by rw [client_setClient_of_ne hc]; exact hc'⟩

/-- A client begins to release its channel. -/
theorem RfInv.release {dev : TbsPcieDev} (hinv : RfInv dev) {c : ℕ} {i : Fin CHANNELS}
    (hclient : dev.client c = .opened i) : RfInv (tbsmodRelease dev c i) := by
  have hcall : (tbsmodRelease dev c i).client = update dev.client c (.releasing i) :=
    congrArg (update dev.client c) (if_pos hinv.card)
  refine ⟨hinv.card, fun j ⟨c', hc'⟩ => ?_, fun j hj => ?_⟩
  · rw [hcall] at hc'
    have hc : c' ≠ c := by
      rintro rfl
      rw [update_self] at hc'
      cases hc'
    rw [update_of_ne hc] at hc'
    exact hinv.enabled j ⟨c', hc'⟩
  · obtain ⟨c', hc'⟩ := hinv.driven j hj
    refine ⟨c', ?_⟩
    rw [hcall]
    by_cases hc : c' = c
    · rw [hc, hclient] at hc'
      rw [hc, update_self]
      exact hc'
    · rw [update_of_ne hc]
      exact hc'

theorem RfInv.open {dev : TbsPcieDev} (hinv : RfInv dev) {c : ℕ} {i : Fin CHANNELS}
    (hclient : dev.client c = .closed) : RfInv (tbsmodOpen dev c i) := by
  have hcall : (tbsmodOpen dev c i).client = update dev.client c (.opening i) :=
    congrArg (update dev.client c) (if_pos hinv.card)
  refine hinv.same ⟨rfl, rfl, fun c' => ?_, fun c' => ?_⟩
  · rw [hcall]
    by_cases hc : c' = c
    · rw [hc, hclient, update_self]
      rfl
    · rw [update_of_ne hc]
  · rw [hcall]
    by_cases hc : c' = c
    · rw [hc, hclient, update_self]
      rfl
    · rw [update_of_ne hc]

/-- **A clean step** keeps the invariant. -/
theorem RfInv.step {dev dev' : TbsPcieDev} {e : ModEvent} (hinv : RfInv dev) (hclean : Clean dev e)
    (h : step dev e = some dev') : RfInv dev' := by
  have hidle : some dev = some dev' → RfInv dev' := fun h => by
    obtain rfl := Option.some.inj h
    exact hinv
  cases e with
  | «open» c i =>
    dsimp only [Tbsmod.step] at h
    cases hclient : dev.client c with
    | closed =>
      rw [hclient] at h
      obtain rfl := Option.some.inj h
      exact hinv.open hclient
    | _ => rw [hclient] at h; exact hidle h
  | rd c ok =>
    dsimp only [Tbsmod.step] at h
    cases hclient : dev.client c with
    | opening i =>
      rw [hclient] at h
      obtain rfl := Option.some.inj h
      exact hinv.same (SameRf.setClient (by rw [hclient]; rfl) (by rw [hclient]; rfl))
    | releasing i =>
      rw [hclient] at h
      obtain rfl := Option.some.inj h
      exact hinv.same (SameRf.setClient (by rw [hclient]; rfl) (by rw [hclient]; rfl))
    | _ => rw [hclient] at h; exact hidle h
  | wt c =>
    dsimp only [Tbsmod.step] at h
    dsimp only [Clean] at hclean
    cases hclient : dev.client c with
    | openingRead i buff =>
      rw [hclient] at h hclean
      obtain rfl := Option.some.inj h
      exact hinv.switchOn hclient hclean
    | releasingRead i buff =>
      rw [hclient] at h hclean
      obtain rfl := Option.some.inj h
      exact hinv.switchOff hclient hclean.1 hclean.2
    | _ => rw [hclient] at h; exact hidle h
  | inputBitrate c value =>
    dsimp only [Tbsmod.step] at h
    cases hclient : dev.client c with
    | opened i =>
      rw [hclient] at h
      obtain rfl := Option.some.inj h
      unfold ioctlInputBitrate
      refine hinv.same ?_
      split_ifs <;> exact SameRf.of_client rfl rfl rfl
    | _ => rw [hclient] at h; exact hidle h
  | write c data =>
    dsimp only [Tbsmod.step] at h
    cases hclient : dev.client c with
    | opened i =>
      rw [hclient] at h
      exact hinv.same (sameRf_writeLoop (by rw [hclient]; rfl) h)
    | _ => rw [hclient] at h; exact hidle h
  | wake c =>
    dsimp only [Tbsmod.step] at h
    cases hclient : dev.client c with
    | writing i data n =>
      rw [hclient] at h
      exact hinv.same (sameRf_writeWake (by rw [hclient]; rfl) h)
    | _ => rw [hclient] at h; exact hidle h
  | release c =>
    dsimp only [Tbsmod.step] at h
    cases hclient : dev.client c with
    | opened i =>
      rw [hclient] at h
      obtain rfl := Option.some.inj h
      exact hinv.release hclient
    | _ => rw [hclient] at h; exact hidle h
  | irq stat tmp =>
    have hsame := sameRf_irqChannels h
    exact hinv.same ⟨hsame.cardid, hsame.channelEnable, hsame.driven, hsame.handle⟩

/-! ## Runs -/

/-- No client is in `tbsmod_open` or `tbsmod_release`. -/
def Quiet (dev : TbsPcieDev) : Prop := ∀ c, (dev.client c).inCall = false

/-- The bits that are set are those of the channels that are open. -/
def RfExact (dev : TbsPcieDev) : Prop := ∀ i, Enabled dev i ↔ IsOpen dev i

/-- The card after a run. -/
def runs (cardid : ℕ) (dmaphy : Fin CHANNELS → UInt32) (events : List ModEvent) :
    Option TbsPcieDev :=
  run step (tbsmodProbe cardid dmaphy) events

theorem rfInv_probe {cardid : ℕ} (hcard : cardid = 0x6004 ∨ cardid = 0x6104 ∨ cardid = 0x6014)
    (dmaphy : Fin CHANNELS → UInt32) : RfInv (tbsmodProbe cardid dmaphy) := by
  refine ⟨decide_eq_true hcard, fun i ⟨c, hc⟩ => ?_, fun i hi => ?_⟩
  · cases hc
  · have hzero : ∀ j : Fin CHANNELS, ¬ (0 : UInt8).toBitVec.getLsbD j = true := by decide
    exact absurd hi (hzero i)

/-- **The register is exact** when no call is in progress, after every run of clients and interrupts
in which each write of the register is clean. -/
theorem rfEnable_exact {cardid : ℕ} (hcard : cardid = 0x6004 ∨ cardid = 0x6104 ∨ cardid = 0x6014)
    {dmaphy : Fin CHANNELS → UInt32} {events : List ModEvent} {dev : TbsPcieDev}
    (hclean : Along step Clean (tbsmodProbe cardid dmaphy) events)
    (h : runs cardid dmaphy events = some dev) (hquiet : Quiet dev) : RfExact dev := by
  have hinv : RfInv dev :=
    run_inv_along (fun _ _ _ hinv hclean h => hinv.step hclean h) (rfInv_probe hcard dmaphy) hclean h
  intro i
  constructor
  · intro hi
    obtain ⟨c, hc⟩ := hinv.driven i hi
    exact ⟨c, Client.handle_of_driven hc (hquiet c)⟩
  · exact hinv.enabled i

/-- One client after the other opens a channel. -/
def inTurn : List ModEvent := [.open 0 0, .rd 0 true, .wt 0, .open 1 1, .rd 1 true, .wt 1]

/-- Two clients open a channel at the same time. -/
def atOnce : List ModEvent := [.open 0 0, .rd 0 true, .open 1 1, .rd 1 true, .wt 0, .wt 1]

/-- Two clients open a channel, and one of them releases it. -/
def twice : List ModEvent :=
  [.open 0 0, .rd 0 true, .wt 0, .open 1 0, .rd 1 true, .wt 1, .release 1, .rd 1 true, .wt 1]

/-- Who only has two clients to look at. -/
theorem quiet_of_two {dev : TbsPcieDev} (h₀ : (dev.client 0).inCall = false)
    (h₁ : (dev.client 1).inCall = false)
    (hrest : ∀ c, c ≠ 0 → c ≠ 1 → dev.client c = .closed) : Quiet dev := by
  intro c
  by_cases hc₀ : c = 0
  · rw [hc₀]
    exact h₀
  · by_cases hc₁ : c = 1
    · rw [hc₁]
      exact h₁
    · rw [hrest c hc₀ hc₁]
      rfl

/-- The clients that open a channel one after the other have their bits. -/
theorem rfEnable_inTurn :
    Along step Clean (tbsmodProbe 0x6004 fun _ => 0) inTurn ∧
      ∃ dev, runs 0x6004 (fun _ => 0) inTurn = some dev ∧ Quiet dev ∧ RfExact dev := by
  have hclean : Along step Clean (tbsmodProbe 0x6004 fun _ => 0) inTurn := by
    refine ⟨trivial, fun _ h => ?_⟩
    obtain rfl := Option.some.inj h
    refine ⟨trivial, fun _ h => ?_⟩
    obtain rfl := Option.some.inj h
    refine ⟨fun j _ => Iff.rfl, fun _ h => ?_⟩
    obtain rfl := Option.some.inj h
    refine ⟨trivial, fun _ h => ?_⟩
    obtain rfl := Option.some.inj h
    refine ⟨trivial, fun _ h => ?_⟩
    obtain rfl := Option.some.inj h
    exact ⟨fun j _ => Iff.rfl, fun _ _ => trivial⟩
  obtain ⟨dev, hrun⟩ : ∃ dev, runs 0x6004 (fun _ => 0) inTurn = some dev := ⟨_, rfl⟩
  have hquiet : Quiet dev := by
    obtain rfl := Option.some.inj hrun
    refine quiet_of_two rfl rfl fun c h₀ h₁ => ?_
    rw [client_setClient_of_ne h₁, client_ad9789Wt, client_setClient_of_ne h₁,
      client_tbsmodOpen_of_ne h₁, client_setClient_of_ne h₀, client_ad9789Wt,
      client_setClient_of_ne h₀, client_tbsmodOpen_of_ne h₀]
    rfl
  exact ⟨hclean, dev, hrun, hquiet, rfEnable_exact (Or.inl rfl) hclean hrun hquiet⟩

/-- **The register is not exact** after two clients have opened two channels at the same time: the bit
of one is lost.  Nor is it when one of two clients releases the channel of both. -/
theorem not_rfEnable_exact :
    (∃ dev, runs 0x6004 (fun _ => 0) atOnce = some dev ∧ Quiet dev ∧ ¬ RfExact dev) ∧
      ∃ dev, runs 0x6004 (fun _ => 0) twice = some dev ∧ Quiet dev ∧ ¬ RfExact dev := by
  have hlost : ∀ dev : TbsPcieDev, IsOpen dev 0 → dev.channelEnable.toBitVec.getLsbD 0 = false →
      ¬ RfExact dev := fun dev hopen hzero hexact =>
    absurd ((hexact 0).mpr hopen) (Bool.eq_false_iff.mp hzero)
  refine ⟨⟨_, rfl, quiet_of_two rfl rfl fun c h₀ h₁ => ?_, hlost _ ⟨0, rfl⟩ rfl⟩,
    ⟨_, rfl, quiet_of_two rfl rfl fun c h₀ h₁ => ?_, hlost _ ⟨0, rfl⟩ rfl⟩⟩
  · rw [client_setClient_of_ne h₁, client_ad9789Wt, client_setClient_of_ne h₀, client_ad9789Wt,
      client_setClient_of_ne h₁, client_tbsmodOpen_of_ne h₁, client_setClient_of_ne h₀,
      client_tbsmodOpen_of_ne h₀]
    rfl
  · rw [client_setClient_of_ne h₁, client_ad9789Wt, client_setClient_of_ne h₁,
      client_tbsmodRelease_of_ne h₁, client_setClient_of_ne h₁, client_ad9789Wt,
      client_setClient_of_ne h₁, client_tbsmodOpen_of_ne h₁, client_setClient_of_ne h₀,
      client_ad9789Wt, client_setClient_of_ne h₀, client_tbsmodOpen_of_ne h₀]
    rfl

end Tbsmod
end TbsMedia
