import TbsMedia.Tbsci.Tbsci
import Mathlib

/-!
# The bit rate of a channel

Both divisions of the driver are by a multiple of the bit rate, and a client can set any bit rate.  The
multiple is a word, and it is zero if the lower twelve bits of the bit rate are.  Where a transfer is
started, the bit rate zero is looked for and no other one; where there is too little to be sent, not
even that.

* `step_eq_none_iff`: the events that divide by zero.
* `run_isSome_iff_noFault`: the runs that do not.
-/

namespace TbsMedia
namespace Tbsci

open Lib Function

variable {dev : TbsPcieDev} {i : Fin CHANNELS}

/-! ## Divisions -/

/-- A transfer of the channel cannot be started. -/
def SpeedFault (chan : CaChannel) : Prop := chan.wBitrate ≠ 0 ∧ chan.wBitrate.toNat % 4096 = 0

/-- A delay cannot be computed for the channel. -/
def ShortFault (chan : CaChannel) : Prop := chan.wBitrate.toNat % 4096 = 0

theorem divU64_eq_none (dividend : UInt64) (divisor : UInt32) :
    divU64 dividend divisor = none ↔ divisor = 0 := by
  rw [← Option.not_isSome_iff_eq_none, divU64_isSome, not_not]

theorem startOutdmaTransfer_eq_none :
    startOutdmaTransfer dev i = none ↔ SpeedFault (dev.channnel i) := by
  unfold startOutdmaTransfer setSpeed SpeedFault speedDivisor
  rw [Option.map_eq_none_iff]
  by_cases hzero : (dev.channnel i).wBitrate = 0
  · rw [if_neg (not_not.mpr hzero)]
    exact iff_of_false (fun h => nomatch h) fun h => h.1 hzero
  · rw [if_pos hzero, Option.map_eq_none_iff, divU64_eq_none, mul_mega_eq_zero]
    exact (and_iff_right hzero).symm

/-- The work of a channel divides by zero: it has a block to be sent and starts a transfer that cannot
be started, or it has less than a block and no delay. -/
def WorkFault (chan : CaChannel) : Prop :=
  if chan.wFifo.len ≥ WRITE_TOTAL_SIZE then chan.isOpen ≠ 0 ∧ SpeedFault chan else ShortFault chan

theorem writeDmaWork_eq_none : writeDmaWork dev i = none ↔ WorkFault (dev.channnel i) := by
  unfold writeDmaWork WorkFault
  dsimp only
  by_cases hblock : (dev.channnel i).wFifo.len ≥ WRITE_TOTAL_SIZE
  · rw [if_pos hblock, if_pos hblock, Option.map_eq_none_iff]
    by_cases hopen : (dev.channnel i).isOpen = 0
    · rw [if_neg (not_not.mpr hopen)]
      exact iff_of_false (fun h => nomatch h) fun h => h.1 hopen
    · rw [if_pos hopen, startOutdmaTransfer_eq_none, channnel_setChannel_self]
      exact (and_iff_right hopen).symm
  · rw [if_neg hblock, if_neg hblock, Option.map_eq_none_iff, divU64_eq_none]
    exact mul_mega_three_eq_zero _

theorem tsOpen_eq_none :
    tsOpen dev i = none ↔ (dev.channnel i).isOpen = 0 ∧ SpeedFault (dev.channnel i) := by
  have hle : (dev.channnel i).isOpen ≤ 0 ↔ (dev.channnel i).isOpen = 0 := UInt8.le_zero_iff
  unfold tsOpen
  dsimp only
  rw [Option.map_eq_none_iff]
  by_cases hopen : (dev.channnel i).isOpen = 0
  · rw [if_pos (hle.mpr hopen), startOutdmaTransfer_eq_none, channnel_setChannel_self]
    exact (and_iff_right hopen).symm
  · rw [if_neg (mt hle.mp hopen)]
    exact iff_of_false (fun h => nomatch h) fun h => hopen h.1

/-! ## Events -/

/-- The event divides by zero: somebody opens a channel that is not open and whose transfer cannot be
started, or work is done that divides by zero. -/
def Faults (dev : TbsPcieDev) : CiEvent → Prop
  | .open c i =>
    dev.client c = .closed ∧ (dev.channnel i).isOpen = 0 ∧ SpeedFault (dev.channnel i)
  | .work i => dev.writeWork i = true ∧ WorkFault (dev.channnel i)
  | _ => False

/-- **The events that divide by zero**. -/
theorem step_eq_none_iff (dev : TbsPcieDev) (e : CiEvent) : step dev e = none ↔ Faults dev e := by
  have hsome : ∀ dev' : TbsPcieDev, some dev' = none ↔ False := fun _ =>
    iff_of_false (fun h => nomatch h) id
  cases e with
  | «open» c i =>
    dsimp only [step, Faults]
    cases hclient : dev.client c with
    | closed =>
      dsimp only
      rw [Option.map_eq_none_iff, tsOpen_eq_none]
      exact (and_iff_right rfl).symm
    | _ => exact iff_of_false (fun h => nomatch h) fun h => nomatch h.1
  | work i =>
    dsimp only [step, Faults]
    by_cases hwork : dev.writeWork i = true
    · rw [if_pos hwork, writeDmaWork_eq_none]
      exact (and_iff_right hwork).symm
    · rw [if_neg hwork]
      exact iff_of_false (fun h => nomatch h) fun h => hwork h.1
  | irq stat => exact hsome _
  | inputBitrate c value =>
    dsimp only [step]
    cases dev.client c <;> exact hsome _
  | write c data =>
    dsimp only [step]
    cases dev.client c <;> exact hsome _
  | wake c timeout =>
    dsimp only [step]
    cases dev.client c <;> exact hsome _
  | release c =>
    dsimp only [step]
    cases dev.client c <;> exact hsome _

/-- **When the driver never divides by zero**: exactly if no channel is opened for the first time, and
no work of a channel is done, while its bit rate is a multiple of 4096; but with the bit rate zero a
transfer can be started. -/
theorem run_isSome_iff_noFault (wDmaphy : Fin CHANNELS → UInt32) (events : List CiEvent) :
    (run step (tbsAdaptersInit wDmaphy) events).isSome ↔
      Along step (fun dev e => ¬ Faults dev e) (tbsAdaptersInit wDmaphy) events := by
  have hstep : (fun dev e => (step dev e).isSome = true) = fun dev e => ¬ Faults dev e := by
    funext dev e
    rw [← step_eq_none_iff, ← Ne, Option.ne_none_iff_isSome]
  rw [run_isSome_iff, hstep]

local instance : NeZero CHANNELS := ⟨by decide⟩

/-- A client sets the bit rate zero, and an interrupt finds nothing to be sent. -/
def zeroRate : List CiEvent := [.open 0 0, .inputBitrate 0 0, .irq 0x40, .work 0]

/-- A client sets the bit rate 4096, releases the channel, and opens it again. -/
def wrappedRate : List CiEvent := [.open 0 0, .inputBitrate 0 4096, .release 0, .open 0 0]

/-- The driver divides by zero in `write_dma_work` and in `start_outdma_transfer`. -/
theorem not_run_isSome :
    run step (tbsAdaptersInit fun _ => 0) zeroRate = none ∧
      run step (tbsAdaptersInit fun _ => 0) wrappedRate = none := ⟨rfl, rfl⟩

end Tbsci
end TbsMedia
