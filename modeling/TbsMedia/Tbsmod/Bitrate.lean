import Mathlib
import TbsMedia.Tbsmod.Tbsmod

/-!
# The bit rate of a channel

An interrupt that finds less than a block in the queue of a channel that has been started divides by a
multiple of the bit rate.  `tbsmod_ioctl` takes every bit rate up to 200, and that is small enough for
the multiple not to wrap round, so the one bit rate to divide by zero with is zero.  It is taken as
well.

* `step_eq_none_iff`: the events that divide by zero.
* `runs_isSome_iff`: the runs that do not.
-/

namespace TbsMedia
namespace Tbsmod

open Lib Function

variable {dev dev' : TbsPcieDev} {i : Fin CHANNELS}

/-! ## The bit rates that are set -/

/-- All bit rates are such that `tbsmod_ioctl` takes them. -/
def BitrateLe (dev : TbsPcieDev) : Prop := ∀ i, (dev.channel i).inputBitrate.toNat ≤ 200

/-- The other events do not set a bit rate. -/
def SameBitrate (dev dev' : TbsPcieDev) : Prop :=
  ∀ i, (dev'.channel i).inputBitrate = (dev.channel i).inputBitrate

theorem SameBitrate.refl (dev : TbsPcieDev) : SameBitrate dev dev := fun _ => rfl

theorem SameBitrate.trans {dev'' : TbsPcieDev} (h : SameBitrate dev dev')
    (h' : SameBitrate dev' dev'') : SameBitrate dev dev'' := fun i => (h' i).trans (h i)

theorem SameBitrate.setChannel {channel : ModChannel}
    (h : channel.inputBitrate = (dev.channel i).inputBitrate) :
    SameBitrate dev (dev.setChannel i channel) := by
  intro j
  by_cases hj : j = i
  · rw [hj, channel_setChannel_self]
    exact h
  · rw [channel_setChannel_of_ne hj]

theorem SameBitrate.le (h : SameBitrate dev dev') (hle : BitrateLe dev) : BitrateLe dev' := by
  intro i
  rw [h i]
  exact hle i

/-! ## Divisors -/

/-- A bit rate that is taken has a multiple that is not zero, unless it is zero itself. -/
theorem mul_mega_ne_zero (hle : BitrateLe dev) (hne : (dev.channel i).inputBitrate ≠ 0) :
    (dev.channel i).inputBitrate * 1024 * 1024 ≠ 0 := by
  have hlt := hle i
  rw [Ne, eq_zero_iff_toNat] at hne
  rw [Ne, mul_mega_eq_zero]
  omega

theorem shortDivisor_eq_zero (hle : BitrateLe dev) :
    shortDivisor (dev.channel i) = 0 ↔ (dev.channel i).inputBitrate = 0 := by
  have hlt := hle i
  unfold shortDivisor
  rw [mul_mega_three_eq_zero, eq_zero_iff_toNat]
  omega

/-- A transfer is started without a division by zero, and leaves the channels alone. -/
theorem startDmaTransfer_spec (hle : BitrateLe dev) (i : Fin CHANNELS) :
    ∃ dev', startDmaTransfer dev i = some dev' ∧ dev'.channel = dev.channel := by
  have hspeed : ∃ dev', setSpeed dev i = some dev' ∧ dev'.channel = dev.channel := by
    unfold setSpeed
    dsimp only
    by_cases hzero : (dev.channel i).inputBitrate = 0
    · rw [if_neg (not_not.mpr hzero)]
      exact ⟨dev, rfl, rfl⟩
    · obtain ⟨speed, hdiv⟩ := Option.isSome_iff_exists.mp
        ((divU64_isSome (1000000000 * UInt64.ofNat BLOCKSIZE) _).mpr (mul_mega_ne_zero hle hzero))
      rw [if_pos hzero, hdiv]
      refine ⟨_, rfl, ?_⟩
      dsimp only
      split_ifs <;> rfl
  obtain ⟨dev₁, hset, hchannel⟩ := hspeed
  unfold startDmaTransfer
  rw [hset]
  exact ⟨_, rfl, hchannel⟩

/-! ## Interrupts -/

/-- The channel has been started, and there is less than a block in its queue. -/
def Short (channel : ModChannel) : Prop :=
  channel.fifo.len < BLOCKSIZE ∧ channel.dmaStartFlag = true

/-- The channel is short, and its bit rate is zero. -/
def Starved (channel : ModChannel) : Prop := Short channel ∧ channel.inputBitrate = 0

/-- What an interrupt does to a channel: it divides by zero exactly if the channel is starved, and
otherwise it leaves the bit rates and the other channels as they are. -/
theorem channelprocess_spec (hle : BitrateLe dev) (i : Fin CHANNELS) :
    (channelprocess dev i = none ↔ Starved (dev.channel i)) ∧
      ∀ dev', channelprocess dev i = some dev' →
        SameBitrate dev dev' ∧ ∀ j, j ≠ i → dev'.channel j = dev.channel j := by
  unfold channelprocess
  dsimp only
  by_cases hblock : (dev.channel i).fifo.len ≥ BLOCKSIZE
  · rw [if_pos hblock]
    have hsame : SameBitrate dev
        ((dev.write Int_adapter 0x00 ((0x10 : UInt32) <<< UInt32.ofNat i)).setChannel i
          { dev.channel i with
            dmavirt := (dev.channel i).fifo.front BLOCKSIZE
            fifo := (dev.channel i).fifo.drop BLOCKSIZE }) :=
      @SameBitrate.setChannel dev i _ rfl
    obtain ⟨dev', hstart, hchannel⟩ := startDmaTransfer_spec (hsame.le hle) i
    rw [hstart]
    refine ⟨iff_of_false (fun h => nomatch h) fun h => ?_, fun dev'' h => ?_⟩
    · exact Nat.not_lt.mpr hblock h.1.1
    · obtain rfl := Option.some.inj h
      refine ⟨fun j => ?_, fun j hj => ?_⟩
      · rw [hchannel]
        exact hsame j
      · rw [hchannel, channel_setChannel_of_ne hj]
        rfl
  · rw [if_neg hblock]
    cases hflag : (dev.channel i).dmaStartFlag with
    | false =>
      rw [if_pos rfl]
      refine ⟨iff_of_false (fun h => nomatch h) fun h => ?_, fun dev' h => ?_⟩
      · rw [h.1.2] at hflag
        cases hflag
      · obtain rfl := Option.some.inj h
        exact ⟨SameBitrate.refl dev, fun _ _ => rfl⟩
    | true =>
      rw [if_neg (by decide)]
      constructor
      · rw [Option.map_eq_none_iff, ← Option.not_isSome_iff_eq_none, divU64_isSome, not_not,
          shortDivisor_eq_zero hle]
        exact ⟨fun h => ⟨⟨Nat.lt_of_not_le hblock, hflag⟩, h⟩, fun h => h.2⟩
      · rintro dev' h
        obtain ⟨delay, -, rfl⟩ := Option.map_eq_some_iff.mp h
        exact ⟨SameBitrate.refl dev, fun _ _ => rfl⟩

/-- An interrupt divides by zero exactly if one of its channels is starved.  What happens to the
channels in front does not matter. -/
theorem irqChannels_spec (stat : UInt32) {is : List (Fin CHANNELS)} (hnodup : is.Nodup)
    (hle : BitrateLe dev) :
    (irqChannels stat is dev = none ↔ ∃ i ∈ is, dmaStatus stat i ∧ Starved (dev.channel i)) ∧
      ∀ dev', irqChannels stat is dev = some dev' → SameBitrate dev dev' := by
  induction is generalizing dev with
  | nil =>
    refine ⟨iff_of_false (fun h => nomatch h) fun ⟨_, h, _⟩ => (nomatch h), fun dev' h => ?_⟩
    obtain rfl := Option.some.inj h
    exact SameBitrate.refl dev
  | cons i is ih =>
    obtain ⟨hi, hnodup⟩ := List.nodup_cons.mp hnodup
    unfold irqChannels
    rw [List.exists_mem_cons_iff]
    by_cases hstat : dmaStatus stat i = true
    · rw [if_pos hstat]
      obtain ⟨hnone, hsome⟩ := channelprocess_spec hle i
      cases hprocess : channelprocess dev i with
      | none =>
        exact ⟨iff_of_true rfl (Or.inl ⟨hstat, hnone.mp hprocess⟩), fun _ h => nomatch h⟩
      | some dev₁ =>
        obtain ⟨hsame, hother⟩ := hsome dev₁ hprocess
        obtain ⟨ihnone, ihsome⟩ := ih hnodup (hsame.le hle)
        have hnot : ¬ Starved (dev.channel i) := fun h => by
          rw [hnone.mpr h] at hprocess
          cases hprocess
        have hrest : (∃ j ∈ is, dmaStatus stat j ∧ Starved (dev₁.channel j)) ↔
            ∃ j ∈ is, dmaStatus stat j ∧ Starved (dev.channel j) := by
          refine exists_congr fun j => and_congr_right fun hj => ?_
          rw [hother j (fun h => hi (h ▸ hj))]
        rw [or_iff_right fun h => hnot h.2, ← hrest]
        exact ⟨ihnone, fun dev' h => hsame.trans (ihsome dev' h)⟩
    · rw [if_neg hstat, or_iff_right fun h => hstat h.1]
      exact ih hnodup hle

/-! ## Events -/

/-- The event is an interrupt of a channel that is starved. -/
def Starves (dev : TbsPcieDev) : ModEvent → Prop
  | .irq stat _ => ∃ i, dmaStatus stat i ∧ Starved (dev.channel i)
  | _ => False

theorem tbsmodIrq_spec (hle : BitrateLe dev) (stat tmp : UInt32) :
    (tbsmodIrq dev stat tmp = none ↔ ∃ i, dmaStatus stat i ∧ Starved (dev.channel i)) ∧
      ∀ dev', tbsmodIrq dev stat tmp = some dev' → SameBitrate dev dev' := by
  have hmem : ∀ i : Fin CHANNELS, i ∈ [3, 2, 1, (0 : Fin CHANNELS)] := by decide
  obtain ⟨hnone, hsome⟩ := @irqChannels_spec
    ((dev.write Int_adapter 0 tmp).write Int_adapter 0x04 1) stat [3, 2, 1, 0] (by decide) hle
  refine ⟨hnone.trans ?_, hsome⟩
  exact exists_congr fun i => and_iff_right (hmem i)

theorem writeLoop_spec (hle : BitrateLe dev) (c : ℕ) (i : Fin CHANNELS) (data : List UInt8)
    (n : ℕ) : ∃ dev', writeLoop dev c i data n = some dev' ∧ SameBitrate dev dev' := by
  unfold writeLoop
  dsimp only
  split_ifs
  · obtain ⟨dev₁, hstart, hchannel⟩ := startDmaTransfer_spec hle i
    rw [hstart]
    refine ⟨_, rfl, fun j => ?_⟩
    have hsame : SameBitrate dev₁ (dev₁.setChannel i { dev₁.channel i with dmaStartFlag := true }) :=
      SameBitrate.setChannel rfl
    exact (hsame j).trans (by rw [hchannel])
  · exact ⟨_, rfl, fun _ => rfl⟩
  · exact ⟨_, rfl, @SameBitrate.setChannel dev i _ rfl⟩

theorem sameBitrate_tbsmodOpen (dev : TbsPcieDev) (c : ℕ) (i : Fin CHANNELS) :
    SameBitrate dev (tbsmodOpen dev c i) :=
  @SameBitrate.setChannel dev i
    { dev.channel i with dmaStartFlag := false, fifo := .empty UInt8 FIFOSIZE } rfl

theorem sameBitrate_tbsmodRelease (dev : TbsPcieDev) (c : ℕ) (i : Fin CHANNELS) :
    SameBitrate dev (tbsmodRelease dev c i) :=
  @SameBitrate.setChannel dev i { dev.channel i with dmaStartFlag := false } rfl

/-- **What an event does**: it divides by zero exactly if it is an interrupt of a channel that is
starved, and otherwise it leaves no bit rate above 200. -/
theorem step_spec (hle : BitrateLe dev) (e : ModEvent) :
    (step dev e = none ↔ Starves dev e) ∧ ∀ dev', step dev e = some dev' → BitrateLe dev' := by
  have hsome : ∀ {r : Option TbsPcieDev}, (∃ dev', r = some dev' ∧ BitrateLe dev') →
      (r = none ↔ False) ∧ ∀ dev', r = some dev' → BitrateLe dev' := by
    rintro r ⟨dev', rfl, hle'⟩
    refine ⟨iff_of_false (fun h => nomatch h) id, fun dev'' h => ?_⟩
    obtain rfl := Option.some.inj h
    exact hle'
  have hidle : ∃ dev', some dev = some dev' ∧ BitrateLe dev' := ⟨dev, rfl, hle⟩
  cases e with
  | irq stat tmp =>
    obtain ⟨hnone, hsame⟩ := tbsmodIrq_spec hle stat tmp
    exact ⟨hnone, fun dev' h => (hsame dev' h).le hle⟩
  | «open» c i =>
    refine hsome ?_
    dsimp only [step]
    cases dev.client c with
    | closed => exact ⟨_, rfl, (sameBitrate_tbsmodOpen dev c i).le hle⟩
    | _ => exact hidle
  | rd c ok =>
    refine hsome ?_
    dsimp only [step]
    cases dev.client c with
    | opening i => exact ⟨_, rfl, hle⟩
    | releasing i => exact ⟨_, rfl, hle⟩
    | _ => exact hidle
  | wt c =>
    refine hsome ?_
    dsimp only [step]
    cases dev.client c with
    | openingRead i buff => exact ⟨_, rfl, hle⟩
    | releasingRead i buff => exact ⟨_, rfl, hle⟩
    | _ => exact hidle
  | inputBitrate c value =>
    refine hsome ?_
    dsimp only [step]
    cases dev.client c with
    | opened i =>
      refine ⟨_, rfl, ?_⟩
      unfold ioctlInputBitrate
      by_cases hvalue : accepts value = true
      · rw [if_pos hvalue]
        intro j
        by_cases hj : j = i
        · rw [hj, channel_setChannel_self]
          exact UInt32.le_iff_toNat_le.mp (of_decide_eq_true hvalue)
        · rw [channel_setChannel_of_ne hj]
          exact hle j
      · rw [if_neg hvalue]
        exact hle
    | _ => exact hidle
  | write c data =>
    refine hsome ?_
    dsimp only [step]
    cases dev.client c with
    | opened i =>
      obtain ⟨dev', hloop, hsame⟩ := writeLoop_spec hle c i data 0
      exact ⟨dev', hloop, hsame.le hle⟩
    | _ => exact hidle
  | wake c =>
    refine hsome ?_
    dsimp only [step]
    cases dev.client c with
    | writing i data n =>
      dsimp only
      unfold writeWake
      split_ifs
      · exact ⟨_, rfl, hle⟩
      · obtain ⟨dev', hloop, hsame⟩ := writeLoop_spec hle c i data (n + 1)
        exact ⟨dev', hloop, hsame.le hle⟩
    | _ => exact hidle
  | release c =>
    refine hsome ?_
    dsimp only [step]
    cases dev.client c with
    | opened i =>
      exact ⟨_, rfl, (sameBitrate_tbsmodRelease dev c i).le hle⟩
    | _ => exact hidle

/-! ## Runs -/

theorem bitrateLe_probe (cardid : ℕ) (dmaphy : Fin CHANNELS → UInt32) :
    BitrateLe (tbsmodProbe cardid dmaphy) := by
  intro i
  unfold tbsmodProbe
  dsimp only
  split_ifs <;> decide

theorem along_isSome_iff (hle : BitrateLe dev) (events : List ModEvent) :
    Along step (fun dev e => (step dev e).isSome) dev events ↔
      Along step (fun dev e => ¬ Starves dev e) dev events := by
  induction events generalizing dev with
  | nil => exact Iff.rfl
  | cons e events ih =>
    obtain ⟨hnone, hsome⟩ := step_spec hle e
    unfold Along
    rw [← hnone, ← Ne, Option.ne_none_iff_isSome]
    exact and_congr_right fun _ => forall₂_congr fun dev' h => ih (hsome dev' h)

/-- **When the driver never divides by zero**: exactly if no interrupt comes for a channel that has been
started, has less than a block in its queue, and has had its bit rate set to zero. -/
theorem runs_isSome_iff (cardid : ℕ) (dmaphy : Fin CHANNELS → UInt32) (events : List ModEvent) :
    (run step (tbsmodProbe cardid dmaphy) events).isSome ↔
      Along step (fun dev e => ¬ Starves dev e) (tbsmodProbe cardid dmaphy) events :=
  (run_isSome_iff ..).trans (along_isSome_iff (bitrateLe_probe cardid dmaphy) events)

/-- A client sets the bit rate zero, writes `data`, and the channel asks for data. -/
def starving (data : List UInt8) : List ModEvent :=
  [.open 0 0, .inputBitrate 0 0, .write 0 data, .irq 0x10 0]

/-- If there is no room for the data, the driver divides by zero. -/
theorem run_starving {data : List UInt8} (hdata : FIFOSIZE < data.length) :
    run step (tbsmodProbe 0x690b fun _ => 0) (starving data) = none := by
  have hopen : step (tbsmodProbe 0x690b fun _ => 0) (.open 0 0) =
      some (tbsmodOpen (tbsmodProbe 0x690b fun _ => 0) 0 0) := rfl
  have hle := (step_spec (bitrateLe_probe 0x690b fun _ => 0) _).2 _ hopen
  have hset : step (tbsmodOpen (tbsmodProbe 0x690b fun _ => 0) 0 0) (.inputBitrate 0 0) =
      some (ioctlInputBitrate (tbsmodOpen (tbsmodProbe 0x690b fun _ => 0) 0 0) 0 0) := rfl
  have hle := (step_spec hle _).2 _ hset
  unfold starving
  rw [run_cons, hopen, Option.bind_some, run_cons, hset, Option.bind_some]
  obtain ⟨dev₁, hstart, hchannel⟩ := startDmaTransfer_spec hle 0
  have hwrite : step (ioctlInputBitrate (tbsmodOpen (tbsmodProbe 0x690b fun _ => 0) 0 0) 0 0)
      (.write 0 data) =
        some ((dev₁.setChannel 0 { dev₁.channel 0 with dmaStartFlag := true }).setClient 0
          (.writing 0 data 0)) := by
    change writeLoop _ 0 0 data 0 = _
    unfold writeLoop
    refine (if_pos hdata).trans ((if_pos rfl).trans ?_)
    rw [hstart]
    rfl
  have hle₁ := (step_spec hle _).2 _ hwrite
  have hirq := (step_spec hle₁ (.irq 0x10 0)).1.mpr ⟨0, by decide, ?_⟩
  · rw [run_cons, hwrite, Option.bind_some, run_cons, hirq]
    rfl
  · change Starved ((dev₁.setChannel 0 { dev₁.channel 0 with dmaStartFlag := true }).channel 0)
    rw [channel_setChannel_self, hchannel]
    exact ⟨⟨by decide, rfl⟩, rfl⟩

/-- A client sets the bit rate zero and writes one byte more than there is room for. -/
theorem not_runs_starving :
    run step (tbsmodProbe 0x690b fun _ => 0) (starving (List.replicate (FIFOSIZE + 1) 0x47)) =
      none :=
  run_starving (by rw [List.length_replicate]; exact Nat.lt_succ_self FIFOSIZE)

end Tbsmod
end TbsMedia
