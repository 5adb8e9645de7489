import Mathlib.Tactic.NormNum
import TbsMedia.Lib.Counting
import TbsMedia.Lib.Runs

/-!
# Modes of CEC file handles

Every open file handle has an initiator and a follower mode.  The adapter counts the handles in some of the
modes, and remembers the one handle that is exclusive in a role.

* `cecOpen`, `cecSMode`, `cecRelease`: the calls of `cec-api.c` that change a mode.
* `Bookkept`: the adapter knows the modes of its handles.
* `bookkept_run`: where it does, and when a call that fails changes nothing.
* `not_cecSMode_unchanged`: a call that fails and changes a counter.
-/

namespace TbsMedia
namespace Cec

open Lib

def EPERM : ℤ := 1
def EBUSY : ℤ := 16
def EINVAL : ℤ := 22

def CEC_CAP_TRANSMIT : ℕ := 1 <<< 2
def CEC_CAP_MONITOR_ALL : ℕ := 1 <<< 5
def CEC_CAP_MONITOR_PIN : ℕ := 1 <<< 7

def CEC_MODE_NO_INITIATOR : ℕ := 0x0 <<< 0
def CEC_MODE_INITIATOR : ℕ := 0x1 <<< 0
def CEC_MODE_EXCL_INITIATOR : ℕ := 0x2 <<< 0
def CEC_MODE_INITIATOR_MSK : ℕ := 0x0f

def CEC_MODE_NO_FOLLOWER : ℕ := 0x0 <<< 4
def CEC_MODE_FOLLOWER : ℕ := 0x1 <<< 4
def CEC_MODE_EXCL_FOLLOWER : ℕ := 0x2 <<< 4
def CEC_MODE_EXCL_FOLLOWER_PASSTHRU : ℕ := 0x3 <<< 4
def CEC_MODE_MONITOR_PIN : ℕ := 0xd <<< 4
def CEC_MODE_MONITOR : ℕ := 0xe <<< 4
def CEC_MODE_MONITOR_ALL : ℕ := 0xf <<< 4
def CEC_MODE_FOLLOWER_MSK : ℕ := 0xf0

/-! ## The adapter and its handles -/

/-- A `struct cec_fh`, by its address. -/
abbrev Fh := ℕ

/-- The adapter, as far as modes are concerned, with its open handles and their modes.  The source counts with `u32`:
there are never 2^32 handles, and where it counts below zero and wraps around there is a negative number here. -/
structure ModeAdap where
  fhs : Finset Fh
  modeInitiator : Fh → ℕ
  modeFollower : Fh → ℕ
  monitorAllCnt : ℤ
  monitorPinCnt : ℤ
  followerCnt : ℤ
  cecFollower : Option Fh
  cecInitiator : Option Fh
  passthrough : Bool

/-- An adapter that has just been registered. -/
def ModeAdap.init : ModeAdap where
  fhs := ∅
  modeInitiator := fun _ => 0
  modeFollower := fun _ => 0
  monitorAllCnt := 0
  monitorPinCnt := 0
  followerCnt := 0
  cecFollower := none
  cecInitiator := none
  passthrough := false

/-! ## The calls -/

/-- `cec_monitor_all_cnt_inc`; `enable` is what the driver returns. -/
def cecMonitorAllCntInc (adap : ModeAdap) (enable : ℤ) : ModeAdap × ℤ :=
  let ret := if adap.monitorAllCnt = 0 then enable else 0
  if ret = 0 then ({ adap with monitorAllCnt := adap.monitorAllCnt + 1 }, ret) else (adap, ret)

/-- `cec_monitor_all_cnt_dec`. -/
def cecMonitorAllCntDec (adap : ModeAdap) : ModeAdap := { adap with monitorAllCnt := adap.monitorAllCnt - 1 }

/-- `cec_monitor_pin_cnt_inc`; `enable` is what the driver returns. -/
def cecMonitorPinCntInc (adap : ModeAdap) (enable : ℤ) : ModeAdap × ℤ :=
  let ret := if adap.monitorPinCnt = 0 then enable else 0
  if ret = 0 then ({ adap with monitorPinCnt := adap.monitorPinCnt + 1 }, ret) else (adap, ret)

/-- `cec_monitor_pin_cnt_dec`. -/
def cecMonitorPinCntDec (adap : ModeAdap) : ModeAdap := { adap with monitorPinCnt := adap.monitorPinCnt - 1 }

/-- An argument of `CEC_S_MODE` and what is known when it is made: whether the caller has `CAP_NET_ADMIN`,
and what the driver returns when it is asked to monitor everything or the pin. -/
structure SMode where
  mode : ℕ
  capable : Bool
  monitorAllEnable : ℤ
  monitorPinEnable : ℤ

def SMode.initiator (call : SMode) : ℕ := call.mode &&& CEC_MODE_INITIATOR_MSK
def SMode.follower (call : SMode) : ℕ := call.mode &&& CEC_MODE_FOLLOWER_MSK

/-- The checks of `cec_s_mode` in front of the lock. -/
def sModeCheck (capabilities : ℕ) (call : SMode) : ℤ :=
  if call.mode &&& ((CEC_MODE_INITIATOR_MSK ||| CEC_MODE_FOLLOWER_MSK) ^^^ 0xffffffff) ≠ 0 then -EINVAL
  else if CEC_MODE_EXCL_INITIATOR < call.initiator ∨ CEC_MODE_MONITOR_ALL < call.follower then -EINVAL
  else if call.follower = CEC_MODE_MONITOR_ALL ∧ capabilities &&& CEC_CAP_MONITOR_ALL = 0 then -EINVAL
  else if call.follower = CEC_MODE_MONITOR_PIN ∧ capabilities &&& CEC_CAP_MONITOR_PIN = 0 then -EINVAL
  else if (call.initiator = CEC_MODE_NO_INITIATOR ∨ capabilities &&& CEC_CAP_TRANSMIT = 0) ∧
      CEC_MODE_FOLLOWER ≤ call.follower ∧ call.follower ≤ CEC_MODE_EXCL_FOLLOWER_PASSTHRU then -EINVAL
  else if call.initiator ≠ 0 ∧ CEC_MODE_MONITOR_PIN ≤ call.follower then -EINVAL
  else if CEC_MODE_MONITOR_PIN ≤ call.follower ∧ call.capable = false then -EPERM
  else 0

/-- An exclusive follower mode. -/
def ExclFollower (mode : ℕ) : Prop := mode = CEC_MODE_EXCL_FOLLOWER ∨ mode = CEC_MODE_EXCL_FOLLOWER_PASSTHRU

instance (mode : ℕ) : Decidable (ExclFollower mode) := inferInstanceAs (Decidable (_ ∨ _))

/-- Somebody else has the exclusive role that is asked for. -/
def sModeBusy (adap : ModeAdap) (fh : Fh) (call : SMode) : ℤ :=
  let err := if ExclFollower call.follower ∧ adap.cecFollower.isSome ∧ adap.cecFollower ≠ some fh then -EBUSY
    else 0
  if call.initiator = CEC_MODE_EXCL_INITIATOR ∧ adap.cecInitiator.isSome ∧ adap.cecInitiator ≠ some fh then
    -EBUSY else err

/-- The handle leaves or enters the mode that monitors everything. -/
def sModeMonitorAll (adap : ModeAdap) (fh : Fh) (call : SMode) : ModeAdap × ℤ :=
  let oldMonAll := adap.modeFollower fh = CEC_MODE_MONITOR_ALL
  let newMonAll := call.follower = CEC_MODE_MONITOR_ALL
  if oldMonAll ↔ newMonAll then (adap, 0)
  else if newMonAll then cecMonitorAllCntInc adap call.monitorAllEnable
  else (cecMonitorAllCntDec adap, 0)

/-- The handle leaves or enters the mode that monitors the pin. -/
def sModeMonitorPin (adap : ModeAdap) (fh : Fh) (call : SMode) : ModeAdap × ℤ :=
  let oldMonPin := adap.modeFollower fh = CEC_MODE_MONITOR_PIN
  let newMonPin := call.follower = CEC_MODE_MONITOR_PIN
  if oldMonPin ↔ newMonPin then (adap, 0)
  else if newMonPin then cecMonitorPinCntInc adap call.monitorPinEnable
  else (cecMonitorPinCntDec adap, 0)

/-- The handle leaves or enters the mode of a follower. -/
def sModeCount (adap : ModeAdap) (fh : Fh) (call : SMode) : ModeAdap :=
  let adap := if adap.modeFollower fh = CEC_MODE_FOLLOWER then
    { adap with followerCnt := adap.followerCnt - 1 } else adap
  if call.follower = CEC_MODE_FOLLOWER then { adap with followerCnt := adap.followerCnt + 1 } else adap

/-- The handle takes or gives up the exclusive role of the follower. -/
def sModeFollower (adap : ModeAdap) (fh : Fh) (call : SMode) : ModeAdap :=
  if ExclFollower call.follower then
    { adap with passthrough := decide (call.follower = CEC_MODE_EXCL_FOLLOWER_PASSTHRU), cecFollower := some fh }
  else if adap.cecFollower = some fh then { adap with passthrough := false, cecFollower := none }
  else adap

/-- The handle takes or gives up the exclusive role of the initiator. -/
def sModeInitiator (adap : ModeAdap) (fh : Fh) (call : SMode) : ModeAdap :=
  if call.initiator = CEC_MODE_EXCL_INITIATOR then { adap with cecInitiator := some fh }
  else if adap.cecInitiator = some fh then { adap with cecInitiator := none }
  else adap

/-- The rest of `cec_s_mode`, which does not fail. -/
def sModeCommit (adap : ModeAdap) (fh : Fh) (call : SMode) : ModeAdap :=
  let adap := sModeInitiator (sModeFollower (sModeCount adap fh call) fh call) fh call
  { adap with
    modeInitiator := Function.update adap.modeInitiator fh call.initiator
    modeFollower := Function.update adap.modeFollower fh call.follower }

/-- `cec_s_mode`. -/
def cecSMode (capabilities : ℕ) (adap : ModeAdap) (fh : Fh) (call : SMode) : ModeAdap × ℤ :=
  if sModeCheck capabilities call ≠ 0 then (adap, sModeCheck capabilities call)
  else if sModeBusy adap fh call ≠ 0 then (adap, sModeBusy adap fh call)
  else
    let (adap, err) := sModeMonitorAll adap fh call
    if err ≠ 0 then (adap, err)
    else
      let (adap, err) := sModeMonitorPin adap fh call
      if err ≠ 0 then (adap, err) else (sModeCommit adap fh call, 0)

/-- `cec_open`, where it does not fail. -/
def cecOpen (adap : ModeAdap) (fh : Fh) : ModeAdap :=
  { adap with
    fhs := insert fh adap.fhs
    modeInitiator := Function.update adap.modeInitiator fh CEC_MODE_INITIATOR
    modeFollower := Function.update adap.modeFollower fh CEC_MODE_NO_FOLLOWER }

/-- The handle gives up its exclusive roles. -/
def releaseRoles (adap : ModeAdap) (fh : Fh) : ModeAdap :=
  let adap := if adap.cecInitiator = some fh then { adap with cecInitiator := none } else adap
  if adap.cecFollower = some fh then { adap with cecFollower := none, passthrough := false } else adap

/-- The handle is not counted any more. -/
def releaseCounts (adap : ModeAdap) (fh : Fh) : ModeAdap :=
  let adap := if adap.modeFollower fh = CEC_MODE_FOLLOWER then
    { adap with followerCnt := adap.followerCnt - 1 } else adap
  let adap := if adap.modeFollower fh = CEC_MODE_MONITOR_PIN then cecMonitorPinCntDec adap else adap
  if adap.modeFollower fh = CEC_MODE_MONITOR_ALL then cecMonitorAllCntDec adap else adap

/-- `cec_release`. -/
def cecRelease (adap : ModeAdap) (fh : Fh) : ModeAdap :=
  let adap := releaseCounts (releaseRoles adap fh) fh
  { adap with fhs := adap.fhs.erase fh }

/-- A call. -/
inductive ModeEvent where
  | open (fh : Fh)
  | sMode (fh : Fh) (call : SMode)
  | release (fh : Fh)

/-- A call by a handle that is open, or of one that is not yet. -/
def modeStep (capabilities : ℕ) (adap : ModeAdap) : ModeEvent → Option ModeAdap
  | .open fh => if fh ∈ adap.fhs then none else some (cecOpen adap fh)
  | .sMode fh call => if fh ∈ adap.fhs then some (cecSMode capabilities adap fh call).1 else none
  | .release fh => if fh ∈ adap.fhs then some (cecRelease adap fh) else none

/-! ## Bookkeeping -/

/-- **The adapter knows the modes of its handles.** -/
structure Bookkept (adap : ModeAdap) : Prop where
  monitorAll : adap.monitorAllCnt = countOf adap.fhs adap.modeFollower CEC_MODE_MONITOR_ALL
  monitorPin : adap.monitorPinCnt = countOf adap.fhs adap.modeFollower CEC_MODE_MONITOR_PIN
  followers : adap.followerCnt = countOf adap.fhs adap.modeFollower CEC_MODE_FOLLOWER
  follower : ∀ fh, adap.cecFollower = some fh ↔ fh ∈ adap.fhs ∧ ExclFollower (adap.modeFollower fh)
  initiator : ∀ fh, adap.cecInitiator = some fh ↔
    fh ∈ adap.fhs ∧ adap.modeInitiator fh = CEC_MODE_EXCL_INITIATOR
  passthrough : adap.passthrough = true ↔
    ∃ fh, adap.cecFollower = some fh ∧ adap.modeFollower fh = CEC_MODE_EXCL_FOLLOWER_PASSTHRU

theorem bookkept_init : Bookkept .init where
  monitorAll := rfl
  monitorPin := rfl
  followers := rfl
  follower _ := ⟨nofun, fun h => absurd h.1 (Finset.notMem_empty _)⟩
  initiator _ := ⟨nofun, fun h => absurd h.1 (Finset.notMem_empty _)⟩
  passthrough := ⟨nofun, fun h => nomatch h.choose_spec.1⟩

/-! ## What a call does -/

variable {capabilities : ℕ} {adap : ModeAdap} {fh : Fh} {call : SMode}

theorem sModeCount_eq : sModeCount adap fh call = { adap with
    followerCnt := adap.followerCnt - unit (adap.modeFollower fh) CEC_MODE_FOLLOWER +
      unit call.follower CEC_MODE_FOLLOWER } := by
  obtain ⟨fhs, modeInitiator, modeFollower, all, pin, cnt, cecFollower, cecInitiator, passthrough⟩ := adap
  unfold sModeCount unit
  split_ifs <;> refine congrArg (fun n => (⟨fhs, modeInitiator, modeFollower, all, pin, n, cecFollower,
    cecInitiator, passthrough⟩ : ModeAdap)) ?_ <;> dsimp only <;> omega

theorem cecMonitorAllCntInc_cases (adap : ModeAdap) (enable : ℤ) :
    cecMonitorAllCntInc adap enable = ({ adap with monitorAllCnt := adap.monitorAllCnt + 1 }, 0) ∨
      adap.monitorAllCnt = 0 ∧ enable ≠ 0 ∧ cecMonitorAllCntInc adap enable = (adap, enable) := by
  unfold cecMonitorAllCntInc
  dsimp only
  by_cases hzero : adap.monitorAllCnt = 0
  · rw [if_pos hzero]
    by_cases henable : enable = 0
    · rw [if_pos henable, henable]
      exact Or.inl rfl
    · rw [if_neg henable]
      exact Or.inr ⟨hzero, henable, rfl⟩
  · rw [if_neg hzero, if_pos rfl]
    exact Or.inl rfl

theorem cecMonitorPinCntInc_cases (adap : ModeAdap) (enable : ℤ) :
    ¬(adap.monitorPinCnt = 0 ∧ enable ≠ 0) ∧
        cecMonitorPinCntInc adap enable = ({ adap with monitorPinCnt := adap.monitorPinCnt + 1 }, 0) ∨
      adap.monitorPinCnt = 0 ∧ enable ≠ 0 ∧ cecMonitorPinCntInc adap enable = (adap, enable) := by
  unfold cecMonitorPinCntInc
  dsimp only
  by_cases hzero : adap.monitorPinCnt = 0
  · rw [if_pos hzero]
    by_cases henable : enable = 0
    · rw [if_pos henable, henable]
      exact Or.inl ⟨fun h => h.2 rfl, rfl⟩
    · rw [if_neg henable]
      exact Or.inr ⟨hzero, henable, rfl⟩
  · rw [if_neg hzero, if_pos rfl]
    exact Or.inl ⟨fun h => hzero h.1, rfl⟩

/-- The first counter is adapted, or the driver refuses. -/
theorem sModeMonitorAll_cases (adap : ModeAdap) (fh : Fh) (call : SMode) :
    sModeMonitorAll adap fh call = ({ adap with
      monitorAllCnt := adap.monitorAllCnt - unit (adap.modeFollower fh) CEC_MODE_MONITOR_ALL +
        unit call.follower CEC_MODE_MONITOR_ALL }, 0) ∨
    (call.follower = CEC_MODE_MONITOR_ALL ∧ call.monitorAllEnable ≠ 0) ∧
      sModeMonitorAll adap fh call = (adap, call.monitorAllEnable) := by
  have hset : ∀ {n m : ℤ}, n = m → (({ adap with monitorAllCnt := n } : ModeAdap), (0 : ℤ)) =
      ({ adap with monitorAllCnt := m }, 0) := fun h => h ▸ rfl
  unfold sModeMonitorAll unit
  dsimp only
  by_cases hold : adap.modeFollower fh = CEC_MODE_MONITOR_ALL <;>
    by_cases hnew : call.follower = CEC_MODE_MONITOR_ALL
  · rw [if_pos (iff_of_true hold hnew), if_pos hold, if_pos hnew]
    exact Or.inl (hset (by omega : adap.monitorAllCnt = _))
  · rw [if_neg fun h => hnew (h.1 hold), if_neg hnew, if_pos hold, if_neg hnew]
    exact Or.inl (hset (by omega : adap.monitorAllCnt - 1 = _))
  · rw [if_neg fun h => hold (h.2 hnew), if_pos hnew, if_neg hold, if_pos hnew]
    rcases cecMonitorAllCntInc_cases adap call.monitorAllEnable with h | ⟨-, henable, h⟩
    · exact Or.inl (h.trans (hset (by omega : adap.monitorAllCnt + 1 = _)))
    · exact Or.inr ⟨⟨hnew, henable⟩, h⟩
  · rw [if_pos (iff_of_false hold hnew), if_neg hold, if_neg hnew]
    exact Or.inl (hset (by omega : adap.monitorAllCnt = _))

/-- The driver is asked to let the handle monitor the pin, and refuses. -/
def PinRefused (adap : ModeAdap) (fh : Fh) (call : SMode) : Prop :=
  call.follower = CEC_MODE_MONITOR_PIN ∧ adap.modeFollower fh ≠ CEC_MODE_MONITOR_PIN ∧
    adap.monitorPinCnt = 0 ∧ call.monitorPinEnable ≠ 0

/-- The second counter is adapted, or the driver refuses. -/
theorem sModeMonitorPin_cases (adap : ModeAdap) (fh : Fh) (call : SMode) :
    ¬PinRefused adap fh call ∧ sModeMonitorPin adap fh call = ({ adap with
      monitorPinCnt := adap.monitorPinCnt - unit (adap.modeFollower fh) CEC_MODE_MONITOR_PIN +
        unit call.follower CEC_MODE_MONITOR_PIN }, 0) ∨
    PinRefused adap fh call ∧ sModeMonitorPin adap fh call = (adap, call.monitorPinEnable) := by
  have hset : ∀ {n m : ℤ}, n = m → (({ adap with monitorPinCnt := n } : ModeAdap), (0 : ℤ)) =
      ({ adap with monitorPinCnt := m }, 0) := fun h => h ▸ rfl
  unfold sModeMonitorPin unit
  dsimp only
  by_cases hold : adap.modeFollower fh = CEC_MODE_MONITOR_PIN <;>
    by_cases hnew : call.follower = CEC_MODE_MONITOR_PIN
  · rw [if_pos (iff_of_true hold hnew), if_pos hold, if_pos hnew]
    exact Or.inl ⟨fun h => h.2.1 hold, hset (by omega : adap.monitorPinCnt = _)⟩
  · rw [if_neg fun h => hnew (h.1 hold), if_neg hnew, if_pos hold, if_neg hnew]
    exact Or.inl ⟨fun h => hnew h.1, hset (by omega : adap.monitorPinCnt - 1 = _)⟩
  · rw [if_neg fun h => hold (h.2 hnew), if_pos hnew, if_neg hold, if_pos hnew]
    rcases cecMonitorPinCntInc_cases adap call.monitorPinEnable with ⟨hnot, h⟩ | ⟨hzero, henable, h⟩
    · exact Or.inl ⟨fun h => hnot h.2.2, h.trans (hset (by omega : adap.monitorPinCnt + 1 = _))⟩
    · exact Or.inr ⟨⟨hnew, hold, hzero, henable⟩, h⟩
  · rw [if_pos (iff_of_false hold hnew), if_neg hold, if_neg hnew]
    exact Or.inl ⟨fun h => hnew h.1, hset (by omega : adap.monitorPinCnt = _)⟩

/-- The adapter with its monitor counters adapted. -/
def countMonitors (adap : ModeAdap) (fh : Fh) (call : SMode) : ModeAdap :=
  { adap with
    monitorAllCnt := adap.monitorAllCnt - unit (adap.modeFollower fh) CEC_MODE_MONITOR_ALL +
      unit call.follower CEC_MODE_MONITOR_ALL
    monitorPinCnt := adap.monitorPinCnt - unit (adap.modeFollower fh) CEC_MODE_MONITOR_PIN +
      unit call.follower CEC_MODE_MONITOR_PIN }

/-- The one failure that is not undone: a handle stops to monitor everything, and the driver does not let it
monitor the pin. -/
def LosesMonitor (capabilities : ℕ) (adap : ModeAdap) (fh : Fh) (call : SMode) : Prop :=
  sModeCheck capabilities call = 0 ∧ adap.modeFollower fh = CEC_MODE_MONITOR_ALL ∧
    call.follower = CEC_MODE_MONITOR_PIN ∧ adap.monitorPinCnt = 0 ∧ call.monitorPinEnable ≠ 0

/-- A handle that is to monitor the pin asks for no exclusive role. -/
theorem sModeBusy_monitorPin {capabilities : ℕ} {call : SMode} (hcheck : sModeCheck capabilities call = 0)
    (hpin : call.follower = CEC_MODE_MONITOR_PIN) (adap : ModeAdap) (fh : Fh) : sModeBusy adap fh call = 0 := by
  have hinitiator : call.initiator = 0 := by
    by_contra h
    unfold sModeCheck at hcheck
    rw [hpin, if_pos (c := call.initiator ≠ 0 ∧ CEC_MODE_MONITOR_PIN ≤ CEC_MODE_MONITOR_PIN)
      ⟨h, Nat.le_refl _⟩] at hcheck
    revert hcheck
    unfold EINVAL
    split_ifs <;> decide
  unfold sModeBusy
  dsimp only
  rw [if_neg fun h => absurd (hinitiator.symm.trans h.1) (by decide), hpin,
    if_neg fun h => absurd h.1 (by decide)]

/-- **What `CEC_S_MODE` does**: it goes through, it fails and changes nothing, or it fails behind the first
counter. -/
theorem cecSMode_cases (capabilities : ℕ) (adap : ModeAdap) (fh : Fh) (call : SMode) :
    (¬LosesMonitor capabilities adap fh call ∧ sModeBusy adap fh call = 0 ∧
        cecSMode capabilities adap fh call = (sModeCommit (countMonitors adap fh call) fh call, 0)) ∨
      (¬LosesMonitor capabilities adap fh call ∧ (cecSMode capabilities adap fh call).2 ≠ 0 ∧
        (cecSMode capabilities adap fh call).1 = adap) ∨
      LosesMonitor capabilities adap fh call ∧ (cecSMode capabilities adap fh call).2 ≠ 0 ∧
        (cecSMode capabilities adap fh call).1 = { adap with monitorAllCnt := adap.monitorAllCnt - 1 } := by
  have hne : CEC_MODE_MONITOR_PIN ≠ CEC_MODE_MONITOR_ALL := by decide
  unfold cecSMode
  by_cases hcheck : sModeCheck capabilities call = 0
  swap
  · rw [if_pos hcheck]
    exact Or.inr (Or.inl ⟨fun h => hcheck h.1, hcheck, rfl⟩)
  by_cases hbusy : sModeBusy adap fh call = 0
  swap
  · rw [if_neg (not_not.2 hcheck), if_pos hbusy]
    exact Or.inr (Or.inl ⟨fun h => hbusy (sModeBusy_monitorPin hcheck h.2.2.1 adap fh), hbusy, rfl⟩)
  rw [if_neg (not_not.2 hcheck), if_neg (not_not.2 hbusy)]
  rcases sModeMonitorAll_cases adap fh call with hall | ⟨⟨hnew, henable⟩, hall⟩
  swap
  · rw [hall]
    dsimp only
    rw [if_pos henable]
    exact Or.inr (Or.inl ⟨fun h => hne (h.2.2.1.symm.trans hnew), henable, rfl⟩)
  rw [hall]
  dsimp only
  rw [if_neg (not_not.2 rfl)]
  have hleft : call.follower = CEC_MODE_MONITOR_PIN → unit call.follower CEC_MODE_MONITOR_ALL = 0 :=
    fun hnew => if_neg fun h => hne (hnew.symm.trans h)
  rcases sModeMonitorPin_cases { adap with
    monitorAllCnt := adap.monitorAllCnt - unit (adap.modeFollower fh) CEC_MODE_MONITOR_ALL +
      unit call.follower CEC_MODE_MONITOR_ALL } fh call with
        ⟨hnot, hpin⟩ | ⟨⟨hnew, hold, hzero, henable⟩, hpin⟩
  · rw [hpin]
    dsimp only
    rw [if_neg (not_not.2 rfl)]
    refine Or.inl ⟨fun h => hnot ⟨h.2.2.1, fun hpin => ?_, h.2.2.2⟩, hbusy, rfl⟩
    exact hne (hpin.symm.trans h.2.1)
  · rw [hpin]
    dsimp only at hzero ⊢
    rw [if_pos henable, hleft hnew]
    have hset : ∀ {n m : ℤ}, n = m → ({ adap with monitorAllCnt := n } : ModeAdap) =
        { adap with monitorAllCnt := m } := fun h => h ▸ rfl
    by_cases hmon : adap.modeFollower fh = CEC_MODE_MONITOR_ALL
    · have hone : unit (adap.modeFollower fh) CEC_MODE_MONITOR_ALL = 1 := if_pos hmon
      rw [hone]
      exact Or.inr (Or.inr ⟨⟨hcheck, hmon, hnew, hzero, henable⟩, henable, hset (by omega)⟩)
    · have hnone : unit (adap.modeFollower fh) CEC_MODE_MONITOR_ALL = 0 := if_neg hmon
      rw [hnone]
      exact Or.inr (Or.inl ⟨fun h => hmon h.2.1, henable, hset (by omega : _ = adap.monitorAllCnt)⟩)

/-! ## The bookkeeping is kept -/

/-- Who has an exclusive role behind a call of `fh`. -/
def owner (excl : Prop) [Decidable excl] (o : Option Fh) (fh : Fh) : Option Fh :=
  if excl then some fh else if o = some fh then none else o

theorem owner_eq_some_iff {excl : Prop} [Decidable excl] {o : Option Fh} (hfree : excl → o.isSome → o = some fh)
    (x : Fh) : owner excl o fh = some x ↔ if x = fh then excl else o = some x := by
  unfold owner
  by_cases hexcl : excl
  · rw [if_pos hexcl]
    by_cases hx : x = fh
    · subst hx
      rw [if_pos rfl]
      exact iff_of_true rfl hexcl
    · rw [if_neg hx]
      refine iff_of_false (fun h => hx (Option.some.inj h).symm) fun h => ?_
      have hsame := hfree hexcl (by rw [h]; rfl)
      exact hx (Option.some.inj (h.symm.trans hsame))
  · rw [if_neg hexcl]
    by_cases hx : x = fh
    · subst hx
      rw [if_pos rfl]
      refine iff_of_false (fun h => ?_) hexcl
      split_ifs at h with ho
      exact ho h
    · rw [if_neg hx]
      by_cases ho : o = some fh
      · rw [if_pos ho, ho]
        exact iff_of_false nofun fun h => hx (Option.some.inj h).symm
      · rw [if_neg ho]

/-- The follower of the adapter is in passthrough mode, behind a call of `fh`. -/
def passes (adap : ModeAdap) (fh : Fh) (mode : ℕ) : Bool :=
  if ExclFollower mode then decide (mode = CEC_MODE_EXCL_FOLLOWER_PASSTHRU)
  else if adap.cecFollower = some fh then false else adap.passthrough

theorem sModeFollower_eq : sModeFollower adap fh call = { adap with
    cecFollower := owner (ExclFollower call.follower) adap.cecFollower fh
    passthrough := passes adap fh call.follower } := by
  unfold sModeFollower owner passes
  split_ifs <;> rfl

theorem sModeInitiator_eq : sModeInitiator adap fh call = { adap with
    cecInitiator := owner (call.initiator = CEC_MODE_EXCL_INITIATOR) adap.cecInitiator fh } := by
  unfold sModeInitiator owner
  split_ifs <;> rfl

theorem sModeCommit_eq : sModeCommit adap fh call = { adap with
    followerCnt := adap.followerCnt - unit (adap.modeFollower fh) CEC_MODE_FOLLOWER +
      unit call.follower CEC_MODE_FOLLOWER
    cecFollower := owner (ExclFollower call.follower) adap.cecFollower fh
    passthrough := passes adap fh call.follower
    cecInitiator := owner (call.initiator = CEC_MODE_EXCL_INITIATOR) adap.cecInitiator fh
    modeInitiator := Function.update adap.modeInitiator fh call.initiator
    modeFollower := Function.update adap.modeFollower fh call.follower } := by
  unfold sModeCommit
  rw [sModeCount_eq, sModeFollower_eq, sModeInitiator_eq]
  rfl

/-- Nobody else has a role that the handle gets. -/
theorem sModeBusy_free (hbusy : sModeBusy adap fh call = 0) :
    (ExclFollower call.follower → adap.cecFollower.isSome → adap.cecFollower = some fh) ∧
      (call.initiator = CEC_MODE_EXCL_INITIATOR → adap.cecInitiator.isSome → adap.cecInitiator = some fh) := by
  unfold sModeBusy EBUSY at hbusy
  dsimp only at hbusy
  constructor
  · intro hexcl hsome
    by_contra hne
    rw [if_pos (c := ExclFollower _ ∧ _ ∧ _) ⟨hexcl, hsome, hne⟩, ite_self] at hbusy
    exact absurd hbusy (by decide)
  · intro hexcl hsome
    by_contra hne
    rw [if_pos (c := call.initiator = _ ∧ _ ∧ _) ⟨hexcl, hsome, hne⟩] at hbusy
    exact absurd hbusy (by decide)

theorem bookkept_commit (h : Bookkept adap) (hmem : fh ∈ adap.fhs) (hbusy : sModeBusy adap fh call = 0) :
    Bookkept (sModeCommit (countMonitors adap fh call) fh call) := by
  obtain ⟨hfollower, hinitiator⟩ := sModeBusy_free hbusy
  rw [sModeCommit_eq]
  unfold countMonitors
  have hcount : ∀ {n : ℤ} {v : ℕ}, n = countOf adap.fhs adap.modeFollower v →
      n - unit (adap.modeFollower fh) v + unit call.follower v =
        countOf adap.fhs (Function.update adap.modeFollower fh call.follower) v := fun {n v} hn => by
    rw [countOf_update hmem, hn]
  constructor
  · exact hcount h.monitorAll
  · exact hcount h.monitorPin
  · exact hcount h.followers
  · intro x
    refine (owner_eq_some_iff hfollower x).trans ?_
    dsimp only
    by_cases hx : x = fh
    · subst hx
      rw [if_pos rfl, Function.update_self]
      exact ⟨fun hexcl => ⟨hmem, hexcl⟩, fun h => h.2⟩
    · rw [if_neg hx, Function.update_of_ne hx]
      exact h.follower x
  · intro x
    refine (owner_eq_some_iff hinitiator x).trans ?_
    dsimp only
    by_cases hx : x = fh
    · subst hx
      rw [if_pos rfl, Function.update_self]
      exact ⟨fun hexcl => ⟨hmem, hexcl⟩, fun h => h.2⟩
    · rw [if_neg hx, Function.update_of_ne hx]
      exact h.initiator x
  · dsimp only
    unfold passes owner
    by_cases hexcl : ExclFollower call.follower
    · rw [if_pos hexcl, if_pos hexcl, decide_eq_true_iff]
      constructor
      · intro hpass
        exact ⟨fh, rfl, by rwa [Function.update_self]⟩
      · rintro ⟨x, hx, hpass⟩
        obtain rfl := Option.some.inj hx
        rwa [Function.update_self] at hpass
    · rw [if_neg hexcl, if_neg hexcl]
      by_cases ho : adap.cecFollower = some fh
      · rw [if_pos ho, if_pos ho]
        exact iff_of_false nofun fun ⟨x, hx, _⟩ => nomatch hx
      · rw [if_neg ho, if_neg ho, h.passthrough]
        refine exists_congr fun x => and_congr_right fun hx => ?_
        have hne : x ≠ fh := fun hxf => ho (hxf ▸ hx)
        rw [Function.update_of_ne hne]

theorem bookkept_open (h : Bookkept adap) (hnew : fh ∉ adap.fhs) : Bookkept (cecOpen adap fh) := by
  unfold cecOpen
  have hne : ∀ x ∈ adap.fhs, x ≠ fh := fun x hx hxf => hnew (hxf ▸ hx)
  have hsame : ∀ (f : Fh → ℕ) (v : ℕ), ∀ x ∈ adap.fhs, Function.update f fh v x = f x :=
    fun f v x hx => Function.update_of_ne (hne x hx) v f
  have hcount : ∀ {n : ℤ} {v : ℕ}, CEC_MODE_NO_FOLLOWER ≠ v → n = countOf adap.fhs adap.modeFollower v →
      n = countOf (insert fh adap.fhs) (Function.update adap.modeFollower fh CEC_MODE_NO_FOLLOWER) v :=
    fun {n v} hv hn => by
      have hzero : unit CEC_MODE_NO_FOLLOWER v = 0 := if_neg hv
      rw [countOf_insert hnew, countOf_congr (hsame _ _), Function.update_self, hzero, Int.add_zero, hn]
  constructor
  · exact hcount (by decide) h.monitorAll
  · exact hcount (by decide) h.monitorPin
  · exact hcount (by decide) h.followers
  · intro x
    refine (h.follower x).trans ?_
    dsimp only
    rw [Finset.mem_insert]
    by_cases hx : x = fh
    · subst hx
      rw [Function.update_self]
      exact iff_of_false (fun h => hnew h.1) fun h => absurd h.2 (by decide)
    · rw [Function.update_of_ne hx, or_iff_right hx]
  · intro x
    refine (h.initiator x).trans ?_
    dsimp only
    rw [Finset.mem_insert]
    by_cases hx : x = fh
    · subst hx
      rw [Function.update_self]
      exact iff_of_false (fun h => hnew h.1) fun h => absurd h.2 (by decide)
    · rw [Function.update_of_ne hx, or_iff_right hx]
  · refine h.passthrough.trans (exists_congr fun x => and_congr_right fun hx => ?_)
    dsimp only at hx ⊢
    rw [hsame _ _ x ((h.follower x).1 hx).1]

/-- A handle that is closed gives up its role. -/
def without (o : Option Fh) (fh : Fh) : Option Fh := if o = some fh then none else o

theorem without_eq_some_iff (o : Option Fh) (fh x : Fh) : without o fh = some x ↔ x ≠ fh ∧ o = some x := by
  unfold without
  split_ifs with ho
  · rw [ho]
    exact iff_of_false nofun fun h => h.1 (Option.some.inj h.2).symm
  · exact ⟨fun h => ⟨fun hx => ho (hx ▸ h), h⟩, fun h => h.2⟩

theorem releaseRoles_eq (adap : ModeAdap) (fh : Fh) : releaseRoles adap fh = { adap with
    cecInitiator := without adap.cecInitiator fh
    cecFollower := without adap.cecFollower fh
    passthrough := if adap.cecFollower = some fh then false else adap.passthrough } := by
  unfold releaseRoles without
  by_cases hinitiator : adap.cecInitiator = some fh <;> by_cases hfollower : adap.cecFollower = some fh <;>
    simp only [hinitiator, hfollower, if_true, if_false]

theorem releaseCounts_eq (adap : ModeAdap) (fh : Fh) : releaseCounts adap fh = { adap with
    followerCnt := adap.followerCnt - unit (adap.modeFollower fh) CEC_MODE_FOLLOWER
    monitorPinCnt := adap.monitorPinCnt - unit (adap.modeFollower fh) CEC_MODE_MONITOR_PIN
    monitorAllCnt := adap.monitorAllCnt - unit (adap.modeFollower fh) CEC_MODE_MONITOR_ALL } := by
  obtain ⟨fhs, modeInitiator, modeFollower, all, pin, cnt, cecFollower, cecInitiator, passthrough⟩ := adap
  unfold releaseCounts cecMonitorPinCntDec cecMonitorAllCntDec unit
  by_cases hf : modeFollower fh = CEC_MODE_FOLLOWER
  · have hp : ¬modeFollower fh = CEC_MODE_MONITOR_PIN := fun h => absurd (hf.symm.trans h) (by decide)
    have ha : ¬modeFollower fh = CEC_MODE_MONITOR_ALL := fun h => absurd (hf.symm.trans h) (by decide)
    simp only [if_pos hf, if_neg hp, if_neg ha, Int.sub_zero]
  by_cases hp : modeFollower fh = CEC_MODE_MONITOR_PIN
  · have ha : ¬modeFollower fh = CEC_MODE_MONITOR_ALL := fun h => absurd (hp.symm.trans h) (by decide)
    simp only [if_neg hf, if_pos hp, if_neg ha, Int.sub_zero]
  by_cases ha : modeFollower fh = CEC_MODE_MONITOR_ALL
  · simp only [if_neg hf, if_neg hp, if_pos ha, Int.sub_zero]
  · simp only [if_neg hf, if_neg hp, if_neg ha, Int.sub_zero]

theorem cecRelease_eq (adap : ModeAdap) (fh : Fh) : cecRelease adap fh = { adap with
    fhs := adap.fhs.erase fh
    cecInitiator := without adap.cecInitiator fh
    cecFollower := without adap.cecFollower fh
    passthrough := if adap.cecFollower = some fh then false else adap.passthrough
    followerCnt := adap.followerCnt - unit (adap.modeFollower fh) CEC_MODE_FOLLOWER
    monitorPinCnt := adap.monitorPinCnt - unit (adap.modeFollower fh) CEC_MODE_MONITOR_PIN
    monitorAllCnt := adap.monitorAllCnt - unit (adap.modeFollower fh) CEC_MODE_MONITOR_ALL } := by
  unfold cecRelease
  rw [releaseRoles_eq, releaseCounts_eq]

theorem bookkept_release (h : Bookkept adap) (hmem : fh ∈ adap.fhs) : Bookkept (cecRelease adap fh) := by
  rw [cecRelease_eq]
  have hcount : ∀ {n : ℤ} {v : ℕ}, n = countOf adap.fhs adap.modeFollower v →
      n - unit (adap.modeFollower fh) v = countOf (adap.fhs.erase fh) adap.modeFollower v := fun {n v} hn => by
    rw [countOf_erase hmem, hn]
  constructor
  · exact hcount h.monitorAll
  · exact hcount h.monitorPin
  · exact hcount h.followers
  · intro x
    refine (without_eq_some_iff _ _ _).trans ?_
    dsimp only
    rw [h.follower, Finset.mem_erase, and_assoc]
  · intro x
    refine (without_eq_some_iff _ _ _).trans ?_
    dsimp only
    rw [h.initiator, Finset.mem_erase, and_assoc]
  · dsimp only
    unfold without
    by_cases ho : adap.cecFollower = some fh
    · rw [if_pos ho, if_pos ho]
      exact iff_of_false nofun fun ⟨x, hx, _⟩ => nomatch hx
    · rw [if_neg ho, if_neg ho]
      exact h.passthrough

/-! ## Runs -/

/-- A step is not the one failure that is not undone. -/
def Undone (capabilities : ℕ) (adap : ModeAdap) : ModeEvent → Prop
  | .sMode fh call => ¬LosesMonitor capabilities adap fh call
  | _ => True

theorem bookkept_step {e : ModeEvent} {adap' : ModeAdap} (h : Bookkept adap)
    (hundone : Undone capabilities adap e) (hstep : modeStep capabilities adap e = some adap') :
    Bookkept adap' := by
  unfold modeStep at hstep
  cases e with
  | «open» fh =>
    dsimp only at hstep
    split_ifs at hstep with hmem
    obtain rfl := Option.some.inj hstep
    exact bookkept_open h hmem
  | sMode fh call =>
    dsimp only at hstep
    split_ifs at hstep with hmem
    obtain rfl := Option.some.inj hstep
    rcases cecSMode_cases capabilities adap fh call with ⟨-, hbusy, hcall⟩ | ⟨-, -, hsame⟩ | ⟨hloses, -⟩
    · rw [hcall]
      exact bookkept_commit h hmem hbusy
    · rwa [hsame]
    · exact absurd hloses hundone
  | release fh =>
    dsimp only at hstep
    split_ifs at hstep with hmem
    obtain rfl := Option.some.inj hstep
    exact bookkept_release h hmem

/-- **Mode bookkeeping**: in every run without the one failure that is not undone, the adapter knows the
modes of its handles at every time, and a call that fails changes nothing exactly if it is not that one. -/
theorem bookkept_run {es : List ModeEvent} (hundone : Along (modeStep capabilities) (Undone capabilities) .init es)
    (hrun : run (modeStep capabilities) .init es = some adap) :
    Bookkept adap ∧ ∀ fh call, ((cecSMode capabilities adap fh call).2 ≠ 0 →
      (cecSMode capabilities adap fh call).1 = adap) ↔ ¬LosesMonitor capabilities adap fh call := by
  refine ⟨run_inv_along (fun _ _ _ h hP hstep => bookkept_step h hP hstep) bookkept_init hundone hrun, ?_⟩
  intro fh call
  rcases cecSMode_cases capabilities adap fh call with
    ⟨hnot, -, hcall⟩ | ⟨hnot, -, hsame⟩ | ⟨hloses, hne, hlost⟩
  · exact iff_of_true (fun h => absurd (congrArg Prod.snd hcall) h) hnot
  · exact iff_of_true (fun _ => hsame) hnot
  · refine iff_of_false (fun h => ?_) (not_not.2 hloses)
    have hcnt := congrArg ModeAdap.monitorAllCnt (hlost.symm.trans (h hne))
    dsimp only at hcnt
    omega

/-- A handle that monitors everything and is closed again. -/
theorem bookkept_run_monitorAll : ∃ adap, run (modeStep 0xff) .init
    [.open 1, .sMode 1 ⟨CEC_MODE_MONITOR_ALL, true, 0, -5⟩, .release 1] = some adap ∧ Bookkept adap := by
  have hsome : (run (modeStep 0xff) .init
      [.open 1, .sMode 1 ⟨CEC_MODE_MONITOR_ALL, true, 0, -5⟩, .release 1]).isSome = true := by decide +kernel
  obtain ⟨adap, hrun⟩ := Option.isSome_iff_exists.1 hsome
  have hundone : Along (modeStep 0xff) (Undone 0xff) .init
      [.open 1, .sMode 1 ⟨CEC_MODE_MONITOR_ALL, true, 0, -5⟩, .release 1] :=
    ⟨trivial, fun _ _ => ⟨fun h => absurd h.2.2.1 (by decide), fun _ _ => ⟨trivial, fun _ _ => trivial⟩⟩⟩
  exact ⟨adap, hrun, (bookkept_run hundone hrun).1⟩

/-- The driver lets a handle monitor everything and then not the pin: the call fails, and the handle that
still monitors everything is not counted any more. -/
theorem not_cecSMode_unchanged : ∃ adap, run (modeStep 0xff) .init
    [.open 1, .sMode 1 ⟨CEC_MODE_MONITOR_ALL, true, 0, -5⟩] = some adap ∧
      (cecSMode 0xff adap 1 ⟨CEC_MODE_MONITOR_PIN, true, 0, -5⟩).2 = -5 ∧
      (cecSMode 0xff adap 1 ⟨CEC_MODE_MONITOR_PIN, true, 0, -5⟩).1 ≠ adap ∧
      ¬Bookkept (cecSMode 0xff adap 1 ⟨CEC_MODE_MONITOR_PIN, true, 0, -5⟩).1 := by
  have hrun : (run (modeStep 0xff) .init [.open 1, .sMode 1 ⟨CEC_MODE_MONITOR_ALL, true, 0, -5⟩]).map
      (fun adap => (adap.monitorAllCnt, (cecSMode 0xff adap 1 ⟨CEC_MODE_MONITOR_PIN, true, 0, -5⟩).2,
        (cecSMode 0xff adap 1 ⟨CEC_MODE_MONITOR_PIN, true, 0, -5⟩).1.monitorAllCnt,
        countOf (cecSMode 0xff adap 1 ⟨CEC_MODE_MONITOR_PIN, true, 0, -5⟩).1.fhs
          (cecSMode 0xff adap 1 ⟨CEC_MODE_MONITOR_PIN, true, 0, -5⟩).1.modeFollower CEC_MODE_MONITOR_ALL)) =
      some (1, -5, 0, 1) := by decide +kernel
  obtain ⟨adap, hadap, hvalues⟩ := Option.map_eq_some_iff.1 hrun
  obtain ⟨hbefore, hret, hafter, hcount⟩ : _ = (1 : ℤ) ∧ _ = (-5 : ℤ) ∧ _ = (0 : ℤ) ∧ _ = (1 : ℤ) := by
    simpa only [Prod.mk.injEq] using hvalues
  refine ⟨adap, hadap, hret, fun hsame => ?_, fun h => ?_⟩
  · rw [hsame, hbefore] at hafter
    exact absurd hafter (by decide)
  · have hall := h.monitorAll
    rw [hafter, hcount] at hall
    exact absurd hall (by decide)

end Cec
end TbsMedia
