import Mathlib

/-!
# The zigzag scan

`dvb_frontend_swzigzag_autotune` of `dvb_frontend.c` looks for the next attempt around the frequency that
the user has asked for, writes it to the cache, and calls the driver.  The request is put back after a
success and lost after an error.

* `zigzag`: the loop that looks for the attempt, and `attempt` without a loop.
* `dvbFrontendSwzigzagAutotune`: the function.
* `autotune_restores_iff`: the calls after which the request is what it has been.

An `int` is the word with its bits.
-/

namespace TbsMedia
namespace Frontend

/-! ## The code -/

def INVERSION_OFF : UInt32 := 0
def INVERSION_ON : UInt32 := 1
def INVERSION_AUTO : UInt32 := 2

def FE_CAN_INVERSION_AUTO : UInt32 := 0x1
def FESTATE_ERROR : UInt32 := 256

/-- The zigzag values of `struct dvb_frontend_private`. -/
structure DvbFrontendPrivate where
  state : UInt32
  lnbDrift : UInt32
  inversion : UInt32
  autoStep : UInt32
  autoSubStep : UInt32
  startedAutoStep : UInt32
  maxDrift : UInt32
  stepSize : UInt32
  deriving DecidableEq

/-- `struct dtv_frontend_properties`. -/
structure DtvFrontendProperties (ρ : Type*) where
  frequency : UInt32
  inversion : UInt32
  others : ρ
  deriving DecidableEq

/-- `struct dvb_frontend`, with what the driver leaves in the cache and returns if it has a `set_frontend`. -/
structure DvbFrontend (ρ : Type*) where
  caps : UInt32
  fepriv : DvbFrontendPrivate
  dtvPropertyCache : DtvFrontendProperties ρ
  setFrontend : Option (DtvFrontendProperties ρ × ℤ)

variable {ρ : Type*}

/-- The inversion is guessed here, since the driver does not do it. -/
def autoinversion (fe : DvbFrontend ρ) : Bool :=
  fe.caps &&& FE_CAN_INVERSION_AUTO = 0 ∧ fe.dtvPropertyCache.inversion = INVERSION_AUTO

def toggled (inversion : UInt32) : UInt32 :=
  if inversion = INVERSION_OFF then INVERSION_ON else INVERSION_OFF

/-- The drift of the step, and the return to the first step where it is too far. -/
def setDrift (fepriv : DvbFrontendPrivate) : DvbFrontendPrivate :=
  if fepriv.maxDrift < fepriv.autoStep * fepriv.stepSize then
    { fepriv with autoStep := 0, autoSubStep := 0, lnbDrift := 0 }
  else { fepriv with lnbDrift := fepriv.autoStep * fepriv.stepSize }

/-- The `switch` of the loop, with `ready`. -/
def perform (auto : Bool) (fepriv : DvbFrontendPrivate) : Bool × DvbFrontendPrivate :=
  if fepriv.autoSubStep = 0 then (true, fepriv)
  else if fepriv.autoSubStep = 1 then
    if ¬ auto then (false, fepriv) else (true, { fepriv with inversion := toggled fepriv.inversion })
  else if fepriv.autoSubStep = 2 then
    if fepriv.lnbDrift = 0 then (false, fepriv) else (true, { fepriv with lnbDrift := -fepriv.lnbDrift })
  else if fepriv.autoSubStep = 3 then
    if fepriv.lnbDrift = 0 then (false, fepriv)
    else if ¬ auto then (false, fepriv)
    else (true, { fepriv with inversion := toggled fepriv.inversion, lnbDrift := -fepriv.lnbDrift })
  else (false, { fepriv with autoStep := fepriv.autoStep + 1, autoSubStep := -1 })

/-- The loop, which is `none` if it has not come to an end after so many rounds. -/
def zigzag (auto : Bool) : ℕ → DvbFrontendPrivate → Option DvbFrontendPrivate
  | 0, _ => none
  | n + 1, fepriv =>
    let round := perform auto (setDrift fepriv)
    if round.1 then some round.2
    else zigzag auto n { round.2 with autoSubStep := round.2.autoSubStep + 1 }

/-- The rest of the function, after the loop.  What the driver leaves in the cache is overwritten. -/
def setAttempt (fe : DvbFrontend ρ) (checkWrapped : Bool) (fepriv : DvbFrontendPrivate) : ℤ × DvbFrontend ρ :=
  let c := fe.dtvPropertyCache
  if fepriv.autoStep = fepriv.startedAutoStep ∧ fepriv.autoSubStep = 0 ∧ checkWrapped then
    (1, { fe with fepriv := fepriv })
  else
    let tmp : DtvFrontendProperties ρ :=
      { c with
        frequency := c.frequency + fepriv.lnbDrift
        inversion := if autoinversion fe then fepriv.inversion else c.inversion }
    let feSetErr := (fe.setFrontend.map Prod.snd).getD 0
    if feSetErr < 0 then
      (feSetErr, { fe with fepriv := { fepriv with state := FESTATE_ERROR }, dtvPropertyCache := tmp })
    else
      (0,
        { fe with
          fepriv := { fepriv with autoSubStep := fepriv.autoSubStep + 1 }
          dtvPropertyCache := { tmp with frequency := c.frequency, inversion := c.inversion } })

/-- `dvb_frontend_swzigzag_autotune`.  The loop has no more than five rounds. -/
def dvbFrontendSwzigzagAutotune (fe : DvbFrontend ρ) (checkWrapped : Bool) : Option (ℤ × DvbFrontend ρ) :=
  (zigzag (autoinversion fe) 5 fe.fepriv).map (setAttempt fe checkWrapped)

/-! ## The attempt without a loop -/

/-- The first attempt of a step. -/
def startStep (fepriv : DvbFrontendPrivate) (step : UInt32) : DvbFrontendPrivate :=
  if fepriv.maxDrift < step * fepriv.stepSize then
    { fepriv with autoStep := 0, autoSubStep := 0, lnbDrift := 0 }
  else { fepriv with autoStep := step, autoSubStep := 0, lnbDrift := step * fepriv.stepSize }

/-- The attempt: up or down, with the inversion as it is or the other way round, and otherwise the first
attempt of the next step. -/
def attempt (auto : Bool) (fepriv : DvbFrontendPrivate) : DvbFrontendPrivate :=
  let drift := fepriv.autoStep * fepriv.stepSize
  if fepriv.maxDrift < drift ∨ fepriv.autoSubStep = 0 then startStep fepriv fepriv.autoStep
  else if fepriv.autoSubStep = 1 ∧ auto then
    { fepriv with lnbDrift := drift, inversion := toggled fepriv.inversion }
  else if (fepriv.autoSubStep = 1 ∨ fepriv.autoSubStep = 2) ∧ drift ≠ 0 then
    { fepriv with autoSubStep := 2, lnbDrift := -drift }
  else if fepriv.autoSubStep = 3 ∧ drift ≠ 0 ∧ auto then
    { fepriv with lnbDrift := -drift, inversion := toggled fepriv.inversion }
  else startStep fepriv (fepriv.autoStep + 1)

section Loop

variable {auto : Bool} {fepriv : DvbFrontendPrivate}

theorem zigzag_of_ready {n : ℕ} {next : DvbFrontendPrivate} (h : perform auto (setDrift fepriv) = (true, next)) :
    zigzag auto (n + 1) fepriv = some next := by
  unfold zigzag
  rw [h]
  rfl

theorem zigzag_of_not_ready {n : ℕ} {next : DvbFrontendPrivate}
    (h : perform auto (setDrift fepriv) = (false, next)) :
    zigzag auto (n + 1) fepriv = zigzag auto n { next with autoSubStep := next.autoSubStep + 1 } := by
  conv_lhs => unfold zigzag
  rw [h]
  rfl

/-- A step starts with an attempt. -/
theorem zigzag_start {n : ℕ} (h : fepriv.autoSubStep = 0) :
    zigzag auto (n + 1) fepriv = some (startStep fepriv fepriv.autoStep) := by
  have hstart : setDrift fepriv = startStep fepriv fepriv.autoStep := by
    unfold setDrift startStep
    rw [← h]
  have hzero : (startStep fepriv fepriv.autoStep).autoSubStep = 0 := by
    unfold startStep
    split_ifs <;> rfl
  have hperform : perform auto (setDrift fepriv) = (true, startStep fepriv fepriv.autoStep) := by
    rw [hstart]
    exact if_pos hzero
  exact zigzag_of_ready hperform

theorem setDrift_of_le (h : ¬ fepriv.maxDrift < fepriv.autoStep * fepriv.stepSize) :
    setDrift fepriv = { fepriv with lnbDrift := fepriv.autoStep * fepriv.stepSize } := if_neg h

/-- Behind the attempts of a step the next one starts. -/
theorem zigzag_next {n : ℕ} (h : ¬ fepriv.maxDrift < fepriv.autoStep * fepriv.stepSize)
    (h₀ : fepriv.autoSubStep ≠ 0) (h₁ : fepriv.autoSubStep ≠ 1) (h₂ : fepriv.autoSubStep ≠ 2)
    (h₃ : fepriv.autoSubStep ≠ 3) :
    zigzag auto (n + 2) fepriv = some (startStep fepriv (fepriv.autoStep + 1)) := by
  have hperform : perform auto (setDrift fepriv) =
      (false,
        { fepriv with
          lnbDrift := fepriv.autoStep * fepriv.stepSize, autoStep := fepriv.autoStep + 1, autoSubStep := -1 }) := by
    rw [setDrift_of_le h]
    unfold perform
    rw [if_neg h₀, if_neg h₁, if_neg h₂, if_neg h₃]
  rw [zigzag_of_not_ready hperform]
  exact zigzag_start (show (-1 : UInt32) + 1 = 0 by decide)

/-- The attempt down with the inversion the other way round. -/
theorem zigzag_three {n : ℕ} (h : ¬ fepriv.maxDrift < fepriv.autoStep * fepriv.stepSize)
    (h₃ : fepriv.autoSubStep = 3) :
    zigzag auto (n + 3) fepriv = some
      (if fepriv.autoStep * fepriv.stepSize ≠ 0 ∧ auto then
        { fepriv with
          lnbDrift := -(fepriv.autoStep * fepriv.stepSize), inversion := toggled fepriv.inversion }
      else startStep fepriv (fepriv.autoStep + 1)) := by
  have hperform : perform auto (setDrift fepriv) =
      if fepriv.autoStep * fepriv.stepSize ≠ 0 ∧ auto then
        (true,
          { fepriv with
            lnbDrift := -(fepriv.autoStep * fepriv.stepSize), inversion := toggled fepriv.inversion })
      else (false, { fepriv with lnbDrift := fepriv.autoStep * fepriv.stepSize }) := by
    rw [setDrift_of_le h]
    unfold perform
    dsimp only
    rw [h₃, if_neg (by decide), if_neg (by decide), if_neg (by decide), if_pos rfl]
    by_cases hzero : fepriv.autoStep * fepriv.stepSize = 0
    · rw [if_pos hzero, if_neg (fun hand => hand.1 hzero)]
    · rw [if_neg hzero]
      by_cases hauto : auto = true
      · rw [if_neg (not_not.mpr hauto), if_pos ⟨hzero, hauto⟩]
      · rw [if_pos hauto, if_neg (fun hand => hauto hand.2)]
  by_cases hready : fepriv.autoStep * fepriv.stepSize ≠ 0 ∧ auto = true
  · rw [if_pos hready] at hperform ⊢
    exact zigzag_of_ready hperform
  · rw [if_neg hready] at hperform ⊢
    rw [zigzag_of_not_ready hperform]
    dsimp only
    rw [h₃]
    refine (zigzag_next ?_ ?_ ?_ ?_ ?_).trans rfl
    · exact h
    all_goals exact of_decide_eq_true rfl

/-- The attempt down. -/
theorem zigzag_two {n : ℕ} (h : ¬ fepriv.maxDrift < fepriv.autoStep * fepriv.stepSize)
    (h₂ : fepriv.autoSubStep = 2) :
    zigzag auto (n + 4) fepriv = some
      (if fepriv.autoStep * fepriv.stepSize ≠ 0 then
        { fepriv with autoSubStep := 2, lnbDrift := -(fepriv.autoStep * fepriv.stepSize) }
      else startStep fepriv (fepriv.autoStep + 1)) := by
  have hperform : perform auto (setDrift fepriv) =
      if fepriv.autoStep * fepriv.stepSize = 0 then
        (false, { fepriv with lnbDrift := fepriv.autoStep * fepriv.stepSize })
      else (true, { fepriv with lnbDrift := -(fepriv.autoStep * fepriv.stepSize) }) := by
    rw [setDrift_of_le h]
    unfold perform
    dsimp only
    rw [h₂, if_neg (by decide), if_neg (by decide), if_pos rfl]
  by_cases hzero : fepriv.autoStep * fepriv.stepSize = 0
  · rw [if_pos hzero] at hperform
    rw [if_neg (not_not.mpr hzero), zigzag_of_not_ready hperform]
    dsimp only
    rw [h₂]
    refine (zigzag_three ?_ ?_).trans (congrArg some (if_neg ?_))
    · exact h
    · rfl
    · exact fun hand => hand.1 hzero
  · rw [if_neg hzero] at hperform
    rw [if_pos hzero, zigzag_of_ready hperform, ← h₂]

/-- **The loop finds the attempt**, after five rounds at most. -/
theorem zigzag_eq (n : ℕ) : zigzag auto (n + 5) fepriv = some (attempt auto fepriv) := by
  unfold attempt
  dsimp only
  by_cases h : fepriv.maxDrift < fepriv.autoStep * fepriv.stepSize
  · rw [if_pos (Or.inl h)]
    have hset : setDrift fepriv = startStep fepriv fepriv.autoStep := by
      unfold setDrift startStep
      rw [if_pos h, if_pos h]
    have hperform : perform auto (setDrift fepriv) = (true, startStep fepriv fepriv.autoStep) := by
      rw [hset]
      unfold startStep
      rw [if_pos h]
      exact if_pos rfl
    exact zigzag_of_ready hperform
  by_cases h₀ : fepriv.autoSubStep = 0
  · rw [if_pos (Or.inr h₀)]
    exact zigzag_start h₀
  rw [if_neg (not_or.mpr ⟨h, h₀⟩)]
  by_cases h₁ : fepriv.autoSubStep = 1
  · have hperform : perform auto (setDrift fepriv) =
        if ¬ auto then (false, { fepriv with lnbDrift := fepriv.autoStep * fepriv.stepSize })
        else
          (true,
            { fepriv with
              lnbDrift := fepriv.autoStep * fepriv.stepSize, inversion := toggled fepriv.inversion }) := by
      rw [setDrift_of_le h]
      unfold perform
      dsimp only
      rw [if_neg h₀, if_pos h₁]
    by_cases hauto : auto = true
    · rw [if_neg (not_not.mpr hauto)] at hperform
      rw [if_pos ⟨h₁, hauto⟩]
      exact zigzag_of_ready hperform
    · rw [if_pos hauto] at hperform
      have hthree : fepriv.autoSubStep ≠ 3 := by rw [h₁]; decide
      rw [if_neg (fun hand => hauto hand.2), zigzag_of_not_ready hperform]
      have htwo : fepriv.autoSubStep + 1 = 2 := by rw [h₁]; rfl
      by_cases hzero : fepriv.autoStep * fepriv.stepSize = 0
      · rw [if_neg (fun hand => hand.2 hzero), if_neg (fun hand => hthree hand.1)]
        refine (zigzag_two ?_ ?_).trans (congrArg some (if_neg ?_))
        · exact h
        · exact htwo
        · exact not_not.mpr hzero
      · rw [if_pos ⟨Or.inl h₁, hzero⟩]
        refine (zigzag_two ?_ ?_).trans (congrArg some (if_pos ?_))
        · exact h
        · exact htwo
        · exact hzero
  rw [if_neg (fun hand => h₁ hand.1)]
  by_cases h₂ : fepriv.autoSubStep = 2
  · have hthree : fepriv.autoSubStep ≠ 3 := by rw [h₂]; decide
    rw [zigzag_two h h₂]
    by_cases hzero : fepriv.autoStep * fepriv.stepSize = 0
    · rw [if_neg (not_not.mpr hzero), if_neg (fun hand => hand.2 hzero), if_neg (fun hand => hthree hand.1)]
    · rw [if_pos hzero, if_pos ⟨Or.inr h₂, hzero⟩]
  rw [if_neg (fun hand => hand.1.elim h₁ h₂)]
  by_cases h₃ : fepriv.autoSubStep = 3
  · rw [zigzag_three h h₃]
    by_cases hready : fepriv.autoStep * fepriv.stepSize ≠ 0 ∧ auto = true
    · rw [if_pos hready, if_pos ⟨h₃, hready⟩]
    · rw [if_neg hready, if_neg (fun hand => hready hand.2)]
  · rw [if_neg (fun hand => h₃ hand.1)]
    exact zigzag_next h h₀ h₁ h₂ h₃

end Loop

/-! ## The attempts -/

/-- An attempt of the step is still to be made, behind the first one. -/
def Pending (auto : Bool) (fepriv : DvbFrontendPrivate) : Prop :=
  fepriv.autoSubStep = 1 ∧ auto ∨
    (fepriv.autoSubStep = 1 ∨ fepriv.autoSubStep = 2) ∧ fepriv.autoStep * fepriv.stepSize ≠ 0 ∨
    fepriv.autoSubStep = 3 ∧ fepriv.autoStep * fepriv.stepSize ≠ 0 ∧ auto

/-- The first attempt of the step `step` is made. -/
def Starts (auto : Bool) (fepriv : DvbFrontendPrivate) (step : UInt32) : Prop :=
  if fepriv.maxDrift < fepriv.autoStep * fepriv.stepSize ∨ fepriv.autoSubStep = 0 then step = fepriv.autoStep
  else ¬ Pending auto fepriv ∧ step = fepriv.autoStep + 1

/-- The step that there is in place of one that is too far. -/
def reached (fepriv : DvbFrontendPrivate) (step : UInt32) : UInt32 :=
  if fepriv.maxDrift < step * fepriv.stepSize then 0 else step

section Attempt

variable {auto : Bool} {fepriv : DvbFrontendPrivate} {step : UInt32}

theorem toggled_ne_auto (inversion : UInt32) : toggled inversion ≠ INVERSION_AUTO := by
  unfold toggled
  split_ifs <;> decide

theorem startStep_eq (fepriv : DvbFrontendPrivate) (step : UInt32) :
    startStep fepriv step =
      { fepriv with
        autoStep := reached fepriv step, autoSubStep := 0, lnbDrift := reached fepriv step * fepriv.stepSize } := by
  unfold startStep reached
  split_ifs
  · rw [UInt32.zero_mul]
  · rfl

theorem Starts.unique {step' : UInt32} (h : Starts auto fepriv step) (h' : Starts auto fepriv step') : step = step' := by
  unfold Starts at h h'
  split_ifs at h h'
  · exact h.trans h'.symm
  · exact h.2.trans h'.2.symm

theorem attempt_of_starts (h : Starts auto fepriv step) : attempt auto fepriv = startStep fepriv step := by
  unfold Starts at h
  unfold attempt
  dsimp only
  by_cases hfirst : fepriv.maxDrift < fepriv.autoStep * fepriv.stepSize ∨ fepriv.autoSubStep = 0
  · rw [if_pos hfirst] at h ⊢
    rw [h]
  · rw [if_neg hfirst] at h ⊢
    obtain ⟨hpending, rfl⟩ := h
    rw [if_neg (fun hand => hpending (Or.inl hand)), if_neg (fun hand => hpending (Or.inr (Or.inl hand))),
      if_neg (fun hand => hpending (Or.inr (Or.inr hand)))]

/-- The other attempts have another frequency, or a guessed inversion. -/
theorem attempt_of_not_starts (h : ∀ step, ¬ Starts auto fepriv step) :
    (attempt auto fepriv).autoSubStep ≠ 0 ∧
      ((attempt auto fepriv).lnbDrift ≠ 0 ∨ auto = true ∧ (attempt auto fepriv).inversion ≠ INVERSION_AUTO) := by
  unfold Starts at h
  unfold attempt
  dsimp only
  by_cases hfirst : fepriv.maxDrift < fepriv.autoStep * fepriv.stepSize ∨ fepriv.autoSubStep = 0
  · simp only [if_pos hfirst] at h
    exact absurd rfl (h fepriv.autoStep)
  · simp only [if_neg hfirst] at h ⊢
    have hpending : Pending auto fepriv := by
      by_contra hnot
      exact h _ ⟨hnot, rfl⟩
    have hzero := (not_or.mp hfirst).2
    by_cases hone : fepriv.autoSubStep = 1 ∧ auto = true
    · rw [if_pos hone]
      exact ⟨hzero, Or.inr ⟨hone.2, toggled_ne_auto _⟩⟩
    rw [if_neg hone]
    by_cases htwo : (fepriv.autoSubStep = 1 ∨ fepriv.autoSubStep = 2) ∧ fepriv.autoStep * fepriv.stepSize ≠ 0
    · rw [if_pos htwo]
      exact ⟨(by decide : (2 : UInt32) ≠ 0), Or.inl (UInt32.neg_ne_zero.mpr htwo.2)⟩
    rw [if_neg htwo, if_pos ((hpending.resolve_left hone).resolve_left htwo)]
    have hthree := (hpending.resolve_left hone).resolve_left htwo
    exact ⟨hzero, Or.inl (UInt32.neg_ne_zero.mpr hthree.2.1)⟩

end Attempt

/-! ## The request -/

/-- The driver has a `set_frontend`, which returns an error. -/
def Refused (fe : DvbFrontend ρ) : Prop := ∃ left err, fe.setFrontend = some (left, err) ∧ err < 0

/-- The scan has come back to the step where it has started, and the caller wants to know. -/
def Complete (fe : DvbFrontend ρ) (checkWrapped : Bool) : Prop :=
  checkWrapped = true ∧ ∃ step, Starts (autoinversion fe) fe.fepriv step ∧
    reached fe.fepriv step = fe.fepriv.startedAutoStep

/-- The attempt is the request itself. -/
def AtRequest (fe : DvbFrontend ρ) : Prop :=
  (autoinversion fe = true → fe.fepriv.inversion = INVERSION_AUTO) ∧
    ∃ step, Starts (autoinversion fe) fe.fepriv step ∧ reached fe.fepriv step * fe.fepriv.stepSize = 0

/-- After the call the request is what it has been. -/
def Restores (fe : DvbFrontend ρ) (checkWrapped : Bool) : Prop :=
  ∃ ret fe', dvbFrontendSwzigzagAutotune fe checkWrapped = some (ret, fe') ∧
    fe'.dtvPropertyCache.frequency = fe.dtvPropertyCache.frequency ∧
    fe'.dtvPropertyCache.inversion = fe.dtvPropertyCache.inversion

variable {fe : DvbFrontend ρ} {checkWrapped : Bool}

theorem inversion_eq_auto (h : autoinversion fe = true) : fe.dtvPropertyCache.inversion = INVERSION_AUTO :=
  (of_decide_eq_true h).2

theorem autotune_eq (fe : DvbFrontend ρ) (checkWrapped : Bool) :
    dvbFrontendSwzigzagAutotune fe checkWrapped =
      some (setAttempt fe checkWrapped (attempt (autoinversion fe) fe.fepriv)) := by
  unfold dvbFrontendSwzigzagAutotune
  rw [@zigzag_eq _ _ 0]
  rfl

theorem restores_iff_setAttempt :
    Restores fe checkWrapped ↔
      (setAttempt fe checkWrapped (attempt (autoinversion fe) fe.fepriv)).2.dtvPropertyCache.frequency =
          fe.dtvPropertyCache.frequency ∧
        (setAttempt fe checkWrapped (attempt (autoinversion fe) fe.fepriv)).2.dtvPropertyCache.inversion =
          fe.dtvPropertyCache.inversion := by
  unfold Restores
  rw [autotune_eq]
  constructor
  · rintro ⟨ret, fe', hrun, hsame⟩
    rw [Option.some.inj hrun]
    exact hsame
  · intro hsame
    exact ⟨_, _, rfl, hsame⟩

/-- A finished iteration is one that has come to a first attempt. -/
theorem complete_iff :
    Complete fe checkWrapped ↔
      (attempt (autoinversion fe) fe.fepriv).autoStep = (attempt (autoinversion fe) fe.fepriv).startedAutoStep ∧
        (attempt (autoinversion fe) fe.fepriv).autoSubStep = 0 ∧ checkWrapped = true := by
  by_cases hstarts : ∃ step, Starts (autoinversion fe) fe.fepriv step
  · obtain ⟨step, hstep⟩ := hstarts
    rw [attempt_of_starts hstep, startStep_eq]
    constructor
    · rintro ⟨hwrapped, step', hstep', hreached⟩
      rw [hstep.unique hstep']
      exact ⟨hreached, rfl, hwrapped⟩
    · rintro ⟨hreached, -, hwrapped⟩
      exact ⟨hwrapped, step, hstep, hreached⟩
  · have hsub := (attempt_of_not_starts (not_exists.mp hstarts)).1
    constructor
    · rintro ⟨-, step, hstep, -⟩
      exact absurd ⟨step, hstep⟩ hstarts
    · rintro ⟨-, hzero, -⟩
      exact absurd hzero hsub

/-- The attempt is the request if it has neither another frequency nor another inversion. -/
theorem atRequest_iff :
    AtRequest fe ↔
      (attempt (autoinversion fe) fe.fepriv).lnbDrift = 0 ∧
        (autoinversion fe = true → (attempt (autoinversion fe) fe.fepriv).inversion = INVERSION_AUTO) := by
  by_cases hstarts : ∃ step, Starts (autoinversion fe) fe.fepriv step
  · obtain ⟨step, hstep⟩ := hstarts
    rw [attempt_of_starts hstep, startStep_eq]
    constructor
    · rintro ⟨hinversion, step', hstep', hdrift⟩
      rw [hstep.unique hstep']
      exact ⟨hdrift, hinversion⟩
    · rintro ⟨hdrift, hinversion⟩
      exact ⟨hinversion, step, hstep, hdrift⟩
  · have hother := (attempt_of_not_starts (not_exists.mp hstarts)).2
    constructor
    · rintro ⟨-, step, hstep, -⟩
      exact absurd ⟨step, hstep⟩ hstarts
    · rintro ⟨hdrift, hinversion⟩
      exact hother.elim (fun hne => absurd hdrift hne) fun hand => absurd (hinversion hand.1) hand.2

theorem refused_iff : Refused fe ↔ (fe.setFrontend.map Prod.snd).getD 0 < 0 := by
  unfold Refused
  rcases fe.setFrontend with - | ⟨left, err⟩
  · constructor
    · rintro ⟨left, err, h, -⟩
      exact absurd h.symm (Option.some_ne_none _)
    · exact fun hneg => absurd hneg (lt_irrefl _)
  · constructor
    · rintro ⟨left', err', h, hneg⟩
      have herr : err = err' := (Prod.ext_iff.mp (Option.some.inj h)).2
      rw [← herr] at hneg
      exact hneg
    · exact fun hneg => ⟨left, err, rfl, hneg⟩

/-- **When the request is put back**: unless the driver refuses an attempt that is not the request. -/
theorem autotune_restores_iff (fe : DvbFrontend ρ) (checkWrapped : Bool) :
    Restores fe checkWrapped ↔ ¬ Refused fe ∨ Complete fe checkWrapped ∨ AtRequest fe := by
  rw [restores_iff_setAttempt, complete_iff, atRequest_iff, refused_iff]
  unfold setAttempt
  dsimp only
  by_cases hcomplete : (attempt (autoinversion fe) fe.fepriv).autoStep =
      (attempt (autoinversion fe) fe.fepriv).startedAutoStep ∧
        (attempt (autoinversion fe) fe.fepriv).autoSubStep = 0 ∧ checkWrapped = true
  · rw [if_pos hcomplete]
    exact ⟨fun _ => Or.inr (Or.inl hcomplete), fun _ => ⟨rfl, rfl⟩⟩
  rw [if_neg hcomplete]
  by_cases herr : (fe.setFrontend.map Prod.snd).getD 0 < 0
  · rw [if_pos herr]
    dsimp only
    rw [UInt32.add_eq_left]
    constructor
    · rintro ⟨hdrift, hinversion⟩
      refine Or.inr (Or.inr ⟨hdrift, fun hauto => ?_⟩)
      rw [if_pos hauto] at hinversion
      exact hinversion.trans (inversion_eq_auto hauto)
    · rintro (hnot | hwas | ⟨hdrift, hinversion⟩)
      · exact absurd herr hnot
      · exact absurd hwas hcomplete
      · refine ⟨hdrift, ?_⟩
        split_ifs with hauto
        · exact (hinversion hauto).trans (inversion_eq_auto hauto).symm
        · rfl
  · rw [if_neg herr]
    exact ⟨fun _ => Or.inl herr, fun _ => ⟨rfl, rfl⟩⟩

/-- A frontend in the middle of a scan whose driver refuses everything. -/
def refusing : DvbFrontend Unit where
  caps := 0
  fepriv :=
    { state := 32, lnbDrift := 0, inversion := INVERSION_OFF, autoStep := 1, autoSubStep := 0, startedAutoStep := 0
      maxDrift := 11000, stepSize := 1375 }
  dtvPropertyCache := { frequency := 1880000, inversion := INVERSION_AUTO, others := () }
  setFrontend := some ({ frequency := 0, inversion := 0, others := () }, -22)

theorem not_restores_refusing : ¬ Restores refusing false := by
  rw [restores_iff_setAttempt]
  rintro ⟨hfrequency, -⟩
  exact absurd hfrequency (by decide)

end Frontend
end TbsMedia
