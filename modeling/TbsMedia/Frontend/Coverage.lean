import TbsMedia.Frontend.Search
import Mathlib

/-!
# What a fast search covers

A fast search goes through the steps from the one it has started at, and comes back to it.  When it is reported to be
complete, the steps it has gone through are closed under taking the next one, so all the steps up to the maximum
drift are among them.

* `InSearch`: the invariant of a search, over the attempts that have been made since it began.
* `covers_run`: in a run where no search begins in the middle of a step that it needs, a search that is complete has
  set the frontend at every candidate.
* `not_covers`: a search behind a lost lock begins in the middle of a step, and ends before that step.
-/

namespace TbsMedia
namespace Frontend

variable {ρ : Type*}

/-! ## The candidates -/

/-- The properties with the drift `d`, and with `inversion` if it has to be guessed. -/
def propsAt (fe : DvbFrontend ρ) (d inversion : UInt32) : DtvFrontendProperties ρ :=
  { fe.dtvPropertyCache with
    frequency := fe.dtvPropertyCache.frequency + d
    inversion := if autoinversion fe then inversion else fe.dtvPropertyCache.inversion }

/-- Both inversions, if it has to be guessed, have been tried with the drift `d`. -/
def Both (fe : DvbFrontend ρ) (tried : List (DtvFrontendProperties ρ)) (d : UInt32) : Prop :=
  propsAt fe d INVERSION_OFF ∈ tried ∧ propsAt fe d INVERSION_ON ∈ tried

/-- The whole step has been tried. -/
def Full (fe : DvbFrontend ρ) (tried : List (DtvFrontendProperties ρ)) (k : UInt32) : Prop :=
  Both fe tried (k * fe.fepriv.stepSize) ∧ Both fe tried (-(k * fe.fepriv.stepSize))

/-- Every candidate has been tried: the drift of each step up to the maximum, in both directions. -/
def Covered (fe : DvbFrontend ρ) (tried : List (DtvFrontendProperties ρ)) : Prop :=
  ∀ k : ℕ, k * fe.fepriv.stepSize.toNat ≤ fe.fepriv.maxDrift.toNat →
    Both fe tried (UInt32.ofNat (k * fe.fepriv.stepSize.toNat)) ∧
      Both fe tried (-UInt32.ofNat (k * fe.fepriv.stepSize.toNat))

/-- The step is too far away. -/
def Beyond (fepriv : DvbFrontendPrivate) (k : UInt32) : Prop := fepriv.maxDrift < k * fepriv.stepSize

/-- The step that the search has begun at, if it is not needed: another one is the same, or it is too far away. -/
def Exempt (fepriv : DvbFrontendPrivate) (k : UInt32) : Prop :=
  k = fepriv.startedAutoStep ∧
    (fepriv.stepSize = 0 ∨ fepriv.maxDrift.toNat < k.toNat * fepriv.stepSize.toNat)

/-- What has been tried of the step that the search is in. -/
def Partial (fe : DvbFrontend ρ) (tried : List (DtvFrontendProperties ρ)) : Prop :=
  let d := fe.fepriv.autoStep * fe.fepriv.stepSize
  let sub := fe.fepriv.autoSubStep
  sub = 1 ∧ propsAt fe d fe.fepriv.inversion ∈ tried ∨
    sub = 2 ∧ autoinversion fe = true ∧ Both fe tried d ∨
    sub = 3 ∧ d ≠ 0 ∧ Both fe tried d ∧ propsAt fe (-d) fe.fepriv.inversion ∈ tried ∨
    sub = 4 ∧ autoinversion fe = true ∧ Both fe tried d ∧ Both fe tried (-d)

/-- The steps that the search has left behind. -/
structure Behind (fe : DvbFrontend ρ) (tried : List (DtvFrontendProperties ρ)) (steps : Set UInt32) : Prop where
  full : ∀ k ∈ steps, Exempt fe.fepriv k ∨ Full fe tried k
  next : ∀ k ∈ steps, reached fe.fepriv (k + 1) ∈ steps ∨ reached fe.fepriv (k + 1) = fe.fepriv.autoStep
  started : fe.fepriv.startedAutoStep ∈ steps ∨ fe.fepriv.startedAutoStep = fe.fepriv.autoStep

/-- The state of a search that has made its first attempt.  It never comes back to a step that is too far away. -/
def InSearch (fe : DvbFrontend ρ) (tried : List (DtvFrontendProperties ρ)) : Prop :=
  Beyond fe.fepriv fe.fepriv.startedAutoStep ∨
    ¬ Beyond fe.fepriv fe.fepriv.autoStep ∧ fe.fepriv.autoSubStep ≠ 0 ∧
      (∃ steps, Behind fe tried steps) ∧ (Exempt fe.fepriv fe.fepriv.autoStep ∨ Partial fe tried)

/-- A search may begin here: with the first attempt of its step, or in a step that it does not need. -/
def StartOk (fe : DvbFrontend ρ) : Prop :=
  fe.fepriv.autoSubStep = 0 ∨
    fe.fepriv.autoStep = 0 ∧ fe.fepriv.maxDrift < fe.fepriv.stepSize ∧
      ¬ (fe.fepriv.autoSubStep = 1 ∧ autoinversion fe = true) ∨
    fe.fepriv.stepSize = 0 ∨
    fe.fepriv.maxDrift.toNat < fe.fepriv.autoStep.toNat * fe.fepriv.stepSize.toNat

/-! ## The steps -/

section Steps

variable {fepriv : DvbFrontendPrivate} {k : UInt32}

theorem not_beyond_zero (fepriv : DvbFrontendPrivate) : ¬ Beyond fepriv 0 := by
  unfold Beyond
  rw [UInt32.zero_mul]
  exact UInt32.not_lt_zero

theorem not_beyond_reached (fepriv : DvbFrontendPrivate) (k : UInt32) : ¬ Beyond fepriv (reached fepriv k) := by
  unfold reached
  split
  · exact not_beyond_zero fepriv
  · assumption

theorem reached_of_not_beyond (h : ¬ Beyond fepriv k) : reached fepriv k = k := if_neg h

theorem reached_of_beyond (h : Beyond fepriv k) : reached fepriv k = 0 := if_pos h

theorem toNat_drift (h : k.toNat * fepriv.stepSize.toNat ≤ fepriv.maxDrift.toNat) :
    (k * fepriv.stepSize).toNat = k.toNat * fepriv.stepSize.toNat := by
  rw [UInt32.toNat_mul]
  exact Nat.mod_eq_of_lt (lt_of_le_of_lt h fepriv.maxDrift.toNat_lt)

theorem not_beyond_of_le (h : k.toNat * fepriv.stepSize.toNat ≤ fepriv.maxDrift.toNat) : ¬ Beyond fepriv k := by
  unfold Beyond
  rw [UInt32.lt_iff_toNat_lt, toNat_drift h]
  exact not_lt.mpr h

/-- The search comes to step zero: behind the last step within the drift, or when the counter wraps. -/
theorem zero_mem_of_closed {steps : Set UInt32} (hnext : ∀ k ∈ steps, reached fepriv (k + 1) ∈ steps)
    (hk : k ∈ steps) : 0 ∈ steps := by
  have hall : ∀ n, ∀ k ∈ steps, 2 ^ 32 - k.toNat ≤ n → 0 ∈ steps := by
    intro n
    induction n with
    | zero =>
      intro k _ hle
      have := k.toNat_lt
      omega
    | succ n ih =>
      intro k hmem hle
      have hstep := hnext k hmem
      by_cases hbeyond : Beyond fepriv (k + 1)
      · rwa [reached_of_beyond hbeyond] at hstep
      · rw [reached_of_not_beyond hbeyond] at hstep
        have hlt := k.toNat_lt
        have hsucc : (k + 1).toNat = (k.toNat + 1) % 2 ^ 32 := UInt32.toNat_add k 1
        by_cases hwrap : k.toNat + 1 = 2 ^ 32
        · have hzero : k + 1 = 0 := by
            rw [← UInt32.toNat_inj, hsucc, hwrap]
            rfl
          rwa [hzero] at hstep
        · rw [Nat.mod_eq_of_lt (by omega)] at hsucc
          exact ih (k + 1) hstep (by omega)
  exact hall _ k hk le_rfl

/-- **Steps that are closed under taking the next one** have all the steps up to the maximum drift. -/
theorem mem_of_closed {steps : Set UInt32} (hnext : ∀ k ∈ steps, reached fepriv (k + 1) ∈ steps)
    (hne : steps.Nonempty) (n : ℕ) (hlt : n < 2 ^ 32)
    (hle : n * fepriv.stepSize.toNat ≤ fepriv.maxDrift.toNat) : UInt32.ofNat n ∈ steps := by
  induction n with
  | zero =>
    obtain ⟨k, hk⟩ := hne
    exact zero_mem_of_closed hnext hk
  | succ n ih =>
    have hstep := hnext _ (ih (by omega) ((Nat.mul_le_mul_right _ n.le_succ).trans hle))
    have hsucc : UInt32.ofNat n + 1 = UInt32.ofNat (n + 1) := by
      rw [UInt32.ofNat_add]
      rfl
    have hnat : (UInt32.ofNat (n + 1)).toNat = n + 1 := UInt32.toNat_ofNat_of_lt' hlt
    rw [hsucc, reached_of_not_beyond (not_beyond_of_le (by rw [hnat]; exact hle))] at hstep
    exact hstep

end Steps

/-! ## The attempts of a step -/

section Attempts

variable {fe : DvbFrontend ρ} {tried tried' : List (DtvFrontendProperties ρ)} {d : UInt32}

theorem Both.mono (h : Both fe tried d) (hsub : tried ⊆ tried') : Both fe tried' d := ⟨hsub h.1, hsub h.2⟩

theorem Full.mono {k : UInt32} (h : Full fe tried k) (hsub : tried ⊆ tried') : Full fe tried' k :=
  ⟨h.1.mono hsub, h.2.mono hsub⟩

/-- The inversion that the search guesses is one of the two. -/
def Guess (inversion : UInt32) : Prop := inversion = INVERSION_OFF ∨ inversion = INVERSION_ON

theorem guess_toggled (inversion : UInt32) : Guess (toggled inversion) := by
  unfold toggled
  split
  · exact .inr rfl
  · exact .inl rfl

/-- Without a guess there is only one attempt with a drift. -/
theorem both_of_not_auto {inversion : UInt32} (hauto : ¬ autoinversion fe = true) (h : propsAt fe d inversion ∈ tried) :
    Both fe tried d := by
  unfold Both
  unfold propsAt at h ⊢
  rw [if_neg hauto] at h
  rw [if_neg hauto, if_neg hauto]
  exact ⟨h, h⟩

/-- The guess and the other one are both of them. -/
theorem both_of_toggled {inversion : UInt32} (hguess : Guess inversion) (h : propsAt fe d inversion ∈ tried)
    (h' : propsAt fe d (toggled inversion) ∈ tried) : Both fe tried d := by
  rcases hguess with rfl | rfl
  · exact ⟨h, h'⟩
  · exact ⟨h', h⟩

/-- When no attempt of the step is left, the whole step has been tried. -/
theorem full_of_not_pending (h : Partial fe tried) (hnot : ¬ Pending (autoinversion fe) fe.fepriv) :
    Full fe tried fe.fepriv.autoStep := by
  unfold Full
  unfold Partial at h
  unfold Pending at hnot
  dsimp only at h
  generalize fe.fepriv.autoStep * fe.fepriv.stepSize = d at h hnot
  rcases h with ⟨hsub, hup⟩ | ⟨hsub, -, hup⟩ | ⟨hsub, hd, hup, hdown⟩ | ⟨-, -, hup, hdown⟩
  · have hauto : ¬ autoinversion fe = true := fun h => hnot (.inl ⟨hsub, h⟩)
    have hd : d = 0 := by
      by_contra hne
      exact hnot (.inr (.inl ⟨.inl hsub, hne⟩))
    have hboth := both_of_not_auto hauto hup
    rw [hd] at hboth ⊢
    exact ⟨hboth, hboth⟩
  · have hd : d = 0 := by
      by_contra hne
      exact hnot (.inr (.inl ⟨.inr hsub, hne⟩))
    rw [hd] at hup ⊢
    exact ⟨hup, hup⟩
  · have hauto : ¬ autoinversion fe = true := fun h => hnot (.inr (.inr ⟨hsub, hd, h⟩))
    exact ⟨hup, both_of_not_auto hauto hdown⟩
  · exact ⟨hup, hdown⟩

end Attempts

/-! ## One more attempt -/

/-- The frontend behind an attempt that the driver has taken. -/
def advanced (fe : DvbFrontend ρ) (state : UInt32) : DvbFrontend ρ :=
  { fe with
    fepriv :=
      { attempt (autoinversion fe) fe.fepriv with
        autoSubStep := (attempt (autoinversion fe) fe.fepriv).autoSubStep + 1
        state := state } }

section Advance

variable {fe : DvbFrontend ρ} {tried : List (DtvFrontendProperties ρ)} {state : UInt32}

theorem handed_eq (fe : DvbFrontend ρ) :
    handed fe = propsAt fe (attempt (autoinversion fe) fe.fepriv).lnbDrift
      (attempt (autoinversion fe) fe.fepriv).inversion := rfl

/-- The first attempt of a step. -/
theorem partial_of_start (tried : List (DtvFrontendProperties ρ)) {k : UInt32}
    (h : attempt (autoinversion fe) fe.fepriv = startStep fe.fepriv k) :
    Partial (advanced fe state) (tried ++ [handed fe]) := by
  rw [startStep_eq] at h
  refine .inl ⟨?_, List.mem_append_right _ (List.mem_singleton.mpr ?_)⟩
  · unfold advanced
    rw [h]
    rfl
  · rw [handed_eq]
    unfold advanced
    rw [h]
    rfl

/-- An attempt that is left is made, and the step is where it was. -/
theorem advance_pending (tried : List (DtvFrontendProperties ρ)) (state : UInt32) (hbeyond : ¬ Beyond fe.fepriv fe.fepriv.autoStep) (hzero : fe.fepriv.autoSubStep ≠ 0)
    (hpending : Pending (autoinversion fe) fe.fepriv) :
    (advanced fe state).fepriv.autoStep = fe.fepriv.autoStep ∧ (advanced fe state).fepriv.autoSubStep ≠ 0 ∧
      (Guess fe.fepriv.inversion → Partial fe tried → Partial (advanced fe state) (tried ++ [handed fe])) := by
  have hfirst : ¬ (fe.fepriv.maxDrift < fe.fepriv.autoStep * fe.fepriv.stepSize ∨ fe.fepriv.autoSubStep = 0) :=
    not_or.mpr ⟨hbeyond, hzero⟩
  have hlast : handed fe ∈ tried ++ [handed fe] := List.mem_append_right _ (List.mem_singleton.mpr rfl)
  have hsubset : tried ⊆ tried ++ [handed fe] := List.subset_append_left _ _
  by_cases hone : fe.fepriv.autoSubStep = 1 ∧ autoinversion fe = true
  · have h : attempt (autoinversion fe) fe.fepriv =
        { fe.fepriv with
          lnbDrift := fe.fepriv.autoStep * fe.fepriv.stepSize, inversion := toggled fe.fepriv.inversion } := by
      unfold attempt
      dsimp only
      rw [if_neg hfirst, if_pos hone]
    have hhanded : handed fe = propsAt fe (fe.fepriv.autoStep * fe.fepriv.stepSize) (toggled fe.fepriv.inversion) := by
      rw [handed_eq, h]
    unfold advanced
    rw [h]
    refine ⟨rfl, ?_, fun hguess hpart => .inr (.inl ⟨?_, hone.2, ?_⟩)⟩
    · dsimp only
      rw [hone.1]
      decide
    · dsimp only
      rw [hone.1]
      rfl
    · have hup : propsAt fe (fe.fepriv.autoStep * fe.fepriv.stepSize) fe.fepriv.inversion ∈ tried := by
        rcases hpart with ⟨-, hup⟩ | ⟨hsub, -⟩ | ⟨hsub, -⟩ | ⟨hsub, -⟩
        · exact hup
        all_goals exact absurd (hone.1.symm.trans hsub) (by decide)
      exact both_of_toggled hguess (hsubset hup) (hhanded ▸ hlast)
  by_cases htwo : (fe.fepriv.autoSubStep = 1 ∨ fe.fepriv.autoSubStep = 2) ∧
      fe.fepriv.autoStep * fe.fepriv.stepSize ≠ 0
  · have h : attempt (autoinversion fe) fe.fepriv =
        { fe.fepriv with autoSubStep := 2, lnbDrift := -(fe.fepriv.autoStep * fe.fepriv.stepSize) } := by
      unfold attempt
      dsimp only
      rw [if_neg hfirst, if_neg hone, if_pos htwo]
    have hhanded : handed fe = propsAt fe (-(fe.fepriv.autoStep * fe.fepriv.stepSize)) fe.fepriv.inversion := by
      rw [handed_eq, h]
    unfold advanced
    rw [h]
    refine ⟨rfl, (by decide : (2 : UInt32) + 1 ≠ 0), fun _ hpart => .inr (.inr (.inl ⟨rfl, htwo.2, ?_, ?_⟩))⟩
    · refine Both.mono ?_ hsubset
      rcases hpart with ⟨hsub, hup⟩ | ⟨-, -, hup⟩ | ⟨hsub, -⟩ | ⟨hsub, -⟩
      · exact both_of_not_auto (fun hauto => hone ⟨hsub, hauto⟩) hup
      · exact hup
      all_goals exact (htwo.1.elim (fun h => absurd (h.symm.trans hsub) (by decide))
        fun h => absurd (h.symm.trans hsub) (by decide))
    · exact hhanded ▸ hlast
  have hthree := (hpending.resolve_left hone).resolve_left htwo
  have h : attempt (autoinversion fe) fe.fepriv =
      { fe.fepriv with
        lnbDrift := -(fe.fepriv.autoStep * fe.fepriv.stepSize), inversion := toggled fe.fepriv.inversion } := by
    unfold attempt
    dsimp only
    rw [if_neg hfirst, if_neg hone, if_neg htwo, if_pos hthree]
  have hhanded : handed fe =
      propsAt fe (-(fe.fepriv.autoStep * fe.fepriv.stepSize)) (toggled fe.fepriv.inversion) := by
    rw [handed_eq, h]
  unfold advanced
  rw [h]
  refine ⟨rfl, ?_, fun hguess hpart => .inr (.inr (.inr ⟨?_, hthree.2.2, ?_⟩))⟩
  · dsimp only
    rw [hthree.1]
    decide
  · dsimp only
    rw [hthree.1]
    rfl
  · rcases hpart with ⟨hsub, -⟩ | ⟨hsub, -⟩ | ⟨-, -, hup, hdown⟩ | ⟨hsub, -⟩
    · exact absurd (hthree.1.symm.trans hsub) (by decide)
    · exact absurd (hthree.1.symm.trans hsub) (by decide)
    · exact ⟨hup.mono hsubset, both_of_toggled hguess (hsubset hdown) (hhanded ▸ hlast)⟩
    · exact absurd (hthree.1.symm.trans hsub) (by decide)

/-- With no attempt left, the next step starts. -/
theorem attempt_of_not_pending (hbeyond : ¬ Beyond fe.fepriv fe.fepriv.autoStep) (hzero : fe.fepriv.autoSubStep ≠ 0)
    (hnot : ¬ Pending (autoinversion fe) fe.fepriv) :
    attempt (autoinversion fe) fe.fepriv = startStep fe.fepriv (fe.fepriv.autoStep + 1) := by
  have hfirst : ¬ (fe.fepriv.maxDrift < fe.fepriv.autoStep * fe.fepriv.stepSize ∨ fe.fepriv.autoSubStep = 0) :=
    not_or.mpr ⟨hbeyond, hzero⟩
  refine attempt_of_starts ?_
  unfold Starts
  rw [if_neg hfirst]
  exact ⟨hnot, rfl⟩

/-- What an attempt leaves as it is, and what it may do to the guess. -/
theorem attempt_keeps (auto : Bool) (fepriv : DvbFrontendPrivate) :
    (attempt auto fepriv).startedAutoStep = fepriv.startedAutoStep ∧
      (attempt auto fepriv).maxDrift = fepriv.maxDrift ∧ (attempt auto fepriv).stepSize = fepriv.stepSize ∧
      ((attempt auto fepriv).inversion = fepriv.inversion ∨
        (attempt auto fepriv).inversion = toggled fepriv.inversion) := by
  unfold attempt
  dsimp only
  rw [startStep_eq, startStep_eq]
  split_ifs
  · exact ⟨rfl, rfl, rfl, .inl rfl⟩
  · exact ⟨rfl, rfl, rfl, .inr rfl⟩
  · exact ⟨rfl, rfl, rfl, .inl rfl⟩
  · exact ⟨rfl, rfl, rfl, .inr rfl⟩
  · exact ⟨rfl, rfl, rfl, .inl rfl⟩

theorem advanced_of_start (state : UInt32) {k : UInt32} (h : attempt (autoinversion fe) fe.fepriv = startStep fe.fepriv k) :
    (advanced fe state).fepriv.autoStep = reached fe.fepriv k ∧ (advanced fe state).fepriv.autoSubStep ≠ 0 := by
  unfold advanced
  rw [h, startStep_eq]
  exact ⟨rfl, (by decide : (0 : UInt32) + 1 ≠ 0)⟩

theorem guess_attempt (auto : Bool) {fepriv : DvbFrontendPrivate} (hguess : Guess fepriv.inversion) :
    Guess (attempt auto fepriv).inversion := by
  rcases (attempt_keeps auto fepriv).2.2.2 with h | h
  · rw [h]
    exact hguess
  · rw [h]
    exact guess_toggled _

/-- A step is reached in the same way behind the attempt. -/
theorem reached_advanced (k : UInt32) : reached (advanced fe state).fepriv k = reached fe.fepriv k := by
  obtain ⟨-, hmax, hsize, -⟩ := attempt_keeps (autoinversion fe) fe.fepriv
  unfold reached advanced
  dsimp only
  rw [hmax, hsize]

theorem beyond_advanced (k : UInt32) : Beyond (advanced fe state).fepriv k ↔ Beyond fe.fepriv k := by
  obtain ⟨-, hmax, hsize, -⟩ := attempt_keeps (autoinversion fe) fe.fepriv
  unfold Beyond advanced
  dsimp only
  rw [hmax, hsize]

theorem exempt_advanced (k : UInt32) : Exempt (advanced fe state).fepriv k ↔ Exempt fe.fepriv k := by
  obtain ⟨hstarted, hmax, hsize, -⟩ := attempt_keeps (autoinversion fe) fe.fepriv
  unfold Exempt advanced
  dsimp only
  rw [hmax, hsize, hstarted]

theorem full_advanced (k : UInt32) : Full (advanced fe state) tried k ↔ Full fe tried k := by
  obtain ⟨-, -, hsize, -⟩ := attempt_keeps (autoinversion fe) fe.fepriv
  unfold Full advanced
  dsimp only
  rw [hsize]
  exact Iff.rfl

theorem started_advanced : (advanced fe state).fepriv.startedAutoStep = fe.fepriv.startedAutoStep :=
  (attempt_keeps (autoinversion fe) fe.fepriv).1

/-! ## The invariant -/

theorem Behind.left {steps : Set UInt32} (h : Behind fe tried steps)
    (hstep : Exempt fe.fepriv fe.fepriv.autoStep ∨ Full fe tried fe.fepriv.autoStep) :
    (∀ k ∈ insert fe.fepriv.autoStep steps, Exempt fe.fepriv k ∨ Full fe tried k) ∧
      ∀ k ∈ steps, reached fe.fepriv (k + 1) ∈ insert fe.fepriv.autoStep steps := by
  refine ⟨fun k hk => ?_, fun k hk => ?_⟩
  · rcases hk with rfl | hk
    · exact hstep
    · exact h.full k hk
  · rcases h.next k hk with hmem | heq
    · exact .inr hmem
    · exact .inl heq

/-- **The invariant is kept** by an attempt of the search. -/
theorem InSearch.advance (h : InSearch fe tried) (hguess : Guess fe.fepriv.inversion) :
    InSearch (advanced fe state) (tried ++ [handed fe]) := by
  have hsubset : tried ⊆ tried ++ [handed fe] := List.subset_append_left _ _
  rcases h with hbeyond | ⟨hbeyond, hzero, ⟨steps, hsteps⟩, hstep⟩
  · refine .inl ((beyond_advanced _).mpr ?_)
    rw [started_advanced]
    exact hbeyond
  refine .inr ?_
  by_cases hpending : Pending (autoinversion fe) fe.fepriv
  · obtain ⟨hauto, hsub, hpart⟩ := advance_pending tried state hbeyond hzero hpending
    refine ⟨?_, hsub, ⟨steps, ⟨fun k hk => ?_, fun k hk => ?_, ?_⟩⟩, ?_⟩
    · rw [beyond_advanced, hauto]
      exact hbeyond
    · rw [exempt_advanced, full_advanced]
      exact (hsteps.full k hk).imp_right fun hf => hf.mono hsubset
    · rw [reached_advanced, hauto]
      exact hsteps.next k hk
    · rw [started_advanced, hauto]
      exact hsteps.started
    · rw [exempt_advanced, hauto]
      exact hstep.imp_right (hpart hguess)
  · have hstart := attempt_of_not_pending hbeyond hzero hpending
    obtain ⟨hauto, hsub⟩ := advanced_of_start state hstart
    obtain ⟨hfull, hnext⟩ := hsteps.left (hstep.imp_right fun hp => full_of_not_pending hp hpending)
    refine ⟨?_, hsub, ⟨insert fe.fepriv.autoStep steps, ⟨fun k hk => ?_, fun k hk => ?_, ?_⟩⟩,
      .inr (partial_of_start tried hstart)⟩
    · rw [beyond_advanced, hauto]
      exact not_beyond_reached _ _
    · rw [exempt_advanced, full_advanced]
      exact (hfull k hk).imp_right fun hf => hf.mono hsubset
    · rw [reached_advanced, hauto]
      rcases hk with rfl | hk
      · exact .inr rfl
      · exact .inl (hnext k hk)
    · rw [started_advanced]
      exact .inl (hsteps.started.elim .inr .inl)

/-- The first attempt of a search that may begin where it does. -/
theorem InSearch.begin (hstarted : fe.fepriv.startedAutoStep = fe.fepriv.autoStep) (hok : StartOk fe) :
    InSearch (advanced fe state) [handed fe] := by
  by_cases hbeyond : Beyond fe.fepriv fe.fepriv.autoStep
  · refine .inl ((beyond_advanced _).mpr ?_)
    rw [started_advanced, hstarted]
    exact hbeyond
  refine .inr ?_
  have hnone : (advanced fe state).fepriv.startedAutoStep = (advanced fe state).fepriv.autoStep →
      Behind (advanced fe state) [handed fe] ∅ := fun h =>
    ⟨fun k hk => absurd hk (Set.notMem_empty k), fun k hk => absurd hk (Set.notMem_empty k), .inr h⟩
  -- The first attempt is the one of the step that the search is reported to come back to.
  have hfirst : attempt (autoinversion fe) fe.fepriv = startStep fe.fepriv fe.fepriv.autoStep ∨
      (∃ k, attempt (autoinversion fe) fe.fepriv = startStep fe.fepriv k ∧
        reached fe.fepriv k = fe.fepriv.autoStep) →
      ¬ Beyond (advanced fe state).fepriv (advanced fe state).fepriv.autoStep ∧
        (advanced fe state).fepriv.autoSubStep ≠ 0 ∧
        (∃ steps, Behind (advanced fe state) [handed fe] steps) ∧
        (Exempt (advanced fe state).fepriv (advanced fe state).fepriv.autoStep ∨
          Partial (advanced fe state) [handed fe]) := by
    intro h
    obtain ⟨k, hk, hreached⟩ : ∃ k, attempt (autoinversion fe) fe.fepriv = startStep fe.fepriv k ∧
        reached fe.fepriv k = fe.fepriv.autoStep :=
      h.elim (fun h => ⟨_, h, reached_of_not_beyond hbeyond⟩) id
    obtain ⟨hauto, hsub⟩ := advanced_of_start state hk
    rw [hreached] at hauto
    refine ⟨?_, hsub, ⟨∅, hnone ?_⟩, .inr (partial_of_start [] hk)⟩
    · rw [beyond_advanced, hauto]
      exact hbeyond
    · rw [started_advanced, hauto, hstarted]
  by_cases hzero : fe.fepriv.autoSubStep = 0
  · refine hfirst (.inl (attempt_of_starts ?_))
    unfold Starts
    exact (if_pos (.inr hzero)).mpr rfl
  rcases hok with h | ⟨hstep, hmax, hnot⟩ | hexempt
  · exact absurd h hzero
  · have hdrift : fe.fepriv.autoStep * fe.fepriv.stepSize = 0 := by rw [hstep, UInt32.zero_mul]
    have hpending : ¬ Pending (autoinversion fe) fe.fepriv := by
      rintro (h | ⟨-, h⟩ | ⟨-, h, -⟩)
      · exact hnot h
      · exact h hdrift
      · exact h hdrift
    refine hfirst (.inr ⟨_, attempt_of_not_pending hbeyond hzero hpending, ?_⟩)
    have hone : Beyond fe.fepriv (fe.fepriv.autoStep + 1) := by
      unfold Beyond
      rw [hstep, UInt32.zero_add, UInt32.one_mul]
      exact hmax
    rw [reached_of_beyond hone, hstep]
  · have hexempt : Exempt fe.fepriv fe.fepriv.autoStep := ⟨hstarted.symm, hexempt⟩
    by_cases hpending : Pending (autoinversion fe) fe.fepriv
    · obtain ⟨hauto, hsub, -⟩ := advance_pending [] state hbeyond hzero hpending
      refine ⟨?_, hsub, ⟨∅, hnone ?_⟩, .inl ?_⟩
      · rw [beyond_advanced, hauto]
        exact hbeyond
      · rw [started_advanced, hauto, hstarted]
      · rw [exempt_advanced, hauto]
        exact hexempt
    · have hstart := attempt_of_not_pending hbeyond hzero hpending
      obtain ⟨hauto, hsub⟩ := advanced_of_start state hstart
      refine ⟨?_, hsub, ⟨{fe.fepriv.autoStep}, ⟨fun k hk => ?_, fun k hk => ?_, ?_⟩⟩,
        .inr (partial_of_start [] hstart)⟩
      · rw [beyond_advanced, hauto]
        exact not_beyond_reached _ _
      · rw [Set.mem_singleton_iff.mp hk, exempt_advanced]
        exact .inl hexempt
      · rw [Set.mem_singleton_iff.mp hk, reached_advanced, hauto]
        exact .inr rfl
      · rw [started_advanced, hstarted]
        exact .inl rfl

/-- A candidate that is not the exempted step has been tried with its step, and that one with another step. -/
theorem covered_of_closed {steps : Set UInt32} (hne : steps.Nonempty)
    (hfull : ∀ k ∈ steps, Exempt fe.fepriv k ∨ Full fe tried k)
    (hnext : ∀ k ∈ steps, reached fe.fepriv (k + 1) ∈ steps) : Covered fe tried := by
  intro k hk
  by_cases hsize : fe.fepriv.stepSize = 0
  · -- All the steps are the same, and there is another one beside the first.
    have hall : ∀ n : ℕ, n < 2 ^ 32 → UInt32.ofNat n ∈ steps := fun n hn =>
      mem_of_closed hnext hne n hn (by rw [hsize]; exact Nat.zero_le _)
    obtain ⟨j, hj, hjs⟩ : ∃ j ∈ steps, j ≠ fe.fepriv.startedAutoStep := by
      by_cases h0 : fe.fepriv.startedAutoStep = 0
      · exact ⟨_, hall 1 (by decide), by rw [h0]; decide⟩
      · exact ⟨_, hall 0 (by decide), fun h => h0 h.symm⟩
    have hf := (hfull j hj).resolve_left fun he => hjs he.1
    unfold Full at hf
    rw [hsize, UInt32.mul_zero] at hf
    rw [hsize]
    exact hf
  · have hpos : 0 < fe.fepriv.stepSize.toNat := by
      rw [Nat.pos_iff_ne_zero]
      exact fun h => hsize (UInt32.toNat_inj.mp h)
    have hlt : k < 2 ^ 32 :=
      lt_of_le_of_lt ((Nat.le_mul_of_pos_right k hpos).trans hk) fe.fepriv.maxDrift.toNat_lt
    have hnat : (UInt32.ofNat k).toNat = k := UInt32.toNat_ofNat_of_lt' hlt
    have hmem := mem_of_closed hnext hne k hlt hk
    have hf := (hfull _ hmem).resolve_left fun he =>
      he.2.elim hsize fun h => absurd hk (not_le.mpr (by rwa [hnat] at h))
    have hdrift : UInt32.ofNat k * fe.fepriv.stepSize = UInt32.ofNat (k * fe.fepriv.stepSize.toNat) := by
      rw [UInt32.ofNat_mul, UInt32.ofNat_toNat]
    unfold Full at hf
    rwa [hdrift] at hf

/-- **A search that is complete has covered the candidates.** -/
theorem InSearch.covered (h : InSearch fe tried)
    (hstep : (attempt (autoinversion fe) fe.fepriv).autoStep = fe.fepriv.startedAutoStep)
    (hsub : (attempt (autoinversion fe) fe.fepriv).autoSubStep = 0) : Covered fe tried := by
  obtain ⟨k, hk⟩ : ∃ k, Starts (autoinversion fe) fe.fepriv k := by
    by_contra hnone
    exact (attempt_of_not_starts (not_exists.mp hnone)).1 hsub
  have hattempt := attempt_of_starts hk
  rw [hattempt, startStep_eq] at hstep
  dsimp only at hstep
  rcases h with hbeyond | ⟨hbeyond, hzero, ⟨steps, hsteps⟩, hpart⟩
  · rw [← hstep] at hbeyond
    exact absurd hbeyond (not_beyond_reached _ _)
  have hfirst : ¬ (fe.fepriv.maxDrift < fe.fepriv.autoStep * fe.fepriv.stepSize ∨ fe.fepriv.autoSubStep = 0) :=
    not_or.mpr ⟨hbeyond, hzero⟩
  unfold Starts at hk
  rw [if_neg hfirst] at hk
  obtain ⟨hpending, rfl⟩ := hk
  obtain ⟨hfull, hnext⟩ := hsteps.left (hpart.imp_right fun hp => full_of_not_pending hp hpending)
  refine covered_of_closed ⟨_, Set.mem_insert _ _⟩ hfull fun k hk => ?_
  rcases hk with rfl | hk
  · rw [hstep]
    exact hsteps.started.elim .inr .inl
  · exact hnext k hk

end Advance

/-! ## The iterations -/

section Iterations

variable {z : Swzigzag ρ} {tried : List (DtvFrontendProperties ρ)}

/-- The states that there are. -/
def states : List UInt32 :=
  [FESTATE_IDLE, FESTATE_RETUNE, FESTATE_TUNING_FAST, FESTATE_TUNED, FESTATE_ZIGZAG_FAST, FESTATE_SEARCHING_SLOW,
    FESTATE_DISEQC, FESTATE_ERROR]

/-- No state is one of both kinds. -/
def exclude (flags others : UInt32) : Bool := states.all fun s => s &&& flags == 0 || s &&& others == 0

theorem and_eq_zero_of_exclude {flags others s : UInt32} (h : exclude flags others = true) (hs : s ∈ states)
    (hflags : s &&& flags ≠ 0) : s &&& others = 0 := by
  have hor := List.all_eq_true.mp h s hs
  rw [Bool.or_eq_true, beq_iff_eq, beq_iff_eq] at hor
  exact hor.resolve_left hflags

/-- A frontend that recovers by itself is left alone behind a lost lock when there is no drift. -/
def Stalled (z : Swzigzag ρ) : Prop :=
  z.is FESTATE_LOSTLOCK = true ∧ z.fe.caps &&& FE_CAN_RECOVER ≠ 0 ∧ z.fe.fepriv.maxDrift = 0

structure WatchInv (w : Watch ρ) : Prop where
  state : w.z.fe.fepriv.state ∈ states
  guess : Guess w.z.fe.fepriv.inversion
  search : w.z.is FESTATE_SEARCHING_FAST = true →
    Stalled w.z ∨ w.z.checkWrapped = true ∧ InSearch w.z.fe w.tried

/-- A search goes on, or it begins where it may. -/
def Ready (z : Swzigzag ρ) (tried : List (DtvFrontendProperties ρ)) : Prop :=
  z.checkWrapped = true ∧ InSearch z.fe tried ∨
    z.checkWrapped = false ∧ z.fe.fepriv.startedAutoStep = z.fe.fepriv.autoStep ∧ StartOk z.fe ∧ tried = []

theorem is_eq_false_iff {flags : UInt32} : z.is flags = false ↔ z.fe.fepriv.state &&& flags = 0 := by
  unfold Swzigzag.is
  rw [decide_eq_false_iff_not, not_not]

/-- Outside of the fast search there is nothing to show of it. -/
theorem WatchInv.of_not_fast (hstate : z.fe.fepriv.state ∈ states) (hguess : Guess z.fe.fepriv.inversion)
    (hfast : z.is FESTATE_SEARCHING_FAST = false) : WatchInv ⟨z, tried⟩ :=
  ⟨hstate, hguess, fun h => absurd (h.symm.trans hfast) (by decide)⟩

theorem attempt_state (auto : Bool) (fepriv : DvbFrontendPrivate) : (attempt auto fepriv).state = fepriv.state := by
  unfold attempt
  dsimp only
  rw [startStep_eq, startStep_eq]
  split_ifs <;> rfl

theorem setAttempt_cases (fe : DvbFrontend ρ) (checkWrapped : Bool) (next : DvbFrontendPrivate) :
    (next.autoStep = next.startedAutoStep ∧ next.autoSubStep = 0 ∧ checkWrapped = true ∧
        setAttempt fe checkWrapped next = (1, { fe with fepriv := next })) ∨
      (∃ err fe', err < 0 ∧ setAttempt fe checkWrapped next = (err, fe') ∧
        fe'.fepriv = { next with state := FESTATE_ERROR }) ∨
      setAttempt fe checkWrapped next =
        (0, { fe with fepriv := { next with autoSubStep := next.autoSubStep + 1 } }) := by
  unfold setAttempt
  dsimp only
  split
  · rename_i h
    exact .inl ⟨h.1, h.2.1, h.2.2, rfl⟩
  · split
    · rename_i herr
      exact .inr (.inl ⟨_, _, herr, rfl, rfl⟩)
    · exact .inr (.inr rfl)

/-- What a trial of the fast zigzag comes to. -/
theorem fastZigzag_cases (z : Swzigzag ρ) :
    ((fastZigzag z).2 = .completed ∧ z.checkWrapped = true ∧
        (attempt (autoinversion z.fe) z.fe.fepriv).autoStep = z.fe.fepriv.startedAutoStep ∧
        (attempt (autoinversion z.fe) z.fe.fepriv).autoSubStep = 0 ∧
        (fastZigzag z).1.fe.fepriv.state = FESTATE_SEARCHING_SLOW ∧
        (fastZigzag z).1.fe.fepriv.inversion = (attempt (autoinversion z.fe) z.fe.fepriv).inversion) ∨
      ((fastZigzag z).2 = .failed ∧ (fastZigzag z).1.fe.fepriv.state = FESTATE_ERROR ∧
        (fastZigzag z).1.fe.fepriv.inversion = (attempt (autoinversion z.fe) z.fe.fepriv).inversion) ∨
      fastZigzag z =
        ({ z with
            fe := advanced z.fe (if z.is FESTATE_RETUNE then FESTATE_TUNING_FAST else z.fe.fepriv.state)
            checkWrapped := true }, .set (handed z.fe)) := by
  have hkeeps := (attempt_keeps (autoinversion z.fe) z.fe.fepriv).1
  have hstate := attempt_state (autoinversion z.fe) z.fe.fepriv
  unfold fastZigzag
  rw [autotune_eq]
  dsimp only
  rcases setAttempt_cases z.fe z.checkWrapped (attempt (autoinversion z.fe) z.fe.fepriv) with
    ⟨hstep, hsub, hwrapped, h⟩ | ⟨err, fe', hneg, h, hfe'⟩ | h
  · rw [h]
    exact .inl ⟨rfl, hwrapped, hstep.trans hkeeps, hsub, rfl, rfl⟩
  · rw [h]
    dsimp only
    rw [if_pos hneg]
    refine .inr (.inl ⟨rfl, ?_, ?_⟩) <;> rw [hfe']
  · rw [h]
    refine .inr (.inr ?_)
    dsimp only
    rw [if_neg (lt_irrefl _), if_neg (not_not.mpr rfl)]
    refine Prod.ext ?_ rfl
    unfold advanced Swzigzag.is Swzigzag.setState
    dsimp only
    rw [hstate]
    split <;> rfl

theorem slowZigzag_of_not_slow (h : z.is FESTATE_SEARCHING_SLOW = false) : slowZigzag z = z := by
  unfold slowZigzag
  rw [h]
  rfl

/-- The slow zigzag does not take up the fast one. -/
theorem slowZigzag_inv (hstate : z.fe.fepriv.state ∈ states) (hguess : Guess z.fe.fepriv.inversion)
    (hfast : z.is FESTATE_SEARCHING_FAST = false) : WatchInv ⟨slowZigzag z, tried⟩ := by
  cases hslow : z.is FESTATE_SEARCHING_SLOW with
  | false =>
    rw [slowZigzag_of_not_slow hslow]
    exact .of_not_fast hstate hguess hfast
  | true =>
    have hguess' := guess_attempt (autoinversion z.fe) hguess
    have hkeep := attempt_state (autoinversion z.fe) z.fe.fepriv
    unfold slowZigzag
    rw [hslow, autotune_eq]
    dsimp only
    rcases setAttempt_cases z.fe false (attempt (autoinversion z.fe) z.fe.fepriv) with
      ⟨-, -, hwrapped, -⟩ | ⟨err, fe', -, h, hfe'⟩ | h
    · exact absurd hwrapped (by decide)
    · rw [h]
      refine .of_not_fast ?_ ?_ (is_eq_false_iff.mpr ?_)
      · exact hfe' ▸ (by decide : FESTATE_ERROR ∈ states)
      · exact hfe' ▸ hguess'
      · exact hfe' ▸ (by decide : FESTATE_ERROR &&& FESTATE_SEARCHING_FAST = 0)
    · rw [h]
      refine .of_not_fast ?_ hguess' (is_eq_false_iff.mpr ?_)
      · exact hkeep.symm ▸ hstate
      · exact hkeep.symm ▸ is_eq_false_iff.mp hfast

/-- A state of the fast search is none of the slow one. -/
theorem not_slow_of_fast (hstate : z.fe.fepriv.state ∈ states) (hfast : z.is FESTATE_SEARCHING_FAST = true) :
    z.is FESTATE_SEARCHING_SLOW = false := by
  have hall : exclude FESTATE_SEARCHING_FAST FESTATE_SEARCHING_SLOW = true := by decide
  exact is_eq_false_iff.mpr (and_eq_zero_of_exclude hall hstate (of_decide_eq_true hfast))

/-- **The zigzags** keep the invariant, and a search that they complete has covered the candidates. -/
theorem zigzags_spec (tried : List (DtvFrontendProperties ρ)) (hstate : z.fe.fepriv.state ∈ states)
    (hguess : Guess z.fe.fepriv.inversion)
    (hready : z.is FESTATE_SEARCHING_FAST = true ∨ z.is FESTATE_RETUNE = true → Ready z tried) :
    WatchInv ⟨(zigzags z).1, tried ++ (zigzags z).2.attempts⟩ ∧
      ((zigzags z).2 = .completed → Covered z.fe tried) := by
  unfold zigzags
  by_cases hsearch : z.is FESTATE_SEARCHING_FAST = true ∨ z.is FESTATE_RETUNE = true
  · rw [if_pos hsearch]
    have hr := hready hsearch
    have hguess' := guess_attempt (autoinversion z.fe) hguess
    rcases fastZigzag_cases z with ⟨hprogress, hwrapped, hstep, hsub, hslow, hinv⟩ | ⟨hprogress, herror, hinv⟩ | h
    · have heq : fastZigzag z = ((fastZigzag z).1, .completed) := Prod.ext rfl hprogress
      rw [heq]
      refine ⟨.of_not_fast ?_ ?_ (is_eq_false_iff.mpr ?_), fun _ => ?_⟩
      · exact hslow ▸ (by decide : FESTATE_SEARCHING_SLOW ∈ states)
      · exact hinv ▸ hguess'
      · exact hslow ▸ (by decide : FESTATE_SEARCHING_SLOW &&& FESTATE_SEARCHING_FAST = 0)
      · rcases hr with ⟨-, hin⟩ | ⟨hnot, -⟩
        · exact hin.covered hstep hsub
        · exact absurd (hnot.symm.trans hwrapped) (by decide)
    · have heq : fastZigzag z = ((fastZigzag z).1, .failed) := Prod.ext rfl hprogress
      rw [heq]
      refine ⟨.of_not_fast ?_ ?_ (is_eq_false_iff.mpr ?_), fun h => by cases h⟩
      · exact herror ▸ (by decide : FESTATE_ERROR ∈ states)
      · exact hinv ▸ hguess'
      · exact herror ▸ (by decide : FESTATE_ERROR &&& FESTATE_SEARCHING_FAST = 0)
    · rw [h]
      dsimp only
      have hfast : (if z.is FESTATE_RETUNE then FESTATE_TUNING_FAST else z.fe.fepriv.state) ∈ states ∧
          (if z.is FESTATE_RETUNE then FESTATE_TUNING_FAST else z.fe.fepriv.state) &&& FESTATE_SEARCHING_FAST ≠ 0 := by
        split
        · decide
        · rename_i hretune
          exact ⟨hstate, of_decide_eq_true (hsearch.resolve_right hretune)⟩
      generalize (if z.is FESTATE_RETUNE then FESTATE_TUNING_FAST else z.fe.fepriv.state) = state at hfast
      rw [slowZigzag_of_not_slow (not_slow_of_fast hfast.1 (decide_eq_true hfast.2))]
      refine ⟨⟨hfast.1, hguess', fun _ => .inr ⟨rfl, ?_⟩⟩, fun h => by cases h⟩
      rcases hr with ⟨-, hin⟩ | ⟨-, hstarted, hok, rfl⟩
      · exact hin.advance hguess
      · exact InSearch.begin hstarted hok
  · rw [if_neg hsearch]
    refine ⟨?_, fun h => by cases h⟩
    rw [not_or, Bool.not_eq_true, Bool.not_eq_true] at hsearch
    exact slowZigzag_inv hstate hguess hsearch.1

theorem Covered.mono {fe : DvbFrontend ρ} {tried' : List (DtvFrontendProperties ρ)} (h : Covered fe tried)
    (hsub : tried ⊆ tried') : Covered fe tried' :=
  fun k hk => ⟨(h k hk).1.mono hsub, (h k hk).2.mono hsub⟩

/-- The function behind the test of the lock. -/
theorem behindLock_spec (tried : List (DtvFrontendProperties ρ)) (begun : Bool) (hstate : z.fe.fepriv.state ∈ states)
    (hguess : Guess z.fe.fepriv.inversion)
    (hsearch : z.is FESTATE_SEARCHING_FAST = true → Stalled z ∨ Ready z (if begun then [] else tried)) :
    WatchInv ⟨(behindLock z begun).1,
        (if (behindLock z begun).2.1 then [] else tried) ++ (behindLock z begun).2.2.attempts⟩ ∧
      ((behindLock z begun).2.2 = .completed → Covered z.fe (if begun then [] else tried)) := by
  unfold behindLock
  by_cases hstalled : z.is FESTATE_LOSTLOCK = true ∧ z.fe.caps &&& FE_CAN_RECOVER ≠ 0 ∧ z.fe.fepriv.maxDrift = 0
  · rw [if_pos hstalled]
    exact ⟨⟨hstate, hguess, fun _ => .inl hstalled⟩, fun h => by cases h⟩
  rw [if_neg hstalled]
  by_cases hdiseqc : z.is FESTATE_DISEQC = true
  · rw [if_pos hdiseqc]
    have hall : exclude FESTATE_DISEQC FESTATE_SEARCHING_FAST = true := by decide
    have hfast := and_eq_zero_of_exclude hall hstate (of_decide_eq_true hdiseqc)
    exact ⟨.of_not_fast hstate hguess (is_eq_false_iff.mpr hfast), fun h => by cases h⟩
  rw [if_neg hdiseqc]
  by_cases hretune : z.is FESTATE_RETUNE = true
  · rw [if_pos hretune]
    have hready : Ready (brandNew z) [] := .inr ⟨rfl, rfl, .inl rfl, rfl⟩
    obtain ⟨hinv, hcovered⟩ := zigzags_spec (z := brandNew z) [] hstate hguess fun _ => hready
    refine ⟨hinv, fun h => ?_⟩
    have hnew : Covered z.fe [] := hcovered h
    exact hnew.mono (List.nil_subset _)
  · rw [if_neg hretune]
    exact zigzags_spec _ hstate hguess fun h => (hsearch (h.resolve_right hretune)).resolve_left hstalled

theorem attempts_idle : (Progress.idle : Progress ρ).attempts = [] := rfl

/-- The driver has no part in the invariant. -/
theorem InSearch.withDriver {fe : DvbFrontend ρ} (h : InSearch fe tried)
    (driver : Option (DtvFrontendProperties ρ × ℤ)) : InSearch { fe with setFrontend := driver } tried := by
  rcases h with hbeyond | ⟨hbeyond, hzero, ⟨steps, hsteps⟩, hpart⟩
  · exact .inl hbeyond
  · exact .inr ⟨hbeyond, hzero, ⟨steps, ⟨hsteps.full, hsteps.next, hsteps.started⟩⟩, hpart⟩

/-- The lock is lost in the iteration. -/
def LosesLock (z : Swzigzag ρ) (answers : Answers ρ) : Prop :=
  z.is FESTATE_TUNED = true ∧ z.tuneModeFlags &&& FE_TUNE_MODE_ONESHOT = 0 ∧ hasLock z answers = false

/-- **An iteration** keeps the invariant, and a search that it completes has covered the candidates. -/
theorem iteration_spec {answers : Answers ρ} (hinv : WatchInv ⟨z, tried⟩)
    (hbegin : LosesLock z answers → StartOk z.fe) :
    WatchInv ⟨(dvbFrontendSwzigzag z answers).1,
        (if (dvbFrontendSwzigzag z answers).2.1 then [] else tried) ++ (dvbFrontendSwzigzag z answers).2.2.attempts⟩ ∧
      ((dvbFrontendSwzigzag z answers).2.2 = .completed → Covered z.fe tried) := by
  obtain ⟨hstate, hguess, hkept⟩ := hinv
  have hsearch : z.is FESTATE_SEARCHING_FAST = true → Stalled z ∨
      z.checkWrapped = true ∧ InSearch { z.fe with setFrontend := answers.setFrontend } tried :=
    fun h => (hkept h).imp_right fun hin => ⟨hin.1, hin.2.withDriver _⟩
  unfold dvbFrontendSwzigzag
  dsimp only
  split
  · refine ⟨⟨hstate, hguess, fun h => ?_⟩, fun h => by cases h⟩
    rw [if_neg Bool.false_ne_true, attempts_idle, List.append_nil]
    exact hsearch h
  split
  · refine ⟨?_, fun h => by cases h⟩
    unfold oneshot
    split
    · split
      · exact .of_not_fast (by decide : FESTATE_ERROR ∈ states) hguess
          (is_eq_false_iff.mpr (by decide : FESTATE_ERROR &&& FESTATE_SEARCHING_FAST = 0))
      · exact .of_not_fast (by decide : FESTATE_TUNED ∈ states) hguess
          (is_eq_false_iff.mpr (by decide : FESTATE_TUNED &&& FESTATE_SEARCHING_FAST = 0))
    · refine ⟨hstate, hguess, fun h => ?_⟩
      rw [if_neg Bool.false_ne_true, attempts_idle, List.append_nil]
      exact hsearch h
  rename_i hmode
  split
  · refine ⟨?_, fun h => by cases h⟩
    unfold locked
    dsimp only
    split
    · exact .of_not_fast (by decide : FESTATE_TUNED ∈ states) hguess
          (is_eq_false_iff.mpr (by decide : FESTATE_TUNED &&& FESTATE_SEARCHING_FAST = 0))
    · exact .of_not_fast (by decide : FESTATE_TUNED ∈ states) hguess
          (is_eq_false_iff.mpr (by decide : FESTATE_TUNED &&& FESTATE_SEARCHING_FAST = 0))
  split
  · rename_i htuned
    have hfast : z.is FESTATE_SEARCHING_FAST = false := by
      have hall : exclude FESTATE_TUNED FESTATE_SEARCHING_FAST = true := by decide
      exact is_eq_false_iff.mpr (and_eq_zero_of_exclude hall hstate (of_decide_eq_true htuned))
    split
    · exact ⟨.of_not_fast hstate hguess hfast, fun h => by cases h⟩
    · rename_i hlock
      have hok : StartOk z.fe := hbegin ⟨htuned, not_not.mp hmode, Bool.not_eq_true _ ▸ hlock⟩
      obtain ⟨hw, hcovered⟩ := behindLock_spec tried true
        (z := lostLock { z with fe := { z.fe with setFrontend := answers.setFrontend } })
        (by decide : FESTATE_ZIGZAG_FAST ∈ states) hguess fun _ => .inr (.inr ⟨rfl, rfl, hok, rfl⟩)
      refine ⟨hw, fun h => ?_⟩
      have hnew : Covered z.fe [] := hcovered h
      exact hnew.mono (List.nil_subset _)
  · exact behindLock_spec tried false (z := { z with fe := { z.fe with setFrontend := answers.setFrontend } })
      hstate hguess fun h => (hsearch h).imp_right .inl

end Iterations

/-! ## Runs -/

/-- Where the lock is lost, a search may begin. -/
def MayBegin (w : Watch ρ) : FrontendEvent ρ → Prop
  | .iteration answers => LosesLock w.z answers → StartOk w.z.fe
  | _ => True

theorem step_inv {w w' : Watch ρ} {e : FrontendEvent ρ} (hinv : WatchInv w) (hbegin : MayBegin w e)
    (h : w.step e = some w') : WatchInv w' := by
  cases e with
  | iteration answers =>
    obtain rfl := Option.some.inj h
    exact (iteration_spec hinv hbegin).1
  | tune r =>
    obtain rfl := Option.some.inj h
    exact .of_not_fast (by decide : FESTATE_RETUNE ∈ states) hinv.guess
      (is_eq_false_iff.mpr (by decide : FESTATE_RETUNE &&& FESTATE_SEARCHING_FAST = 0))
  | diseqc =>
    obtain rfl := Option.some.inj h
    exact .of_not_fast (by decide : FESTATE_DISEQC ∈ states) hinv.guess
      (is_eq_false_iff.mpr (by decide : FESTATE_DISEQC &&& FESTATE_SEARCHING_FAST = 0))
  | tuneMode flags =>
    obtain rfl := Option.some.inj h
    exact ⟨hinv.state, hinv.guess, hinv.search⟩

/-- A frontend that has not been tuned yet. -/
structure Fresh (w : Watch ρ) : Prop where
  state : w.z.fe.fepriv.state = FESTATE_IDLE
  guess : Guess w.z.fe.fepriv.inversion

theorem Fresh.inv {w : Watch ρ} (h : Fresh w) : WatchInv w := by
  refine .of_not_fast ?_ h.guess (is_eq_false_iff.mpr ?_)
  · rw [h.state]
    decide
  · rw [h.state]
    rfl

/-- **A search that is complete has covered the candidates**, in every run where a search behind a lost lock begins
only where it may. -/
theorem covers_run {w w' : Watch ρ} {es : List (FrontendEvent ρ)} (hfresh : Fresh w)
    (hrun : Lib.run Watch.step w es = some w') (hbegin : Lib.Along Watch.step MayBegin w es) (answers : Answers ρ)
    (hlast : MayBegin w' (.iteration answers)) (hdone : (dvbFrontendSwzigzag w'.z answers).2.2 = .completed) :
    Covered w'.z.fe w'.tried := by
  have hinv : WatchInv w' := Lib.run_inv_along (fun _ _ _ hi hb h => step_inv hi hb h) hfresh.inv hbegin hrun
  exact (iteration_spec hinv hlast).2 hdone

instance (z : Swzigzag ρ) (answers : Answers ρ) : Decidable (LosesLock z answers) :=
  inferInstanceAs (Decidable (_ ∧ _ ∧ _))

instance (fe : DvbFrontend ρ) : Decidable (StartOk fe) := inferInstanceAs (Decidable (_ ∨ _ ∧ _ ∧ ¬ (_ ∧ _) ∨ _ ∨ _))

instance (w : Watch ρ) (e : FrontendEvent ρ) : Decidable (MayBegin w e) :=
  match e with
  | .iteration answers => inferInstanceAs (Decidable (LosesLock w.z answers → StartOk w.z.fe))
  | .tune _ => .isTrue trivial
  | .diseqc => .isTrue trivial
  | .tuneMode _ => .isTrue trivial

/-- A frontend that has just been registered. -/
def registered : Watch Unit where
  z :=
    { fe :=
        { caps := 0
          fepriv :=
            { state := FESTATE_IDLE, lnbDrift := 0, inversion := INVERSION_OFF, autoStep := 0, autoSubStep := 0
              startedAutoStep := 0, maxDrift := 0, stepSize := 0 }
          dtvPropertyCache := { frequency := 0, inversion := INVERSION_AUTO, others := () }
          setFrontend := none }
      checkWrapped := false
      tuneModeFlags := 0 }
  tried := []

theorem registered_fresh : Fresh registered := ⟨rfl, .inl rfl⟩

/-- The driver takes every attempt, and reads the status `s`. -/
def taking (s : UInt32) : Answers Unit :=
  { readStatus := some s, setFrontend := some ({ frequency := 0, inversion := 0, others := () }, 0) }

/-- A request with two steps of drift. -/
def twoSteps (inversion : UInt32) : TuneRequest Unit :=
  { properties := { frequency := 1880000, inversion := inversion, others := () }, maxDrift := 2750, stepSize := 1375 }

/-- A search with the inversion to be guessed: two attempts without a drift, and four of each step. -/
def guessedRun : List (FrontendEvent Unit) := .tune (twoSteps INVERSION_AUTO) :: List.replicate 10 (.iteration (taking 0))

theorem guessedRun_isSome : (Lib.run Watch.step registered guessedRun).isSome := by decide +kernel

theorem covers_run_guessedRun :
    Covered ((Lib.run Watch.step registered guessedRun).get guessedRun_isSome).z.fe
      ((Lib.run Watch.step registered guessedRun).get guessedRun_isSome).tried :=
  covers_run registered_fresh (Option.some_get guessedRun_isSome).symm (by decide +kernel) (taking 0)
    (by decide +kernel) (by decide +kernel)

/-- The lock is found with the first attempt and lost again.  Then the search goes on with the next step. -/
def lostRun : List (FrontendEvent Unit) :=
  [.tune (twoSteps INVERSION_ON), .iteration (taking 0), .iteration (taking FE_HAS_LOCK), .iteration (taking 0),
    .iteration (taking 0), .iteration (taking 0), .iteration (taking 0)]

theorem lostRun_isSome : (Lib.run Watch.step registered lostRun).isSome := by decide +kernel

/-- The search is reported to be complete, but the frequency that has been asked for is not tried in it. -/
theorem not_covers :
    ¬ ∀ (w w' : Watch Unit) (es : List (FrontendEvent Unit)) (answers : Answers Unit), Fresh w →
      Lib.run Watch.step w es = some w' → (dvbFrontendSwzigzag w'.z answers).2.2 = .completed →
      Covered w'.z.fe w'.tried := by
  intro hall
  have hcovered := hall registered _ lostRun (taking 0) registered_fresh (Option.some_get lostRun_isSome).symm
    (by decide +kernel) 0 (by rw [Nat.zero_mul]; exact Nat.zero_le _)
  have hmem := hcovered.1.1
  revert hmem
  unfold propsAt
  decide +kernel

end Frontend
end TbsMedia
