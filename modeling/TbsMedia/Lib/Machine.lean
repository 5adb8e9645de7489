import Mathlib.Logic.Function.Iterate
import Mathlib.Tactic.Common

/-!
# Deterministic machines

A machine is a function on states that is iterated.  `Leads f s t` says that it gets from `s` to
`t`.

* `Leads.trans`: runs compose.
* `iterate_inv`: what every step preserves holds in every state of a run.
* `exists_leads_of_rounds`, `exists_leads_of_measure`: a machine whose potential falls, from round to round
  or from step to step, reaches its goal.
-/

namespace TbsMedia
namespace Lib

variable {σ : Type*} {f : σ → σ}

/-- Some number of steps leads from `s` to `t`. -/
def Leads (f : σ → σ) (s t : σ) : Prop := ∃ n, f^[n] s = t

theorem Leads.refl (s : σ) : Leads f s s := ⟨0, rfl⟩

theorem Leads.single (s : σ) : Leads f s (f s) := ⟨1, rfl⟩

theorem Leads.trans {s t u : σ} (hst : Leads f s t) (htu : Leads f t u) : Leads f s u := by
  obtain ⟨n, rfl⟩ := hst
  obtain ⟨k, rfl⟩ := htu
  exact ⟨k + n, Function.iterate_add_apply f k n s⟩

/-- One step in front of a run. -/
theorem Leads.head {s t u : σ} (h : f s = t) (htu : Leads f t u) : Leads f s u := by
  subst h
  exact (Leads.single s).trans htu

/-- One step behind a run. -/
theorem Leads.tail {s t u : σ} (hst : Leads f s t) (h : f t = u) : Leads f s u := by
  subst h
  exact hst.trans (Leads.single t)

/-- A machine halts in one state only. -/
theorem Leads.unique_of_halt {s t u : σ} (ht : Leads f s t) (hu : Leads f s u) (hft : f t = t)
    (hfu : f u = u) : t = u := by
  obtain ⟨n, rfl⟩ := ht
  obtain ⟨k, rfl⟩ := hu
  have h := Function.iterate_fixed hft k
  rw [← Function.iterate_add_apply, Nat.add_comm, Function.iterate_add_apply,
    Function.iterate_fixed hfu n] at h
  exact h.symm

/-- What every step preserves holds in every state of a run. -/
theorem iterate_inv {I : σ → Prop} (hstep : ∀ s, I s → I (f s)) {s : σ} (hs : I s) (n : ℕ) :
    I (f^[n] s) := by
  induction n with
  | zero => exact hs
  | succ n ih =>
    rw [Function.iterate_succ_apply']
    exact hstep _ ih

/-- A property that the first state has, and all states of the run behind it, all states have. -/
theorem iterate_of_tail {P : σ → Prop} {s : σ} (hs : P s) (htail : ∀ n, P (f^[n] (f s))) (n : ℕ) :
    P (f^[n] s) := by
  cases n with
  | zero => exact hs
  | succ n => exact htail n

/-- **Rounds of a loop lead to the goal**: if from every state with `I` some steps lead to one with `G`, or
to one with `I` and a smaller `μ`, then a state with `G` is reached. -/
theorem exists_leads_of_rounds (I G : σ → Prop) (μ : σ → ℕ)
    (h : ∀ s, I s → ∃ t, Leads f s t ∧ (G t ∨ I t ∧ μ t < μ s)) {s : σ} (hs : I s) :
    ∃ t, Leads f s t ∧ G t := by
  obtain ⟨m, hm⟩ : ∃ m, μ s < m := ⟨μ s + 1, Nat.lt_succ_self _⟩
  induction m generalizing s with
  | zero => exact absurd hm (Nat.not_lt_zero _)
  | succ m ih =>
    obtain ⟨t, hst, hG | ⟨hI, hlt⟩⟩ := h s hs
    · exact ⟨t, hst, hG⟩
    · obtain ⟨u, htu, hu⟩ := ih hI (by omega)
      exact ⟨u, hst.trans htu, hu⟩

/-- **A falling potential leads to the goal**: if every state with `I` has `G`, or else a step keeps
`I` and makes `μ` smaller, then a state with `G` is reached. -/
theorem exists_leads_of_measure (I G : σ → Prop) (μ : σ → ℕ)
    (h : ∀ s, I s → G s ∨ I (f s) ∧ μ (f s) < μ s) {s : σ} (hs : I s) :
    ∃ t, Leads f s t ∧ G t := by
  refine exists_leads_of_rounds I G μ (fun s hs => ?_) hs
  rcases h s hs with hG | hI
  · exact ⟨s, Leads.refl s, .inl hG⟩
  · exact ⟨f s, Leads.single s, .inr hI⟩

end Lib
end TbsMedia
