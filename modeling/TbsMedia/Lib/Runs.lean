import Mathlib.Data.List.Basic

/-!
# Runs that can get stuck

A step function takes a state and an event to the next state, or to `none` where a step goes wrong.
A run takes the events in turn.

* `run_append`: runs compose.
* `run_inv`: what every step preserves holds in every state that is reached.
* `run_isSome_iff`: a run goes through to its end exactly if no step of it goes wrong.
-/

namespace TbsMedia
namespace Lib

variable {σ ε : Type*} {step : σ → ε → Option σ} {s t : σ} {es : List ε}

/-- The events of a list, one after the other. -/
def run (step : σ → ε → Option σ) : σ → List ε → Option σ
  | s, [] => some s
  | s, e :: es => (step s e).bind fun t => run step t es

theorem run_cons (step : σ → ε → Option σ) (s : σ) (e : ε) (es : List ε) :
    run step s (e :: es) = (step s e).bind fun t => run step t es := rfl

/-- Runs compose. -/
theorem run_append (step : σ → ε → Option σ) (s : σ) (es es' : List ε) :
    run step s (es ++ es') = (run step s es).bind fun t => run step t es' := by
  induction es generalizing s with
  | nil => rfl
  | cons e es ih =>
    rw [List.cons_append, run_cons, run_cons, Option.bind_assoc]
    exact congrArg _ (funext fun t => ih t)

/-- One step behind a run. -/
theorem run_concat (step : σ → ε → Option σ) (s : σ) (es : List ε) (e : ε) :
    run step s (es ++ [e]) = (run step s es).bind fun t => step t e := by
  rw [run_append]
  refine congrArg _ (funext fun t => ?_)
  rw [run_cons]
  cases step t e <;> rfl

/-- What every step preserves holds in every state that is reached. -/
theorem run_inv {I : σ → Prop} (hstep : ∀ s e t, I s → step s e = some t → I t) (hs : I s)
    (h : run step s es = some t) : I t := by
  induction es generalizing s with
  | nil =>
    obtain rfl := Option.some.inj h
    exact hs
  | cons e es ih =>
    obtain ⟨u, hu, h⟩ := Option.bind_eq_some_iff.mp h
    exact ih (hstep s e u hs hu) h

/-- `P` holds of every event of a run and of the state in front of it. -/
def Along (step : σ → ε → Option σ) (P : σ → ε → Prop) : σ → List ε → Prop
  | _, [] => True
  | s, e :: es => P s e ∧ ∀ t, step s e = some t → Along step P t es

/-- A condition on the events alone holds along every run. -/
theorem Along.of_forall {P : σ → ε → Prop} (h : ∀ e ∈ es, ∀ s, P s e) : Along step P s es := by
  induction es generalizing s with
  | nil => trivial
  | cons e es ih =>
    exact ⟨h e (List.mem_cons_self ..) s, fun t _ => ih fun e' he' => h e' (List.mem_cons_of_mem e he')⟩

/-- Whether a condition holds along a run can be found out by taking its steps. -/
def decidableAlong (step : σ → ε → Option σ) (P : σ → ε → Prop) [hP : ∀ s e, Decidable (P s e)] :
    ∀ s es, Decidable (Along step P s es)
  | _, [] => .isTrue trivial
  | s, e :: es =>
    match hP s e with
    | .isFalse hn => .isFalse fun h => hn h.1
    | .isTrue hp =>
      match hstep : step s e with
      | none => .isTrue ⟨hp, fun _ ht => absurd (hstep.symm.trans ht).symm (Option.some_ne_none _)⟩
      | some t =>
        match decidableAlong step P t es with
        | .isFalse hn => .isFalse fun h => hn (h.2 t hstep)
        | .isTrue ha => .isTrue ⟨hp, fun _ ht => Option.some.inj (hstep.symm.trans ht) ▸ ha⟩

instance (step : σ → ε → Option σ) (P : σ → ε → Prop) [∀ s e, Decidable (P s e)] (s : σ) (es : List ε) :
    Decidable (Along step P s es) :=
  decidableAlong step P s es

/-- What every step preserves that meets a condition holds in every state that is reached with such
steps. -/
theorem run_inv_along {I : σ → Prop} {P : σ → ε → Prop}
    (hstep : ∀ s e t, I s → P s e → step s e = some t → I t) (hs : I s)
    (hP : Along step P s es) (h : run step s es = some t) : I t := by
  induction es generalizing s with
  | nil =>
    obtain rfl := Option.some.inj h
    exact hs
  | cons e es ih =>
    obtain ⟨u, hu, h⟩ := Option.bind_eq_some_iff.mp h
    exact ih (hstep s e u hs hP.1 hu) (hP.2 u hu) h

/-- Where steps that meet a condition go through, runs of them do. -/
theorem run_inv_total {I : σ → Prop} {P : σ → ε → Prop}
    (hstep : ∀ s e, I s → P s e → ∃ t, step s e = some t ∧ I t) (hs : I s) (hP : Along step P s es) :
    ∃ t, run step s es = some t ∧ I t := by
  induction es generalizing s with
  | nil => exact ⟨s, rfl, hs⟩
  | cons e es ih =>
    obtain ⟨u, hu, hI⟩ := hstep s e hs hP.1
    obtain ⟨t, ht, hIt⟩ := ih hI (hP.2 u hu)
    refine ⟨t, ?_, hIt⟩
    rw [run_cons, hu, Option.bind_some, ht]

/-- **A run goes through** exactly if none of its steps goes wrong. -/
theorem run_isSome_iff (step : σ → ε → Option σ) (s : σ) (es : List ε) :
    (run step s es).isSome ↔ Along step (fun t e => (step t e).isSome) s es := by
  induction es generalizing s with
  | nil => exact ⟨fun _ => trivial, fun _ => rfl⟩
  | cons e es ih =>
    rw [run_cons, Along]
    cases hstep : step s e with
    | none => exact ⟨fun h => (nomatch h), fun h => h.1⟩
    | some u =>
      rw [Option.bind_some, ih u]
      constructor
      · rintro h
        refine ⟨rfl, fun t ht => ?_⟩
        obtain rfl := Option.some.inj ht
        exact h
      · exact fun h => h.2 u rfl

end Lib
end TbsMedia
