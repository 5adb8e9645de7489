import Mathlib

/-!
# Things that are held while they are used

Things are acquired and released, and a user starts and stops using some of them.  The log of a run has the latest
event first.

* `phase`: whether the user is at work, by the log; it is `broken` when two starts or two stops follow each other, or
  when what is used is not held.
* `Accounted`: the holders account for what has been acquired and not released.
* `Accounted.get`, `Accounted.put`, `Accounted.other`: what an event does to it.
* `Accounted.settled`: when nobody holds anything, everything has been released once.
-/

namespace TbsMedia
namespace Lib

variable {μ ε : Type*}

/-- An event: something is acquired or released, the user starts or stops, or something else happens. -/
inductive CustodyEvent (μ ε : Type*) where
  | get (m : μ)
  | put (m : μ)
  | start (ms : List (Option μ))
  | stop (ms : List (Option μ))
  | other (e : ε)
deriving DecidableEq

theorem put_ne_get (m x : μ) : (.put m : CustodyEvent μ ε) ≠ .get x := fun h => nomatch h

theorem get_ne_put (m x : μ) : (.get m : CustodyEvent μ ε) ≠ .put x := fun h => nomatch h

/-- Whether the user is at work. -/
inductive Phase (μ : Type*) where
  | idle
  | inUse (ms : List (Option μ))
  | broken
deriving DecidableEq

/-- By the log it is held. -/
def Holds (log : List (CustodyEvent μ ε)) (m : Option μ) : Prop :=
  ∃ x ∈ m, .get x ∈ log ∧ .put x ∉ log

instance [DecidableEq μ] [DecidableEq ε] (log : List (CustodyEvent μ ε)) : (m : Option μ) → Decidable (Holds log m)
  | none => .isFalse fun h => by
    obtain ⟨_, hx, -⟩ := h
    exact nomatch hx
  | some x =>
    decidable_of_iff (.get x ∈ log ∧ .put x ∉ log)
      ⟨fun h => ⟨x, rfl, h⟩, fun h => by
        obtain ⟨y, hy, h⟩ := h
        obtain rfl := Option.some.inj hy
        exact h⟩

section Log

variable [DecidableEq μ] [DecidableEq ε]

/-- The user starts when idle, and stops with what it has started with; what it uses is held both times. -/
def phase : List (CustodyEvent μ ε) → Phase μ
  | [] => .idle
  | .start ms :: log => if phase log = .idle ∧ ∀ m ∈ ms, Holds log m then .inUse ms else .broken
  | .stop ms :: log => if phase log = .inUse ms ∧ ∀ m ∈ ms, Holds log m then .idle else .broken
  | .get _ :: log | .put _ :: log | .other _ :: log => phase log

variable {log : List (CustodyEvent μ ε)} {ms : List (Option μ)}

theorem phase_start (hidle : phase log = .idle) (hms : ∀ m ∈ ms, Holds log m) :
    phase (.start ms :: log) = .inUse ms := by
  rw [phase, if_pos ⟨hidle, hms⟩]

theorem phase_stop (huse : phase log = .inUse ms) (hms : ∀ m ∈ ms, Holds log m) : phase (.stop ms :: log) = .idle := by
  rw [phase, if_pos ⟨huse, hms⟩]

end Log

/-! ## Holders -/

/-- The holders account for what has been acquired: each thing once, by one holder, until it is released. -/
structure Accounted {ι : Type*} [DecidableEq μ] [DecidableEq ε] (log : List (CustodyEvent μ ε)) (hold : ι → Option μ) :
    Prop where
  held : ∀ i m, hold i = some m → .get m ∈ log ∧ .put m ∉ log
  single : ∀ i j m, hold i = some m → hold j = some m → i = j
  once : ∀ m, log.count (.get m) ≤ 1
  acquired : ∀ m, .put m ∈ log → .get m ∈ log
  released : ∀ m, .get m ∈ log → (∀ i, hold i ≠ some m) → log.count (.put m) = 1

section Holders

variable {ι : Type*} [DecidableEq μ] [DecidableEq ε] {log : List (CustodyEvent μ ε)} {hold : ι → Option μ} {i : ι}
  {m : μ}

theorem accounted_nil : Accounted ([] : List (CustodyEvent μ ε)) fun _ : ι => none where
  held := fun _ m h => absurd h.symm (Option.some_ne_none m)
  single := fun _ _ m h => absurd h.symm (Option.some_ne_none m)
  once := fun _ => Nat.zero_le _
  acquired := fun _ h => absurd h List.not_mem_nil
  released := fun _ h => absurd h List.not_mem_nil

theorem Accounted.holds (h : Accounted log hold) (hi : hold i ≠ none) : Holds log (hold i) := by
  obtain ⟨m, hm⟩ := Option.ne_none_iff_exists'.mp hi
  exact ⟨m, hm, h.held i m hm⟩

/-- **When nobody holds anything, everything has been acquired and released once.** -/
theorem Accounted.settled (h : Accounted log hold) (hnone : ∀ i, hold i = none) (hm : .get m ∈ log) :
    log.count (.get m) = 1 ∧ log.count (.put m) = 1 := by
  refine ⟨Nat.le_antisymm (h.once m) (List.count_pos_iff.mpr hm), h.released m hm fun i hi => ?_⟩
  exact Option.some_ne_none m (hi.symm.trans (hnone i))

/-- An event that acquires and releases nothing. -/
theorem Accounted.other (h : Accounted log hold) {e : CustodyEvent μ ε} (hget : ∀ m, e ≠ .get m)
    (hput : ∀ m, e ≠ .put m) : Accounted (e :: log) hold := by
  have hg (m : μ) : .get m ∈ e :: log ↔ .get m ∈ log := by
    rw [List.mem_cons, or_iff_right (hget m).symm]
  have hp (m : μ) : .put m ∈ e :: log ↔ .put m ∈ log := by
    rw [List.mem_cons, or_iff_right (hput m).symm]
  refine ⟨fun i m hi => ?_, h.single, fun m => ?_, fun m hm => ?_, fun m hm hi => ?_⟩
  · rw [hg, hp]
    exact h.held i m hi
  · rw [List.count_cons_of_ne (hget m)]
    exact h.once m
  · rw [hg]
    exact h.acquired m ((hp m).mp hm)
  · rw [List.count_cons_of_ne (hput m)]
    exact h.released m ((hg m).mp hm) hi

variable [DecidableEq ι]

/-- Something new is acquired by who holds nothing. -/
theorem Accounted.get (h : Accounted log hold) (hm : .get m ∉ log) (hi : hold i = none) :
    Accounted (.get m :: log) (Function.update hold i (some m)) := by
  have hput : .put m ∉ log := fun hp => hm (h.acquired m hp)
  have hhold {j : ι} {x : μ} (hj : Function.update hold i (some m) j = some x) :
      j = i ∧ x = m ∨ hold j = some x ∧ x ≠ m := by
    rcases eq_or_ne j i with rfl | hne
    · rw [Function.update_self] at hj
      exact Or.inl ⟨rfl, (Option.some.inj hj).symm⟩
    · rw [Function.update_of_ne hne] at hj
      exact Or.inr ⟨hj, fun hx => hm (hx ▸ (h.held j x hj).1)⟩
  refine ⟨fun j x hj => ?_, fun j k x hj hk => ?_, fun x => ?_, fun x hx => ?_, fun x hx hj => ?_⟩
  · rcases hhold hj with ⟨-, rfl⟩ | ⟨hj, -⟩
    · exact ⟨List.mem_cons_self, fun hp => hput ((List.mem_cons.mp hp).resolve_left fun h => nomatch h)⟩
    · exact ⟨List.mem_cons_of_mem _ (h.held j x hj).1,
        fun hp => (h.held j x hj).2 ((List.mem_cons.mp hp).resolve_left fun h => nomatch h)⟩
  · rcases hhold hj with ⟨rfl, rfl⟩ | ⟨hj, hx⟩
    · rcases hhold hk with ⟨rfl, -⟩ | ⟨-, hne⟩
      · rfl
      · exact absurd rfl hne
    · rcases hhold hk with ⟨-, hxm⟩ | ⟨hk, -⟩
      · exact absurd hxm hx
      · exact h.single j k x hj hk
  · rcases eq_or_ne x m with rfl | hne
    · rw [List.count_cons_self, List.count_eq_zero_of_not_mem hm]
    · rw [List.count_cons_of_ne fun he => hne (CustodyEvent.get.inj he).symm]
      exact h.once x
  · exact List.mem_cons_of_mem _ (h.acquired x ((List.mem_cons.mp hx).resolve_left fun h => nomatch h))
  · have hxm : x ≠ m := by
      rintro rfl
      exact hj i (Function.update_self ..)
    rw [List.count_cons_of_ne (get_ne_put m x)]
    refine h.released x ((List.mem_cons.mp hx).resolve_left fun he => hxm (CustodyEvent.get.inj he)) fun j hjx => ?_
    rcases eq_or_ne j i with rfl | hne
    · exact Option.some_ne_none x (hjx.symm.trans hi)
    · exact hj j ((Function.update_of_ne hne _ _).trans hjx)

/-- What somebody holds is released. -/
theorem Accounted.put (h : Accounted log hold) (hi : hold i = some m) :
    Accounted (.put m :: log) (Function.update hold i none) := by
  have hhold {j : ι} {x : μ} (hj : Function.update hold i none j = some x) : hold j = some x ∧ x ≠ m := by
    rcases eq_or_ne j i with rfl | hne
    · rw [Function.update_self] at hj
      exact nomatch hj
    · rw [Function.update_of_ne hne] at hj
      exact ⟨hj, fun hx => hne (h.single j i x hj (hx ▸ hi))⟩
  refine ⟨fun j x hj => ?_, fun j k x hj hk => h.single j k x (hhold hj).1 (hhold hk).1, fun x => ?_, fun x hx => ?_,
    fun x hx hj => ?_⟩
  · obtain ⟨hj, hne⟩ := hhold hj
    refine ⟨List.mem_cons_of_mem _ (h.held j x hj).1, fun hp => ?_⟩
    rcases List.mem_cons.mp hp with he | hp
    · exact hne (CustodyEvent.put.inj he)
    · exact (h.held j x hj).2 hp
  · rw [List.count_cons_of_ne (put_ne_get m x)]
    exact h.once x
  · rcases List.mem_cons.mp hx with he | hx
    · obtain rfl := CustodyEvent.put.inj he
      exact List.mem_cons_of_mem _ (h.held i x hi).1
    · exact List.mem_cons_of_mem _ (h.acquired x hx)
  · have hx := (List.mem_cons.mp hx).resolve_left fun he => nomatch he
    rcases eq_or_ne x m with rfl | hne
    · rw [List.count_cons_self, List.count_eq_zero_of_not_mem (h.held i x hi).2]
    · rw [List.count_cons_of_ne fun he => hne (CustodyEvent.put.inj he).symm]
      refine h.released x hx fun j hjx => ?_
      rcases eq_or_ne j i with rfl | hji
      · exact hne (Option.some.inj (hjx.symm.trans hi))
      · exact hj j ((Function.update_of_ne hji _ _).trans hjx)

end Holders

end Lib
end TbsMedia
