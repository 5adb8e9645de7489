import Mathlib

/-!
# Lists of open intervals

Intervals without their ends, in order and apart from each other.

* `insert`: an interval is put into the list, and those that it overlaps are merged with it.
* `Apart.insert`, `within_insert_self`, `within_insert`: what stays true, and what is covered.
* `coalesce`, `outside_coalesce`: intervals that overlap their neighbours are merged, and cover the same.
* `nearest_end`: an end of an interval is the point nearest to one that is covered.
-/

namespace TbsMedia
namespace Lib
namespace OpenIntervals

section Order

variable {α : Type*} [LinearOrder α] {x y z : α × α} {zs : List (α × α)} {a b p : α}

/-- No interval is empty, and each ends before the next one starts, or where it does. -/
structure Apart (zs : List (α × α)) : Prop where
  proper : ∀ z ∈ zs, z.1 < z.2
  ordered : zs.Pairwise fun y z => y.2 ≤ z.1

/-- A point is strictly inside no interval. -/
def Outside (zs : List (α × α)) (p : α) : Prop := ∀ z ∈ zs, ¬ (z.1 < p ∧ p < z.2)

instance (zs : List (α × α)) (p : α) : Decidable (Outside zs p) := inferInstanceAs (Decidable (∀ _ ∈ _, _))

/-- An interval lies within another one. -/
def Within (z y : α × α) : Prop := y.1 ≤ z.1 ∧ z.2 ≤ y.2

theorem Within.refl (z : α × α) : Within z z := ⟨le_rfl, le_rfl⟩

theorem Within.trans (h : Within z y) (h' : Within y x) : Within z x := ⟨h'.1.trans h.1, h.2.trans h'.2⟩

theorem apart_nil : Apart ([] : List (α × α)) := ⟨fun _ h => absurd h List.not_mem_nil, List.Pairwise.nil⟩

theorem apart_cons : Apart (z :: zs) ↔ z.1 < z.2 ∧ (∀ y ∈ zs, z.2 ≤ y.1) ∧ Apart zs := by
  constructor
  · intro h
    obtain ⟨hfirst, hrest⟩ := List.pairwise_cons.mp h.ordered
    exact ⟨h.proper z List.mem_cons_self, hfirst, fun y hy => h.proper y (List.mem_cons_of_mem z hy), hrest⟩
  · rintro ⟨hz, hfirst, h⟩
    refine ⟨fun y hy => ?_, List.pairwise_cons.mpr ⟨hfirst, h.ordered⟩⟩
    rcases List.mem_cons.mp hy with rfl | hy
    · exact hz
    · exact h.proper y hy

/-! ## Insertion -/

/-- An interval takes in those behind it that it overlaps. -/
def absorb (z : α × α) : List (α × α) → List (α × α)
  | [] => [z]
  | y :: ys => if y.1 < z.2 then absorb (z.1, max z.2 y.2) ys else z :: y :: ys

/-- An interval is put into the list. -/
def insert (z : α × α) : List (α × α) → List (α × α)
  | [] => [z]
  | y :: ys =>
    if y.2 < z.1 then y :: insert z ys
    else if y.1 < z.2 then absorb (min z.1 y.1, max z.2 y.2) ys
    else z :: y :: ys

/-- The first interval of what is left starts where the one did that absorbs. -/
theorem absorb_cons (z : α × α) (zs : List (α × α)) : ∃ e ys, absorb z zs = (z.1, e) :: ys ∧ z.2 ≤ e := by
  induction zs generalizing z with
  | nil => exact ⟨z.2, [], rfl, le_rfl⟩
  | cons y ys ih =>
    unfold absorb
    split
    · obtain ⟨e, ys', heq, hle⟩ := ih (z.1, max z.2 y.2)
      exact ⟨e, ys', heq, (le_max_left _ _).trans hle⟩
    · exact ⟨z.2, y :: ys, rfl, le_rfl⟩

theorem Apart.absorb (h : Apart zs) (hz : z.1 < z.2) : Apart (absorb z zs) := by
  induction zs generalizing z with
  | nil => exact apart_cons.mpr ⟨hz, fun _ hy => absurd hy List.not_mem_nil, apart_nil⟩
  | cons y ys ih =>
    obtain ⟨hy, hrest, hys⟩ := apart_cons.mp h
    unfold OpenIntervals.absorb
    split
    · exact ih hys (hz.trans_le (le_max_left _ _))
    · next hnot =>
      refine apart_cons.mpr ⟨hz, fun x hx => ?_, h⟩
      rcases List.mem_cons.mp hx with rfl | hx
      · exact not_lt.mp hnot
      · exact (not_lt.mp hnot).trans (hy.le.trans (hrest x hx))

theorem within_absorb_self (z : α × α) (zs : List (α × α)) : ∃ x ∈ absorb z zs, Within z x := by
  obtain ⟨e, ys, heq, hle⟩ := absorb_cons z zs
  exact ⟨(z.1, e), by rw [heq]; exact List.mem_cons_self, le_rfl, hle⟩

/-- What was covered still is, when nothing starts before the interval that absorbs. -/
theorem within_absorb (h : Apart zs) (hfirst : ∀ y ∈ zs, z.1 ≤ y.1) (hy : y ∈ zs) : ∃ x ∈ absorb z zs, Within y x := by
  induction zs generalizing z with
  | nil => exact absurd hy List.not_mem_nil
  | cons w ws ih =>
    obtain ⟨hw, hrest, hws⟩ := apart_cons.mp h
    unfold absorb
    split
    · rcases List.mem_cons.mp hy with rfl | hy
      · obtain ⟨x, hx, hwithin⟩ := within_absorb_self (z.1, max z.2 y.2) ws
        have hy' : Within y (z.1, max z.2 y.2) := ⟨hfirst y List.mem_cons_self, le_max_right _ _⟩
        exact ⟨x, hx, hy'.trans hwithin⟩
      · exact ih hws (fun x hx => hfirst x (List.mem_cons_of_mem w hx)) hy
    · exact ⟨y, List.mem_cons_of_mem z hy, Within.refl y⟩

/-- The intervals in front of the place stay where they are. -/
theorem insert_append {ys : List (α × α)} (h : ∀ y ∈ ys, y.2 < z.1) : insert z (ys ++ zs) = ys ++ insert z zs := by
  induction ys with
  | nil => rfl
  | cons y ys ih =>
    refine (if_pos (h y List.mem_cons_self)).trans ?_
    exact congrArg (y :: ·) (ih fun x hx => h x (List.mem_cons_of_mem y hx))

/-- The ends of an interval are ends of `z`, or of intervals of the list. -/
def FromEnds (z : α × α) (zs : List (α × α)) (y : α × α) : Prop :=
  (y.1 = z.1 ∨ ∃ x ∈ zs, y.1 = x.1) ∧ (y.2 = z.2 ∨ ∃ x ∈ zs, y.2 = x.2)

theorem mem_absorb (hy : y ∈ absorb z zs) : FromEnds z zs y := by
  induction zs generalizing z with
  | nil =>
    rw [List.mem_singleton.mp hy]
    exact ⟨.inl rfl, .inl rfl⟩
  | cons w ws ih =>
    have hmem : ∀ {P : α × α → Prop}, (∃ x ∈ ws, P x) → ∃ x ∈ w :: ws, P x :=
      fun h => h.imp fun x hx => ⟨List.mem_cons_of_mem w hx.1, hx.2⟩
    unfold absorb at hy
    split at hy
    · obtain ⟨hlower, hupper⟩ := ih hy
      refine ⟨hlower.imp_right hmem, ?_⟩
      rcases hupper with hupper | hupper
      · rcases max_choice z.2 w.2 with h | h
        · exact .inl (hupper.trans h)
        · exact .inr ⟨w, List.mem_cons_self, hupper.trans h⟩
      · exact .inr (hmem hupper)
    · rcases List.mem_cons.mp hy with rfl | hy
      · exact ⟨.inl rfl, .inl rfl⟩
      · exact ⟨.inr ⟨y, hy, rfl⟩, .inr ⟨y, hy, rfl⟩⟩

theorem mem_insert (hy : y ∈ insert z zs) : FromEnds z zs y := by
  induction zs with
  | nil =>
    rw [List.mem_singleton.mp hy]
    exact ⟨.inl rfl, .inl rfl⟩
  | cons w ws ih =>
    have hmem : ∀ {P : α × α → Prop}, (∃ x ∈ ws, P x) → ∃ x ∈ w :: ws, P x :=
      fun h => h.imp fun x hx => ⟨List.mem_cons_of_mem w hx.1, hx.2⟩
    unfold insert at hy
    split at hy
    · rcases List.mem_cons.mp hy with rfl | hy
      · exact ⟨.inr ⟨y, List.mem_cons_self, rfl⟩, .inr ⟨y, List.mem_cons_self, rfl⟩⟩
      · exact ⟨(ih hy).1.imp_right hmem, (ih hy).2.imp_right hmem⟩
    · split at hy
      · obtain ⟨hlower, hupper⟩ := mem_absorb hy
        constructor
        · rcases hlower with hlower | hlower
          · rcases min_choice z.1 w.1 with h | h
            · exact .inl (hlower.trans h)
            · exact .inr ⟨w, List.mem_cons_self, hlower.trans h⟩
          · exact .inr (hmem hlower)
        · rcases hupper with hupper | hupper
          · rcases max_choice z.2 w.2 with h | h
            · exact .inl (hupper.trans h)
            · exact .inr ⟨w, List.mem_cons_self, hupper.trans h⟩
          · exact .inr (hmem hupper)
      · rcases List.mem_cons.mp hy with rfl | hy
        · exact ⟨.inl rfl, .inl rfl⟩
        · exact ⟨.inr ⟨y, hy, rfl⟩, .inr ⟨y, hy, rfl⟩⟩

theorem Apart.insert (h : Apart zs) (hz : z.1 < z.2) : Apart (insert z zs) := by
  induction zs with
  | nil => exact apart_cons.mpr ⟨hz, fun _ hy => absurd hy List.not_mem_nil, apart_nil⟩
  | cons y ys ih =>
    obtain ⟨hy, hrest, hys⟩ := apart_cons.mp h
    unfold OpenIntervals.insert
    split
    · next hbefore =>
      refine apart_cons.mpr ⟨hy, fun x hx => ?_, ih hys⟩
      rcases (mem_insert hx).1 with hlower | ⟨w, hw, hlower⟩
      · exact hbefore.le.trans hlower.ge
      · exact (hrest w hw).trans hlower.ge
    · split
      · exact hys.absorb ((min_le_left _ _).trans_lt (hz.trans_le (le_max_left _ _)))
      · next hbehind =>
        refine apart_cons.mpr ⟨hz, fun x hx => ?_, h⟩
        rcases List.mem_cons.mp hx with rfl | hx
        · exact not_lt.mp hbehind
        · exact (not_lt.mp hbehind).trans (hy.le.trans (hrest x hx))

/-- The interval itself is covered. -/
theorem within_insert_self (z : α × α) (zs : List (α × α)) : ∃ x ∈ insert z zs, Within z x := by
  induction zs with
  | nil => exact ⟨z, List.mem_singleton.mpr rfl, Within.refl z⟩
  | cons y ys ih =>
    unfold insert
    split
    · obtain ⟨x, hx, hwithin⟩ := ih
      exact ⟨x, List.mem_cons_of_mem y hx, hwithin⟩
    · split
      · obtain ⟨x, hx, hwithin⟩ := within_absorb_self (min z.1 y.1, max z.2 y.2) ys
        have hz : Within z (min z.1 y.1, max z.2 y.2) := ⟨min_le_left _ _, le_max_left _ _⟩
        exact ⟨x, hx, hz.trans hwithin⟩
      · exact ⟨z, List.mem_cons_self, Within.refl z⟩

/-- **What was covered by an interval still is.** -/
theorem within_insert (h : Apart zs) (hy : y ∈ zs) : ∃ x ∈ insert z zs, Within y x := by
  induction zs with
  | nil => exact absurd hy List.not_mem_nil
  | cons w ws ih =>
    obtain ⟨hw, hrest, hws⟩ := apart_cons.mp h
    unfold insert
    split
    · rcases List.mem_cons.mp hy with rfl | hy
      · exact ⟨y, List.mem_cons_self, Within.refl y⟩
      · obtain ⟨x, hx, hwithin⟩ := ih hws hy
        exact ⟨x, List.mem_cons_of_mem w hx, hwithin⟩
    · split
      · rcases List.mem_cons.mp hy with rfl | hy
        · obtain ⟨x, hx, hwithin⟩ := within_absorb_self (min z.1 y.1, max z.2 y.2) ws
          have hy' : Within y (min z.1 y.1, max z.2 y.2) := ⟨min_le_right _ _, le_max_right _ _⟩
          exact ⟨x, hx, hy'.trans hwithin⟩
        · exact within_absorb hws (fun x hx => (min_le_right _ _).trans (hw.le.trans (hrest x hx))) hy
      · exact ⟨y, List.mem_cons_of_mem z hy, Within.refl y⟩

theorem length_absorb_le (z : α × α) (zs : List (α × α)) : (absorb z zs).length ≤ zs.length + 1 := by
  induction zs generalizing z with
  | nil => exact le_rfl
  | cons y ys ih =>
    unfold absorb
    split
    · exact (ih _).trans (Nat.le_succ _)
    · exact le_rfl

theorem length_insert_le (z : α × α) (zs : List (α × α)) : (insert z zs).length ≤ zs.length + 1 := by
  induction zs with
  | nil => exact le_rfl
  | cons y ys ih =>
    unfold insert
    split
    · exact Nat.succ_le_succ ih
    · split
      · exact (length_absorb_le _ ys).trans (Nat.le_succ _)
      · exact le_rfl

/-! ## Merging neighbours -/

/-- An interval is merged with the one before it, the first of the list, if they overlap. -/
def join (rs : List (α × α)) (z : α × α) : List (α × α) :=
  match rs with
  | [] => [z]
  | r :: rs => if z.1 < r.2 then (r.1, z.2) :: rs else z :: r :: rs

/-- The intervals are joined one after the other; the last one comes first in the result. -/
def coalesce (rs zs : List (α × α)) : List (α × α) := zs.foldl join rs

/-- Both ends are in order. -/
structure Staircase (zs : List (α × α)) : Prop where
  proper : ∀ z ∈ zs, z.1 < z.2
  lower : zs.Pairwise fun y z => y.1 ≤ z.1
  upper : zs.Pairwise fun y z => y.2 ≤ z.2

theorem Staircase.tail (h : Staircase (z :: zs)) : Staircase zs :=
  ⟨fun y hy => h.proper y (List.mem_cons_of_mem z hy), (List.pairwise_cons.mp h.lower).2,
    (List.pairwise_cons.mp h.upper).2⟩

theorem apart_append_singleton : Apart (zs ++ [z]) ↔ Apart zs ∧ z.1 < z.2 ∧ ∀ y ∈ zs, y.2 ≤ z.1 := by
  constructor
  · intro h
    obtain ⟨hzs, -, hlast⟩ := List.pairwise_append.mp h.ordered
    exact ⟨⟨fun y hy => h.proper y (List.mem_append_left _ hy), hzs⟩,
      h.proper z (List.mem_append_right _ (List.mem_singleton.mpr rfl)),
      fun y hy => hlast y hy z (List.mem_singleton.mpr rfl)⟩
  · rintro ⟨h, hz, hlast⟩
    refine ⟨fun y hy => ?_, List.pairwise_append.mpr ⟨h.ordered, List.pairwise_singleton _ _, fun y hy x hx => ?_⟩⟩
    · rcases List.mem_append.mp hy with hy | hy
      · exact h.proper y hy
      · rw [List.mem_singleton.mp hy]
        exact hz
    · rw [List.mem_singleton.mp hx]
      exact hlast y hy

theorem outside_cons : Outside (z :: zs) p ↔ ¬ (z.1 < p ∧ p < z.2) ∧ Outside zs p := List.forall_mem_cons

theorem outside_nil : Outside ([] : List (α × α)) p := fun _ h => absurd h List.not_mem_nil

/-- Two intervals that overlap cover what their merger does. -/
theorem covered_merge {r : α × α} (hlower : r.1 ≤ z.1) (hupper : r.2 ≤ z.2) (hover : z.1 < r.2) :
    (r.1 < p ∧ p < z.2) ↔ (r.1 < p ∧ p < r.2) ∨ (z.1 < p ∧ p < z.2) := by
  constructor
  · rintro ⟨h, h'⟩
    rcases lt_or_ge p r.2 with hp | hp
    · exact .inl ⟨h, hp⟩
    · exact .inr ⟨hover.trans_le hp, h'⟩
  · rintro (⟨h, h'⟩ | ⟨h, h'⟩)
    · exact ⟨h, h'.trans_le hupper⟩
    · exact ⟨hlower.trans_lt h, h'⟩

/-- Behind the merging, the intervals are apart, in reverse, and cover the same points. -/
theorem coalesce_spec (rs : List (α × α)) (hrs : Apart rs.reverse) (h : Staircase zs)
    (hjoin : ∀ r ∈ rs.head?, ∀ z ∈ zs, r.1 ≤ z.1 ∧ r.2 ≤ z.2) :
    Apart (coalesce rs zs).reverse ∧ ∀ p, Outside (coalesce rs zs) p ↔ Outside rs p ∧ Outside zs p := by
  induction zs generalizing rs with
  | nil => exact ⟨hrs, fun p => ⟨fun hp => ⟨hp, outside_nil⟩, And.left⟩⟩
  | cons z zs ih =>
    have hz := h.proper z List.mem_cons_self
    have hbehind : ∀ y ∈ zs, z.1 ≤ y.1 ∧ z.2 ≤ y.2 := fun y hy =>
      ⟨(List.pairwise_cons.mp h.lower).1 y hy, (List.pairwise_cons.mp h.upper).1 y hy⟩
    cases rs with
    | nil =>
      obtain ⟨hapart, hout⟩ := ih [z] (apart_cons.mpr ⟨hz, fun _ hy => absurd hy List.not_mem_nil, apart_nil⟩)
        h.tail fun r hr => by rw [← Option.some.inj hr]; exact hbehind
      refine ⟨hapart, fun p => (hout p).trans ?_⟩
      rw [outside_cons, outside_cons]
      exact ⟨fun hp => ⟨outside_nil, hp.1.1, hp.2⟩, fun hp => ⟨⟨hp.2.1, outside_nil⟩, hp.2.2⟩⟩
    | cons r rs =>
      rw [List.reverse_cons] at hrs
      obtain ⟨hapart, hr, hlast⟩ := apart_append_singleton.mp hrs
      obtain ⟨hlower, hupper⟩ := hjoin r rfl z List.mem_cons_self
      change Apart (coalesce (if z.1 < r.2 then _ else _) zs).reverse ∧
        ∀ p, Outside (coalesce (if z.1 < r.2 then _ else _) zs) p ↔ _
      by_cases hover : z.1 < r.2
      · rw [if_pos hover]
        obtain ⟨hapart', hout⟩ := ih ((r.1, z.2) :: rs)
          (by rw [List.reverse_cons]; exact apart_append_singleton.mpr ⟨hapart, hlower.trans_lt hz, hlast⟩) h.tail
          fun r' hr' y hy => by
            rw [← Option.some.inj hr']
            exact ⟨hlower.trans (hbehind y hy).1, (hbehind y hy).2⟩
        refine ⟨hapart', fun p => (hout p).trans ?_⟩
        rw [outside_cons, outside_cons, outside_cons, covered_merge hlower hupper hover, not_or]
        tauto
      · rw [if_neg hover]
        have hle := not_lt.mp hover
        obtain ⟨hapart', hout⟩ := ih (z :: r :: rs)
          (by
            rw [List.reverse_cons, List.reverse_cons]
            refine apart_append_singleton.mpr ⟨hrs, hz, fun y hy => ?_⟩
            rcases List.mem_append.mp hy with hy | hy
            · exact (hlast y hy).trans (hr.le.trans hle)
            · rw [List.mem_singleton.mp hy]
              exact hle) h.tail
          fun r' hr' => by rw [← Option.some.inj hr']; exact hbehind
        refine ⟨hapart', fun p => (hout p).trans ?_⟩
        rw [outside_cons, outside_cons, outside_cons]
        tauto

/-- The ends of intervals that are apart are covered by none. -/
theorem Apart.outside_ends (h : Apart zs) (hz : z ∈ zs) : Outside zs z.1 ∧ Outside zs z.2 := by
  induction zs with
  | nil => exact absurd hz List.not_mem_nil
  | cons w ws ih =>
    obtain ⟨hw, hrest, hws⟩ := apart_cons.mp h
    rw [outside_cons, outside_cons]
    rcases List.mem_cons.mp hz with rfl | hz
    · refine ⟨⟨fun hc => lt_irrefl _ hc.1, fun y hy hc => ?_⟩, fun hc => lt_irrefl _ hc.2, fun y hy hc => ?_⟩
      · exact absurd hc.1 (not_lt.mpr (hw.le.trans (hrest y hy)))
      · exact absurd hc.1 (not_lt.mpr (hrest y hy))
    · obtain ⟨hlower, hupper⟩ := ih hws hz
      have hle := hrest z hz
      refine ⟨⟨fun hc => absurd hc.2 (not_lt.mpr hle), hlower⟩, fun hc => ?_, hupper⟩
      exact absurd hc.2 (not_lt.mpr (hle.trans (hws.proper z hz).le))

end Order

/-! ## The nearest point -/

variable {zs : List (ℤ × ℤ)} {z : ℤ × ℤ} {best k : ℤ}

/-- **The end that is nearest to zero is the nearest point outside**, when zero is covered. -/
theorem nearest_end (h : Apart zs) (hz : z ∈ zs) (hcovered : z.1 < 0 ∧ 0 < z.2)
    (hmem : ∃ y ∈ zs, best = y.1 ∨ best = y.2) (hbest : ∀ y ∈ zs, |best| ≤ |y.1| ∧ |best| ≤ |y.2|) :
    Outside zs best ∧ ∀ k, Outside zs k → |best| ≤ |k| := by
  constructor
  · obtain ⟨y, hy, rfl | rfl⟩ := hmem
    · exact (h.outside_ends hy).1
    · exact (h.outside_ends hy).2
  · intro k hk
    obtain ⟨hlower, hupper⟩ := hbest z hz
    rcases not_and_or.mp (hk z hz) with hle | hle
    · have habs : |z.1| ≤ |k| := by
        rw [abs_of_neg hcovered.1, abs_of_nonpos (by omega)]
        omega
      exact hlower.trans habs
    · have habs : |z.2| ≤ |k| := by
        rw [abs_of_pos hcovered.2, abs_of_nonneg (by omega)]
        omega
      exact hupper.trans habs

/-- Multiples of a step strictly inside an interval. -/
theorem covered_step {a b step : ℤ} (hstep : 0 < step) (k : ℤ) :
    (a / step < k ∧ k < -(-b / step)) ↔ (a < k * step ∧ k * step < b) := by
  refine and_congr (Int.ediv_lt_iff_lt_mul hstep) ?_
  rw [lt_neg, Int.ediv_lt_iff_lt_mul hstep, neg_mul, neg_lt_neg_iff]

/-- An interval in steps from a center, with its ends rounded away from each other. -/
def inStepsFrom (center step : ℤ) (z : ℤ × ℤ) : ℤ × ℤ := ((z.1 - center) / step, -(-(z.2 - center) / step))

/-- The steps that are covered are the ones strictly inside the intervals. -/
theorem outside_inStepsFrom (zs : List (ℤ × ℤ)) (center : ℤ) {step : ℤ} (hstep : 0 < step) :
    Outside (zs.map (inStepsFrom center step)) k ↔ Outside zs (center + k * step) := by
  have hcovered : ∀ y : ℤ × ℤ, ((inStepsFrom center step y).1 < k ∧ k < (inStepsFrom center step y).2) ↔
      (y.1 < center + k * step ∧ center + k * step < y.2) := by
    intro y
    refine (covered_step hstep k).trans ?_
    exact and_congr sub_lt_iff_lt_add' lt_sub_iff_add_lt'
  unfold Outside
  rw [List.forall_mem_map]
  exact forall₂_congr fun y _ => not_congr (hcovered y)

theorem staircase_inStepsFrom (center : ℤ) {step : ℤ} (hstep : 0 < step) (h : Apart zs) :
    Staircase (zs.map (inStepsFrom center step)) := by
  have hlower : ∀ {a b : ℤ}, a ≤ b → a / step ≤ b / step := fun h => Int.ediv_le_ediv hstep h
  refine ⟨?_, ?_, ?_⟩
  · rw [List.forall_mem_map]
    intro y hy
    have hlt := h.proper y hy
    refine not_le.mp fun hle => ?_
    have hup := Int.ediv_mul_le (-(y.2 - center)) hstep.ne'
    have hdown := Int.ediv_mul_le (y.1 - center) hstep.ne'
    have hmul : -(-(y.2 - center) / step) * step ≤ (y.1 - center) / step * step :=
      Int.mul_le_mul_of_nonneg_right hle hstep.le
    rw [neg_mul] at hmul
    omega
  · refine List.pairwise_map.mpr (h.ordered.imp_of_mem fun hy _ hle => hlower ?_)
    have := h.proper _ hy
    omega
  · refine List.pairwise_map.mpr (h.ordered.imp_of_mem fun _ hz hle => ?_)
    have := h.proper _ hz
    exact neg_le_neg (hlower (by omega))

end OpenIntervals
end Lib
end TbsMedia
