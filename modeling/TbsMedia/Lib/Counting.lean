import Mathlib.Algebra.BigOperators.Group.Finset.Basic
import Mathlib.Data.Finset.Card
import Mathlib.Data.Int.Basic

/-!
# Counting by value

A register of how many members of a set have some value is kept up to date by counting down where a member
leaves the value and counting up where one enters it.

* `countOf`: how many members of a set have a value.
* `countOf_update`, `countOf_insert`, `countOf_erase`: how the number changes.
-/

namespace TbsMedia
namespace Lib

variable {α β : Type*} [DecidableEq β] {s : Finset α}

/-- How many members of `s` have the value `v`. -/
def countOf (s : Finset α) (f : α → β) (v : β) : ℤ := ((s.filter fun x => f x = v).card : ℤ)

/-- One for a value that is the one that is counted. -/
def unit (v w : β) : ℤ := if v = w then 1 else 0

/-- Values outside of the set are not counted. -/
theorem countOf_congr {f g : α → β} (h : ∀ x ∈ s, f x = g x) (v : β) : countOf s f v = countOf s g v := by
  unfold countOf
  rw [Finset.filter_congr fun x hx => by rw [h x hx]]

variable [DecidableEq α] {a : α}

theorem countOf_insert (h : a ∉ s) (f : α → β) (v : β) : countOf (insert a s) f v = countOf s f v + unit (f a) v := by
  unfold countOf unit
  rw [Finset.filter_insert]
  split_ifs
  · rw [Finset.card_insert_of_notMem fun hmem => h (Finset.mem_of_mem_filter a hmem)]
    exact Int.natCast_succ _
  · exact (Int.add_zero _).symm

theorem countOf_erase (h : a ∈ s) (f : α → β) (v : β) : countOf (s.erase a) f v = countOf s f v - unit (f a) v := by
  have hinsert := countOf_insert (Finset.notMem_erase a s) f v
  rw [Finset.insert_erase h] at hinsert
  omega

/-- **A member changes its value.** -/
theorem countOf_update (h : a ∈ s) (f : α → β) (w v : β) :
    countOf s (Function.update f a w) v = countOf s f v - unit (f a) v + unit w v := by
  have hrest : countOf (s.erase a) (Function.update f a w) v = countOf (s.erase a) f v :=
    countOf_congr (fun x hx => Function.update_of_ne (Finset.ne_of_mem_erase hx) w f) v
  have herase := countOf_erase h (Function.update f a w) v
  rw [hrest, countOf_erase h f v, Function.update_self] at herase
  omega

end Lib
end TbsMedia
