import Mathlib.Data.List.Basic

/-!
# Self-terminating sequences

A sequence of elements each of which says whether another one follows.

* `Terminated`: all elements but the last one say so.
* `Terminated.append_eq`: of a row that starts with such a sequence, it is the only one.
-/

namespace TbsMedia
namespace Lib

variable {α : Type*}

/-- The sequence ends with its first element that has none behind it. -/
inductive Terminated (more : α → Prop) : List α → Prop where
  | last {a : α} : ¬ more a → Terminated more [a]
  | cons {a : α} {s : List α} : more a → Terminated more s → Terminated more (a :: s)

namespace Terminated

variable {more : α → Prop} {s t : List α}

theorem length_pos (h : Terminated more s) : 0 < s.length := by
  cases h with
  | last _ => exact Nat.one_pos
  | cons _ _ => exact Nat.succ_pos _

/-- No such sequence goes on behind another one. -/
theorem append_eq {u v : List α} (hs : Terminated more s) (ht : Terminated more t) (h : s ++ u = t ++ v) :
    s = t ∧ u = v := by
  induction hs generalizing t with
  | last hlast =>
    cases ht with
    | last _ => simpa using h
    | cons hmore _ => exact absurd ((List.cons.inj h).1 ▸ hmore) hlast
  | cons hmore _ ih =>
    cases ht with
    | last hlast => exact absurd ((List.cons.inj h).1 ▸ hmore) hlast
    | cons _ ht' =>
      obtain ⟨rfl, hrest⟩ := List.cons.inj h
      obtain ⟨rfl, rfl⟩ := ih ht' hrest
      exact ⟨rfl, rfl⟩

end Terminated

end Lib
end TbsMedia
