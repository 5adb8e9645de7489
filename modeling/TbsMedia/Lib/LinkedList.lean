import Mathlib

/-!
# Singly linked lists

* `Leads`: the links of the nodes of a list go through them in their order.
* `Leads.relink`: the link of the last node is changed.
* `leads_append`: two lists, one behind the other.
-/

namespace TbsMedia
namespace Lib
namespace LinkedList

variable {α : Type*} {next next' : α → Option α} {l : List α} {a : α} {p q : Option α}

/-- The first node of a list, with `p` behind the list. -/
def first (p : Option α) : List α → Option α
  | [] => p
  | a :: _ => some a

/-- The links of the nodes go through the list, and then to `p`. -/
def Leads (next : α → Option α) (p : Option α) : List α → Prop
  | [] => True
  | a :: l => next a = first p l ∧ Leads next p l

theorem first_append (l m : List α) (p : Option α) : first p (l ++ m) = first (first p m) l := by
  cases l <;> rfl

theorem leads_append (l m : List α) : Leads next p (l ++ m) ↔ Leads next (first p m) l ∧ Leads next p m := by
  induction l with
  | nil => exact ⟨fun h => ⟨trivial, h⟩, And.right⟩
  | cons a l ih =>
    change next a = first p (l ++ m) ∧ Leads next p (l ++ m) ↔ (_ ∧ _) ∧ _
    rw [ih, first_append, and_assoc]

/-- The links of other nodes do not matter. -/
theorem Leads.congr (h : Leads next p l) (hsame : ∀ a ∈ l, next' a = next a) : Leads next' p l := by
  induction l with
  | nil => trivial
  | cons a l ih =>
    refine ⟨(hsame a List.mem_cons_self).trans h.1, ih h.2 fun b hb => hsame b (List.mem_cons_of_mem a hb)⟩

/-- The link of the last node is changed. -/
theorem Leads.relink (h : Leads next p (l ++ [a])) (hlink : next' a = q) (hsame : ∀ b ∈ l, next' b = next b) :
    Leads next' q (l ++ [a]) := by
  obtain ⟨hfront, -⟩ := (leads_append l [a]).mp h
  exact (leads_append l [a]).mpr ⟨hfront.congr hsame, hlink, trivial⟩

end LinkedList
end Lib
end TbsMedia
