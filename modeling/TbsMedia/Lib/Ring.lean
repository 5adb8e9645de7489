import TbsMedia.Lib.Memory
import Mathlib.Logic.Function.Basic
import Mathlib.Logic.Relation
import Mathlib.Tactic.Common

/-!
# A ring of cells and the queue it stands for

A stream is laid into a ring of `n` cells, the element at position `p` of the stream into the cell
`p % n`.  `Window m n r xs` says that of the stream `xs` the elements from position `r` on are still
in the ring.  They can be as many as `n`, and then there is no cell left that does not hold one.

* `Window.push`: an element is added while the ring has a free cell.
* `Window.get`: what a cell holds.
* `cell_ne`: the cells of different positions of a window are different.
* `laid_append`, `Laid.set`, `Laid.push`: lists that lie in a ring.
* `cyclic_get`: what a cell holds while a stream without an end goes round the ring.

`Fifo` is what such a ring is used for: a queue, with everything that has been put in and taken out.
-/

namespace TbsMedia
namespace Lib

open Function

variable {α : Type*}

/-- The ring `m` of `n` cells holds the elements of `xs` from position `r` on. -/
def Window (m : Mem α) (n r : ℕ) (xs : List α) : Prop :=
  ∀ p (h : p < xs.length), r ≤ p → m (p % n) = xs[p]

/-- Positions less than a round apart have different cells. -/
theorem cell_ne {n p q : ℕ} (h : p < q) (hn : q < p + n) : p % n ≠ q % n := by
  intro heq
  have hdvd : n ∣ q - p := Nat.dvd_of_mod_eq_zero (Nat.sub_mod_eq_zero_of_mod_eq heq.symm)
  exact absurd (Nat.le_of_dvd (by omega) hdvd) (by omega)

/-- Walking on from a cell without passing the end of the ring. -/
theorem add_mod_of_le {n p k : ℕ} (h : p % n + k < n) : (p + k) % n = p % n + k := by
  rw [Nat.add_mod, Nat.mod_eq_of_lt (show k < n by omega), Nat.mod_eq_of_lt h]

/-- The way from one cell to another, going round the end of the ring at most once. -/
theorem mod_distance {n r w : ℕ} (hn : 0 < n) (h : r ≤ w) (hw : w < r + n) :
    w = if r % n ≤ w % n then r + (w % n - r % n) else r + (w % n + n - r % n) := by
  have hr := Nat.div_add_mod r n
  have hw' := Nat.div_add_mod w n
  have hrlt := Nat.mod_lt r hn
  have hwlt := Nat.mod_lt w hn
  have hlow : r / n ≤ w / n := Nat.div_le_div_right h
  have hhigh : w / n ≤ r / n + 1 := by
    rw [← Nat.add_div_right r hn]
    exact Nat.div_le_div_right (Nat.le_of_lt hw)
  rcases Nat.lt_or_ge (r / n) (w / n) with hlt | hge
  · rw [show w / n = r / n + 1 by omega, Nat.mul_add, Nat.mul_one] at hw'
    split_ifs <;> omega
  · rw [show w / n = r / n by omega] at hw'
    split_ifs <;> omega

theorem Window.nil (m : Mem α) (n r : ℕ) : Window m n r [] := fun _ h => absurd h (Nat.not_lt_zero _)

theorem Window.get {m : Mem α} {n r p : ℕ} {xs : List α} (hw : Window m n r xs)
    (h : p < xs.length) (hr : r ≤ p) : m (p % n) = xs[p] := hw p h hr

/-- The reader gives up the positions below `r'`. -/
theorem Window.mono {m : Mem α} {n r r' : ℕ} {xs : List α} (hw : Window m n r xs) (h : r ≤ r') :
    Window m n r' xs := fun p hp hr => hw p hp (Nat.le_trans h hr)

/-- An element is put into a free cell. -/
theorem Window.push {m : Mem α} {n r : ℕ} {xs : List α} (hw : Window m n r xs)
    (hroom : xs.length < r + n) (x : α) :
    Window (update m (xs.length % n) x) n r (xs ++ [x]) := by
  intro p hp hr
  rw [List.length_append, List.length_singleton] at hp
  rcases Nat.lt_succ_iff_lt_or_eq.mp hp with hlt | rfl
  · rw [update_of_ne (cell_ne hlt (by omega)), List.getElem_append_left hlt]
    exact hw p hlt hr
  · rw [update_self, List.getElem_concat_length rfl]

/-! ## Lists in a ring -/

/-- The list `xs` lies in the ring `m` of `n` cells from position `a` on. -/
def Laid (m : Mem α) (n a : ℕ) (xs : List α) : Prop :=
  ∀ p (h : p < xs.length), m ((a + p) % n) = xs[p]

theorem Laid.nil (m : Mem α) (n a : ℕ) : Laid m n a [] := fun _ h => absurd h (Nat.not_lt_zero _)

/-- Positions count modulo the size of the ring. -/
theorem laid_mod {m : Mem α} {n a : ℕ} {xs : List α} : Laid m n (a % n) xs ↔ Laid m n a xs := by
  unfold Laid
  refine forall₂_congr fun p _ => ?_
  rw [Nat.mod_add_mod]

theorem laid_append {m : Mem α} {n a : ℕ} {xs ys : List α} :
    Laid m n a (xs ++ ys) ↔ Laid m n a xs ∧ Laid m n (a + xs.length) ys := by
  constructor
  · intro h
    refine ⟨fun p hp => ?_, fun p hp => ?_⟩
    · rw [h p (by rw [List.length_append]; omega), List.getElem_append_left hp]
    · rw [Nat.add_assoc, h (xs.length + p) (by rw [List.length_append]; omega),
        List.getElem_append_right (Nat.le_add_right _ _)]
      congr 1
      omega
  · rintro ⟨hx, hy⟩ p hp
    rcases Nat.lt_or_ge p xs.length with hlt | hge
    · rw [List.getElem_append_left hlt]
      exact hx p hlt
    · rw [List.length_append] at hp
      rw [List.getElem_append_right hge, ← hy (p - xs.length) (by omega)]
      congr 2
      omega

theorem laid_cons {m : Mem α} {n a : ℕ} {x : α} {xs : List α} :
    Laid m n a (x :: xs) ↔ m (a % n) = x ∧ Laid m n (a + 1) xs := by
  rw [← List.singleton_append, laid_append, List.length_singleton]
  refine and_congr_left fun _ => ⟨fun h => h 0 Nat.zero_lt_one, fun h p hp => ?_⟩
  obtain rfl : p = 0 := by
    rw [List.length_singleton] at hp
    omega
  exact h

/-- One element is written over. -/
theorem Laid.set {m : Mem α} {n a i : ℕ} {xs : List α} (h : Laid m n a xs) (hn : xs.length ≤ n)
    (hi : i < xs.length) (x : α) : Laid (update m ((a + i) % n) x) n a (xs.set i x) := by
  intro p hp
  rw [List.length_set] at hp
  rcases Nat.lt_trichotomy p i with hlt | rfl | hgt
  · rw [update_of_ne (cell_ne (by omega) (by omega)), List.getElem_set_ne (by omega)]
    exact h p hp
  · rw [update_self, List.getElem_set_self]
  · rw [update_of_ne (cell_ne (by omega) (by omega)).symm, List.getElem_set_ne (by omega)]
    exact h p hp

/-- An element is put behind the list. -/
theorem Laid.push {m : Mem α} {n a : ℕ} {xs : List α} (h : Laid m n a xs) (hn : xs.length < n)
    (x : α) : Laid (update m ((a + xs.length) % n) x) n a (xs ++ [x]) := by
  intro p hp
  rw [List.length_append, List.length_singleton] at hp
  rcases Nat.lt_succ_iff_lt_or_eq.mp hp with hlt | rfl
  · rw [update_of_ne (cell_ne (by omega) (by omega)), List.getElem_append_left hlt]
    exact h p hlt
  · rw [update_self, List.getElem_concat_length rfl]

/-- A list that does not reach the end of the ring. -/
theorem Laid.read {m : Mem α} {n a : ℕ} {xs : List α} (h : Laid m n a xs) (hn : a + xs.length ≤ n) :
    m.read a xs.length = xs := by
  refine List.ext_getElem (Mem.length_read ..) fun p hp hp' => ?_
  rw [← h p hp', Nat.mod_eq_of_lt (by omega)]
  simp [Mem.read]

/-! ## Endless streams -/

/-- A ring of `n` cells into which the first `w` elements of a stream have been written, on top of
what was there. -/
def cyclic (stream : ℕ → α) (old : Mem α) (n w : ℕ) : Mem α :=
  fun c => if c < w then stream ((w - 1 - c) / n * n + c) else old c

/-- A cell holds what was written into it last. -/
theorem cyclic_get (stream : ℕ → α) (old : Mem α) {n w p : ℕ} (hp : p < w) (hw : w ≤ p + n) :
    cyclic stream old n w (p % n) = stream p := by
  have hdiv := Nat.div_add_mod p n
  have hlt : p % n < n := Nat.mod_lt _ (by omega)
  have hround : (w - 1 - p % n) / n = p / n := by
    have hlow : n * (p / n) ≤ w - 1 - p % n := by omega
    have hhigh : w - 1 - p % n < n * (p / n) + n := by omega
    refine Nat.div_eq_of_lt_le ?_ ?_
    · rwa [Nat.mul_comm]
    · rw [Nat.add_mul, Nat.one_mul, Nat.mul_comm]
      exact hhigh
  unfold cyclic
  rw [if_pos (by omega), hround, Nat.mul_comm, hdiv]

/-! ## Queues -/

/-- A queue, with what has been put in and what has been taken out. -/
structure Fifo (α : Type*) where
  ins : List α
  queue : List α
  outs : List α

/-- What a queue does. -/
inductive Fifo.Step : Fifo α → Fifo α → Prop where
  | push (ins queue outs xs) : Step ⟨ins, queue, outs⟩ ⟨ins ++ xs, queue ++ xs, outs⟩
  | pop (ins x queue outs) : Step ⟨ins, x :: queue, outs⟩ ⟨ins, queue, outs ++ [x]⟩

/-- **First in, first out.** -/
theorem Fifo.ins_eq {f : Fifo α} (h : Relation.ReflTransGen Fifo.Step ⟨[], [], []⟩ f) :
    f.ins = f.outs ++ f.queue := by
  induction h with
  | refl => rfl
  | tail _ hstep ih =>
    cases hstep with
    | push ins queue outs xs =>
      change ins = outs ++ queue at ih
      change ins ++ xs = outs ++ (queue ++ xs)
      rw [ih, List.append_assoc]
    | pop ins x queue outs =>
      change ins = outs ++ x :: queue at ih
      change ins = outs ++ [x] ++ queue
      rw [ih, List.append_assoc, List.singleton_append]

end Lib
end TbsMedia
