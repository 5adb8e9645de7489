import Mathlib.Data.List.Basic
import Mathlib.Data.List.TakeDrop

/-!
# Flat memory

A memory is a total map from addresses to cells.  C buffers that are accessed through moving
pointers are modelled by it: a pointer is an address, `memcpy` is `Mem.write`, and the bytes that a
callee is handed are `Mem.read`.

* `read_add`: a block is read in two halves.
* `read_write_self`, `read_write_of_le`, `read_write_of_ge`: what a write does to a read.
* `read_write_append`: appending behind a block appends to what is read.
-/

namespace TbsMedia
namespace Lib

variable {α : Type*}

/-- A memory: every address holds a cell. -/
abbrev Mem (α : Type*) := ℕ → α

namespace Mem

/-- The `n` cells from address `a` on. -/
def read (m : Mem α) (a n : ℕ) : List α := (List.range n).map fun i => m (a + i)

/-- Store the list `bs` from address `a` on. -/
def write (m : Mem α) (a : ℕ) (bs : List α) : Mem α :=
  fun i => if a ≤ i then (bs[i - a]?).getD (m i) else m i

/-- The memory that holds `bs` from address zero on, and `d` behind it. -/
def ofList (d : α) (bs : List α) : Mem α := fun i => bs.getD i d

@[simp] theorem length_read (m : Mem α) (a n : ℕ) : (m.read a n).length = n := by
  simp [read]

theorem getElem?_read (m : Mem α) (a n i : ℕ) (hi : i < n) : (m.read a n)[i]? = some (m (a + i)) := by
  simp [read, hi]

/-- Two reads agree when the memories agree on the block. -/
theorem read_congr {m m' : Mem α} {a n : ℕ} (h : ∀ i, a ≤ i → i < a + n → m i = m' i) :
    m.read a n = m'.read a n := by
  refine List.map_congr_left fun i hi => ?_
  rw [List.mem_range] at hi
  exact h (a + i) (by omega) (by omega)

/-- A block is its first `n` cells followed by the `k` cells behind them. -/
theorem read_add (m : Mem α) (a n k : ℕ) : m.read a (n + k) = m.read a n ++ m.read (a + n) k := by
  rw [read, List.range_add, List.map_append, List.map_map]
  refine congrArg (m.read a n ++ ·) (List.map_congr_left fun i _ => ?_)
  rw [Function.comp_apply, Nat.add_assoc]

theorem take_read (m : Mem α) {a n k : ℕ} (h : k ≤ n) : (m.read a n).take k = m.read a k := by
  obtain ⟨d, rfl⟩ := Nat.exists_eq_add_of_le h
  rw [read_add, List.take_left' (length_read m a k)]

theorem drop_read (m : Mem α) {a n k : ℕ} (h : k ≤ n) :
    (m.read a n).drop k = m.read (a + k) (n - k) := by
  obtain ⟨d, rfl⟩ := Nat.exists_eq_add_of_le h
  rw [read_add, List.drop_left' (length_read m a k), Nat.add_sub_cancel_left]

/-- A block that reads as `xs ++ ys` is `xs`, and behind it `ys`. -/
theorem read_eq_append_iff {m : Mem α} {a n : ℕ} {xs ys : List α} (hn : n = xs.length + ys.length) :
    m.read a n = xs ++ ys ↔ m.read a xs.length = xs ∧ m.read (a + xs.length) ys.length = ys := by
  subst hn
  rw [read_add]
  exact ⟨fun h => List.append_inj h (length_read ..), fun ⟨h₁, h₂⟩ => by rw [h₁, h₂]⟩

/-- The cell at a position of a known block. -/
theorem apply_of_read_eq {m : Mem α} {a n : ℕ} {xs : List α} (h : m.read a n = xs) {i : ℕ}
    (hi : i < xs.length) : m (a + i) = xs[i] := by
  subst h
  simp [read]

theorem write_apply_of_lt (m : Mem α) {a i : ℕ} (bs : List α) (h : i < a) : m.write a bs i = m i :=
  if_neg (Nat.not_le.mpr h)

theorem write_apply_of_ge (m : Mem α) {a i : ℕ} (bs : List α) (h : a + bs.length ≤ i) :
    m.write a bs i = m i := by
  have hget : bs[i - a]? = none := List.getElem?_eq_none (by omega)
  simp [write, hget]

/-- A write is read back. -/
@[simp] theorem read_write_self (m : Mem α) (a : ℕ) (bs : List α) :
    (m.write a bs).read a bs.length = bs := by
  refine List.ext_getElem (length_read ..) fun i _ hi => ?_
  simp [read, write, hi]

/-- A write leaves the block below it. -/
theorem read_write_of_le (m : Mem α) {a b n : ℕ} (bs : List α) (h : b + n ≤ a) :
    (m.write a bs).read b n = m.read b n :=
  read_congr fun i _ hi => write_apply_of_lt m bs (by omega)

/-- A write leaves the block above it. -/
theorem read_write_of_ge (m : Mem α) {a b n : ℕ} (bs : List α) (h : a + bs.length ≤ b) :
    (m.write a bs).read b n = m.read b n :=
  read_congr fun i hi _ => write_apply_of_ge m bs (by omega)

/-- Appending behind a block appends to what is read. -/
theorem read_write_append (m : Mem α) {a b n : ℕ} (bs : List α) (h : a + n = b) :
    (m.write b bs).read a (n + bs.length) = m.read a n ++ bs := by
  subst h
  rw [read_add, read_write_self, read_write_of_le m bs (Nat.le_refl _)]

/-- The first cell of a block is written over. -/
theorem write_write_cons (m : Mem α) (a : ℕ) (b c : α) (bs : List α) :
    (m.write a (b :: bs)).write a [c] = m.write a (c :: bs) := by
  funext i
  rcases Nat.lt_trichotomy i a with h | rfl | h
  · rw [write_apply_of_lt _ _ h, write_apply_of_lt _ _ h, write_apply_of_lt _ _ h]
  · simp [write]
  · rw [write_apply_of_ge _ _ (by rw [List.length_singleton]; omega)]
    obtain ⟨k, rfl⟩ : ∃ k, i = a + (k + 1) := ⟨i - a - 1, by omega⟩
    simp [write]

/-- Within the list, its memory reads as the list. -/
theorem read_ofList (d : α) {bs : List α} {a n : ℕ} (h : a + n ≤ bs.length) :
    (ofList d bs).read a n = (bs.drop a).take n := by
  have hlen : n ≤ (bs.drop a).length := by
    rw [List.length_drop]
    omega
  refine List.ext_getElem (by rw [length_read, List.length_take, Nat.min_eq_left hlen])
    fun i hi _ => ?_
  rw [length_read] at hi
  have hlt : a + i < bs.length := by omega
  simp [read, ofList, hlt]

end Mem

end Lib
end TbsMedia
