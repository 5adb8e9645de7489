import Mathlib.Data.List.Basic
import Mathlib.Tactic.Common

/-!
# Bounded queues

A `Kfifo` holds at most as many elements as it has room for.  What does not fit is not taken.
-/

namespace TbsMedia
namespace Lib

/-- A queue with room for `size` elements. -/
structure Kfifo (α : Type*) (size : ℕ) where
  data : List α
  length_le : data.length ≤ size

namespace Kfifo

variable {α : Type*} {size : ℕ}

/-- The queue without elements, as after `kfifo_reset`. -/
def empty (α : Type*) (size : ℕ) : Kfifo α size := ⟨[], Nat.zero_le _⟩

/-- `kfifo_len`. -/
def len (fifo : Kfifo α size) : ℕ := fifo.data.length

/-- `kfifo_avail`. -/
def avail (fifo : Kfifo α size) : ℕ := size - fifo.len

/-- `kfifo_in`, `kfifo_from_user`: as many elements as there is room for. -/
def push (fifo : Kfifo α size) (buf : List α) : Kfifo α size where
  data := fifo.data ++ buf.take fifo.avail
  length_le := by
    have h := fifo.length_le
    rw [List.length_append, List.length_take]
    unfold avail len
    omega

/-- What `kfifo_out` takes out. -/
def front (fifo : Kfifo α size) (n : ℕ) : List α := fifo.data.take n

/-- What `kfifo_out` leaves. -/
def drop (fifo : Kfifo α size) (n : ℕ) : Kfifo α size where
  data := fifo.data.drop n
  length_le := by
    have h := fifo.length_le
    rw [List.length_drop]
    omega

end Kfifo

end Lib
end TbsMedia
