import Mathlib.Data.List.Nodup
import TbsMedia.Lib.Memory

/-!
# Logs of stores

A routine that fills a buffer is modelled by the list of its stores, each an address and a value.  Where
no address is stored to twice, the buffer holds behind the routine what the log says.

* `storeAll`: the memory behind a log.
* `storeAll_of_notMem`: an address that is not in the log keeps its cell.
* `storeAll_of_mem`: an address that is in a log without repetitions holds its value.
-/

namespace TbsMedia
namespace Lib
namespace Mem

variable {α : Type*}

/-- One cell replaced. -/
def store (m : Mem α) (p : ℕ × α) : Mem α := Function.update m p.1 p.2

/-- The memory behind a log of stores. -/
def storeAll (m : Mem α) (ws : List (ℕ × α)) : Mem α := ws.foldl store m

@[simp] theorem storeAll_cons (m : Mem α) (p : ℕ × α) (ws : List (ℕ × α)) :
    m.storeAll (p :: ws) = (m.store p).storeAll ws := rfl

/-- An address outside the log keeps its cell. -/
theorem storeAll_of_notMem {m : Mem α} {ws : List (ℕ × α)} {a : ℕ} (h : a ∉ ws.map Prod.fst) :
    m.storeAll ws a = m a := by
  induction ws generalizing m with
  | nil => rfl
  | cons p ws ih =>
    rw [List.map_cons, List.mem_cons, not_or] at h
    rw [storeAll_cons, ih h.2]
    exact Function.update_of_ne h.1 _ _

/-- **A store of a log without repetitions is found in the memory behind it.** -/
theorem storeAll_of_mem {m : Mem α} {ws : List (ℕ × α)} (hnd : (ws.map Prod.fst).Nodup) {a : ℕ} {v : α}
    (h : (a, v) ∈ ws) : m.storeAll ws a = v := by
  induction ws generalizing m with
  | nil => simp at h
  | cons p ws ih =>
    rw [List.map_cons, List.nodup_cons] at hnd
    rw [storeAll_cons]
    rcases List.mem_cons.1 h with rfl | h
    · rw [storeAll_of_notMem hnd.1]
      exact Function.update_self _ _ _
    · exact ih hnd.2 h

end Mem
end Lib
end TbsMedia
