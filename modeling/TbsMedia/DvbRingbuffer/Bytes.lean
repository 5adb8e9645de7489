import Mathlib
import TbsMedia.DvbRingbuffer.Packets

/-!
# The bytes in a ring buffer

`Contains rbuf xs` says that the ring, of whatever size, holds the bytes `xs` and no others.  Each call
from its start to its end works on that list: a write appends to it, a read takes bytes from its front,
and a flush empties it.

* `Contains.write`, `Contains.writeByte`: bytes are added.
* `Contains.fetch`, `Contains.read`, `Contains.skip`: bytes are looked at, and taken out.
-/

namespace TbsMedia
namespace Ringbuffer

open Lib Function

variable {rbuf : DvbRingbuffer UInt8} {xs buf : List UInt8}

/-! ## Going round the ring -/

/-- A position that has passed the end of the ring at most once. -/
theorem wrap_eq {n a : ℕ} (h : a < n + n) : a % n = if a < n then a else a - n := by
  split_ifs with hlt
  · exact Nat.mod_eq_of_lt hlt
  · rw [Nat.mod_eq_sub_mod (by omega), Nat.mod_eq_of_lt (by omega)]

/-- The ring holds the bytes `xs`. -/
structure Contains (rbuf : DvbRingbuffer UInt8) (xs : List UInt8) : Prop where
  pread_lt : rbuf.pread < rbuf.size
  pwrite : rbuf.pwrite = (rbuf.pread + xs.length) % rbuf.size
  lt : xs.length < rbuf.size
  data : Laid rbuf.data rbuf.size rbuf.pread xs

theorem contains_init (data : Mem UInt8) {len : ℕ} (hlen : 0 < len) :
    Contains (dvbRingbufferInit data len) [] :=
  ⟨hlen, (Nat.zero_mod _).symm, hlen, Laid.nil _ _ _⟩

theorem Contains.pwrite_lt (h : Contains rbuf xs) : rbuf.pwrite < rbuf.size := by
  have hlt := h.lt
  rw [h.pwrite]
  exact Nat.mod_lt _ (by omega)

theorem Contains.pwrite_eq (h : Contains rbuf xs) :
    rbuf.pwrite = if rbuf.pread + xs.length < rbuf.size then rbuf.pread + xs.length
      else rbuf.pread + xs.length - rbuf.size := by
  have hpread := h.pread_lt
  have hlt := h.lt
  rw [h.pwrite]
  exact wrap_eq (by omega)

theorem Contains.avail (h : Contains rbuf xs) : dvbRingbufferAvail rbuf = xs.length := by
  have hpwrite := h.pwrite_eq
  have hpread := h.pread_lt
  have hlt := h.lt
  unfold dvbRingbufferAvail
  dsimp only
  split_ifs at hpwrite ⊢ <;> omega

theorem Contains.free (h : Contains rbuf xs) :
    dvbRingbufferFree rbuf = (rbuf.size : ℤ) - 1 - xs.length := by
  have hpwrite := h.pwrite_eq
  have hpread := h.pread_lt
  have hlt := h.lt
  unfold dvbRingbufferFree
  dsimp only
  split_ifs at hpwrite ⊢ <;> omega

/-- `dvb_ringbuffer_empty`. -/
def dvbRingbufferEmpty (rbuf : DvbRingbuffer UInt8) : Bool := rbuf.pread == rbuf.pwrite

theorem Contains.empty (h : Contains rbuf xs) : dvbRingbufferEmpty rbuf = xs.isEmpty := by
  have hpwrite := h.pwrite_eq
  have hlt := h.lt
  unfold dvbRingbufferEmpty
  cases xs with
  | nil =>
    rw [List.length_nil] at hpwrite
    have hpread := h.pread_lt
    rw [if_pos (by omega)] at hpwrite
    exact beq_iff_eq.mpr hpwrite.symm
  | cons x xs =>
    rw [List.length_cons] at hpwrite hlt
    refine beq_eq_false_iff_ne.mpr ?_
    split_ifs at hpwrite <;> omega

theorem Contains.flush (h : Contains rbuf xs) : Contains (dvbRingbufferFlush rbuf) [] :=
  ⟨h.pwrite_lt, (Nat.mod_eq_of_lt h.pwrite_lt).symm, Nat.zero_lt_of_lt h.lt, Laid.nil _ _ _⟩

/-! ## Reading -/

/-- A fetch goes round the end of the ring. -/
theorem fetch_laid {idx : ℕ} (hidx : idx < rbuf.size) (h : Laid rbuf.data rbuf.size idx xs)
    (hlen : xs.length ≤ rbuf.size) : Ringbuffer.fetch rbuf idx xs.length = xs := by
  unfold Ringbuffer.fetch split
  dsimp only
  by_cases hround : idx + xs.length > rbuf.size
  · rw [if_pos hround, if_pos (by omega)]
    have htake : (xs.take (rbuf.size - idx)).length = rbuf.size - idx := by
      rw [List.length_take]
      omega
    have hdrop : (xs.drop (rbuf.size - idx)).length = xs.length - (rbuf.size - idx) := List.length_drop ..
    rw [← List.take_append_drop (rbuf.size - idx) xs, laid_append, htake] at h
    obtain ⟨hfirst, hsecond⟩ := h
    have hzero : (idx + (rbuf.size - idx)) % rbuf.size = 0 := by
      rw [Nat.add_sub_cancel' hidx.le, Nat.mod_self]
    rw [← laid_mod, hzero] at hsecond
    have hr₁ := hfirst.read (by omega)
    have hr₂ := hsecond.read (by omega)
    rw [htake] at hr₁
    rw [hdrop] at hr₂
    rw [hr₁, hr₂, List.take_append_drop]
  · rw [if_neg hround, if_neg (by decide)]
    exact h.read (by omega)

/-- `dvb_ringbuffer_read`, and `dvb_ringbuffer_read_user`, from its start to its end. -/
def dvbRingbufferRead (rbuf : DvbRingbuffer UInt8) (len : ℕ) : List UInt8 × DvbRingbuffer UInt8 :=
  let split := split rbuf.pread len rbuf.size
  (Ringbuffer.fetch rbuf rbuf.pread len,
    if split > 0 then { rbuf with pread := (0 + (len - split)) % rbuf.size }
    else { rbuf with pread := (rbuf.pread + len) % rbuf.size })

/-- Bytes at the front are passed. -/
theorem Contains.skip (h : Contains rbuf (buf ++ xs)) : Contains (Ringbuffer.skip rbuf buf.length) xs := by
  obtain ⟨hpread, hpwrite, hlt, hdata⟩ := h
  rw [List.length_append] at hpwrite hlt
  rw [laid_append] at hdata
  refine ⟨Nat.mod_lt _ (by show 0 < rbuf.size; omega), ?_, by show xs.length < rbuf.size; omega, ?_⟩
  · show rbuf.pwrite = ((rbuf.pread + buf.length) % rbuf.size + xs.length) % rbuf.size
    rw [hpwrite, Nat.mod_add_mod, Nat.add_assoc]
  · show Laid rbuf.data rbuf.size ((rbuf.pread + buf.length) % rbuf.size) xs
    exact laid_mod.mpr hdata.2

/-- **A read** takes the bytes at the front. -/
theorem Contains.read (h : Contains rbuf (buf ++ xs)) :
    ∃ rbuf', dvbRingbufferRead rbuf buf.length = (buf, rbuf') ∧ Contains rbuf' xs ∧ rbuf'.size = rbuf.size := by
  have hlt := h.lt
  rw [List.length_append] at hlt
  have hfetch : Ringbuffer.fetch rbuf rbuf.pread buf.length = buf :=
    fetch_laid h.pread_lt (laid_append.mp h.data).1 (by omega)
  refine ⟨Ringbuffer.skip rbuf buf.length, ?_, h.skip, rfl⟩
  have hpread := h.pread_lt
  unfold dvbRingbufferRead
  dsimp only
  rw [hfetch]
  unfold Ringbuffer.skip split
  by_cases hround : rbuf.pread + buf.length > rbuf.size
  · have hpassed : buf.length - (rbuf.size - rbuf.pread) = (rbuf.pread + buf.length) % rbuf.size := by
      rw [wrap_eq (a := rbuf.pread + buf.length) (by omega), if_neg (by omega)]
      omega
    rw [if_pos hround, if_pos (by omega), Nat.zero_add, hpassed, Nat.mod_mod]
  · rw [if_neg hround, if_neg (by decide)]

/-! ## Writing -/

theorem Contains.writeByte (h : Contains rbuf xs) (hroom : xs.length + 1 < rbuf.size) (byte : UInt8) :
    Contains (Ringbuffer.writeByte rbuf byte) (xs ++ [byte]) := by
  obtain ⟨hpread, hpwrite, hlt, hdata⟩ := h
  have hlen : (xs ++ [byte]).length = xs.length + 1 := by
    rw [List.length_append, List.length_singleton]
  refine ⟨hpread, ?_, by rw [hlen]; exact hroom, ?_⟩
  · show (rbuf.pwrite + 1) % rbuf.size = (rbuf.pread + (xs ++ [byte]).length) % rbuf.size
    rw [hpwrite, hlen, Nat.mod_add_mod, Nat.add_assoc]
  · show Laid (update rbuf.data rbuf.pwrite byte) rbuf.size rbuf.pread (xs ++ [byte])
    rw [hpwrite]
    exact hdata.push hlt byte

theorem size_dvbRingbufferWrite (rbuf : DvbRingbuffer UInt8) (buf : List UInt8) :
    (dvbRingbufferWrite rbuf buf).size = rbuf.size ∧ (dvbRingbufferWrite rbuf buf).pread = rbuf.pread := by
  unfold dvbRingbufferWrite
  dsimp only
  split_ifs <;> exact ⟨rfl, rfl⟩

/-- The bytes of a transfer are behind the pointer. -/
theorem laid_dvbRingbufferWrite (hp : rbuf.pwrite < rbuf.size) (hlen : buf.length ≤ rbuf.size) :
    Laid (dvbRingbufferWrite rbuf buf).data rbuf.size rbuf.pwrite buf := by
  intro i hi
  unfold dvbRingbufferWrite split
  dsimp only
  by_cases hround : rbuf.pwrite + buf.length > rbuf.size
  · rw [if_pos hround, if_pos (by omega)]
    dsimp only
    rw [wrap_eq (by omega)]
    split_ifs with hlt
    · rw [Mem.write_apply_of_ge _ _ (by rw [List.length_drop]; omega)]
      unfold Mem.write
      rw [if_pos (Nat.le_add_right _ _), Nat.add_sub_cancel_left, List.getElem?_take_of_lt (by omega),
        List.getElem?_eq_getElem hi]
      rfl
    · unfold Mem.write
      rw [if_pos (Nat.zero_le _), Nat.sub_zero, List.getElem?_drop,
        show rbuf.size - rbuf.pwrite + (rbuf.pwrite + i - rbuf.size) = i by omega, List.getElem?_eq_getElem hi]
      rfl
  · have hcell : (rbuf.pwrite + i) % rbuf.size = rbuf.pwrite + i := Nat.mod_eq_of_lt (by omega)
    rw [if_neg hround, if_neg (by decide), hcell]
    dsimp only
    unfold Mem.write
    rw [if_pos (Nat.le_add_right _ _), Nat.add_sub_cancel_left, List.getElem?_eq_getElem hi]
    rfl

/-- The other cells stay as they are. -/
theorem dvbRingbufferWrite_other (hp : rbuf.pwrite < rbuf.size) {c : ℕ} (hc : c < rbuf.size)
    (hne : ∀ i < buf.length, (rbuf.pwrite + i) % rbuf.size ≠ c) :
    (dvbRingbufferWrite rbuf buf).data c = rbuf.data c := by
  unfold dvbRingbufferWrite split
  dsimp only
  by_cases hround : rbuf.pwrite + buf.length > rbuf.size
  · rw [if_pos hround, if_pos (by omega)]
    dsimp only
    have hlow : c < rbuf.pwrite := by
      by_contra hge
      refine hne (c - rbuf.pwrite) (by omega) ?_
      rw [Nat.add_sub_cancel' (by omega), Nat.mod_eq_of_lt hc]
    have hhigh : 0 + (buf.drop (rbuf.size - rbuf.pwrite)).length ≤ c := by
      rw [List.length_drop]
      by_contra hlt
      refine hne (rbuf.size - rbuf.pwrite + c) (by omega) ?_
      rw [← Nat.add_assoc, Nat.add_sub_cancel' hp.le, Nat.add_mod_left, Nat.mod_eq_of_lt hc]
    rw [Mem.write_apply_of_ge _ _ hhigh, Mem.write_apply_of_lt _ _ hlow]
  · rw [if_neg hround, if_neg (by decide)]
    dsimp only
    rcases Nat.lt_or_ge c rbuf.pwrite with hlt | hge
    · exact Mem.write_apply_of_lt _ _ hlt
    · refine Mem.write_apply_of_ge _ _ ?_
      by_contra hin
      refine hne (c - rbuf.pwrite) (by omega) ?_
      rw [Nat.add_sub_cancel' hge, Nat.mod_eq_of_lt hc]

theorem pwrite_dvbRingbufferWrite (hp : rbuf.pwrite < rbuf.size) (hlen : buf.length ≤ rbuf.size) :
    (dvbRingbufferWrite rbuf buf).pwrite = (rbuf.pwrite + buf.length) % rbuf.size := by
  unfold dvbRingbufferWrite split
  dsimp only
  by_cases hround : rbuf.pwrite + buf.length > rbuf.size
  · have hpassed : buf.length - (rbuf.size - rbuf.pwrite) = (rbuf.pwrite + buf.length) % rbuf.size := by
      rw [wrap_eq (a := rbuf.pwrite + buf.length) (by omega), if_neg (by omega)]
      omega
    rw [if_pos hround, if_pos (by omega), Nat.zero_add, hpassed, Nat.mod_mod]
  · rw [if_neg hround, if_neg (by decide)]

/-- **A write** appends its bytes, if there is room for them. -/
theorem Contains.write (h : Contains rbuf xs) (hroom : xs.length + buf.length < rbuf.size) :
    Contains (dvbRingbufferWrite rbuf buf) (xs ++ buf) := by
  have hp := h.pwrite_lt
  obtain ⟨hsize, hpread⟩ := size_dvbRingbufferWrite rbuf buf
  refine ⟨by rw [hsize, hpread]; exact h.pread_lt, ?_, by rw [hsize, List.length_append]; exact hroom, ?_⟩
  · rw [hsize, hpread, pwrite_dvbRingbufferWrite hp (by omega), h.pwrite, Nat.mod_add_mod, List.length_append,
      Nat.add_assoc]
  · rw [hsize, hpread, laid_append]
    refine ⟨fun p hin => ?_, laid_mod.mp (h.pwrite ▸ laid_dvbRingbufferWrite hp (by omega))⟩
    rw [← h.data p hin]
    refine dvbRingbufferWrite_other hp (Nat.mod_lt _ (by omega)) fun i hi => ?_
    rw [h.pwrite, Nat.mod_add_mod, Nat.add_assoc]
    exact (cell_ne (by omega) (by omega)).symm

end Ringbuffer
end TbsMedia
