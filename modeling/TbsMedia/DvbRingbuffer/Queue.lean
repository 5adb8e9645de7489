import TbsMedia.DvbRingbuffer.Ringbuffer

/-!
# The ring buffer is a queue

Whatever the order in which writer and reader do their steps, the bytes that are read are the bytes
that have been written.  The invariant is `Inv`: `stored`, the bytes that have been copied into the
ring, are a window of it from the position on that the reader has released last, and the two sides
are where the pointers say.  A pointer that stands at zero in the middle of a transfer is no
exception: it has passed the bytes in front of the end of the ring, and says so.

`inv_step` is what one step does to the invariant, `fifo_step` that the step is one of a queue, or
none at all, and `ring_refines_fifo` puts the results on whole runs together.
-/

namespace TbsMedia
namespace Ringbuffer

open Lib Function Relation

variable {α : Type*}

/-! ## The invariant -/

/-- The bytes that the writer has still to copy. -/
def Ring.left (s : Ring α) : List α :=
  match s.writer with
  | none => []
  | some x => x.todo ++ x.rest.getD []

/-- The number of bytes that the reader has still to copy. -/
def Ring.wanted (s : Ring α) : ℕ :=
  match s.reader with
  | none => 0
  | some x => x.todo + x.rest.getD 0

/-- A transfer: the side has passed `from` with its pointer `p` and `k` bytes since, `len` bytes are
still to be copied in front of the next store, and they end at the end of the ring if some are to
follow behind it. -/
structure InPlace (size p done k pos len : ℕ) (goesOn : Bool) : Prop where
  pos_eq : done + k = pos
  le_size : p + k + len ≤ size
  eq_size : goesOn = true → p + k + len = size

/-- Where the writer is. -/
def WriterAt (s : Ring α) (stored : List α) : Prop :=
  match s.writer with
  | none => s.published = stored.length
  | some x => InPlace s.rbuf.size s.rbuf.pwrite s.published x.k stored.length x.todo.length
      x.rest.isSome

/-- Where the reader is. -/
def ReaderAt (s : Ring α) : Prop :=
  match s.reader with
  | none => s.released = s.got.length
  | some x => InPlace s.rbuf.size s.rbuf.pread s.released x.k s.got.length x.todo x.rest.isSome

/-- The invariant: `stored` are the bytes that have been copied into the ring so far. -/
structure Inv (s : Ring α) (stored : List α) : Prop where
  size_pos : 0 < s.rbuf.size
  accepted : s.accepted = stored ++ s.left
  pwrite : s.rbuf.pwrite = s.published % s.rbuf.size
  pread : s.rbuf.pread = s.released % s.rbuf.size
  released_le : s.released ≤ s.got.length
  published_le : s.published ≤ stored.length
  got : s.got = stored.take s.got.length
  window : Window s.rbuf.data s.rbuf.size s.released stored
  writerAt : WriterAt s stored
  readerAt : ReaderAt s
  wcredit : 0 ≤ s.wcredit
  rcredit : 0 ≤ s.rcredit
  wroom : (stored.length : ℤ) + s.left.length + s.wcredit + 1 ≤ s.released + s.rbuf.size
  rroom : (s.got.length : ℤ) + s.wanted + s.rcredit ≤ s.published

theorem inv_init (data : Mem α) {size : ℕ} (hsize : 0 < size) : Inv (Ring.init data size) [] where
  size_pos := hsize
  accepted := rfl
  pwrite := (Nat.zero_mod _).symm
  pread := (Nat.zero_mod _).symm
  released_le := Nat.le_refl _
  published_le := Nat.le_refl _
  got := rfl
  window := Window.nil _ _ _
  writerAt := rfl
  readerAt := rfl
  wcredit := Int.le_refl _
  rcredit := Int.le_refl _
  wroom := by
    change ((0 : ℕ) : ℤ) + (0 : ℕ) + 0 + 1 ≤ (0 : ℕ) + (size : ℤ)
    omega
  rroom := Int.le_refl _

theorem Inv.pwrite_lt {s : Ring α} {stored : List α} (h : Inv s stored) :
    s.rbuf.pwrite < s.rbuf.size := by
  rw [h.pwrite]
  exact Nat.mod_lt _ h.size_pos

theorem Inv.pread_lt {s : Ring α} {stored : List α} (h : Inv s stored) :
    s.rbuf.pread < s.rbuf.size := by
  rw [h.pread]
  exact Nat.mod_lt _ h.size_pos

/-- What is free, when the writer is between two calls. -/
theorem Inv.free_eq {s : Ring α} {stored : List α} (h : Inv s stored) (hw : s.writer = none) :
    (stored.length : ℤ) + dvbRingbufferFree s.rbuf + 1 = s.released + s.rbuf.size := by
  have hat := h.writerAt
  rw [WriterAt, hw] at hat
  change s.published = stored.length at hat
  have hroom := h.wroom
  have hcr := h.wcredit
  have hgot := h.rroom
  have hrc := h.rcredit
  have hrel := h.released_le
  have hdist := mod_distance (n := s.rbuf.size) (r := s.released) (w := s.published) h.size_pos
    (by omega) (by omega)
  rw [← h.pwrite, ← h.pread] at hdist
  have hwlt := h.pwrite_lt
  have hrlt := h.pread_lt
  unfold dvbRingbufferFree
  dsimp only
  split_ifs at hdist ⊢ <;> omega

/-- What is available, as the reader sees it. -/
theorem Inv.avail_eq {s : Ring α} {stored : List α} (h : Inv s stored) :
    (s.released : ℤ) + dvbRingbufferAvail s.rbuf = s.published := by
  have hroom := h.wroom
  have hcr := h.wcredit
  have hgot := h.rroom
  have hrc := h.rcredit
  have hrel := h.released_le
  have hpub := h.published_le
  have hdist := mod_distance (n := s.rbuf.size) (r := s.released) (w := s.published) h.size_pos
    (by omega) (by omega)
  rw [← h.pwrite, ← h.pread] at hdist
  have hwlt := h.pwrite_lt
  have hrlt := h.pread_lt
  unfold dvbRingbufferAvail
  dsimp only
  split_ifs at hdist ⊢ <;> omega

/-! ## The steps of the writer -/

/-- The pointer of a transfer stands where the positions say. -/
theorem InPlace.store {size p done k pos len : ℕ} {goesOn : Bool} (hp : p = done % size)
    (h : InPlace size p done k pos len goesOn) (hlen : len = 0) :
    (if goesOn then 0 else (p + k) % size) = (done + k) % size := by
  have hle := h.le_size
  have hmod : (done + k) % size = (p + k) % size := by rw [hp, Nat.mod_add_mod]
  rw [hmod]
  split_ifs with hgo
  · have heq := h.eq_size hgo
    rw [show p + k = size by omega, Nat.mod_self]
  · rfl

theorem Inv.got_length_le {s : Ring α} {stored : List α} (h : Inv s stored) :
    s.got.length ≤ s.published := by
  have hroom := h.rroom
  have hcr := h.rcredit
  omega

/-- The cell that the writer stores to next. -/
theorem InPlace.cell {size p done k pos len : ℕ} {goesOn : Bool} (hp : p = done % size)
    (h : InPlace size p done k pos len goesOn) (hlen : 0 < len) : pos % size = p + k := by
  have hle := h.le_size
  subst hp
  rw [← h.pos_eq, add_mod_of_le (by omega)]

/-- A step of the writer keeps the invariant.  It copies at most one byte. -/
theorem inv_writerStep {s s' : Ring α} {stored : List α} (h : Inv s stored)
    (hs : writerStep s = some s') : ∃ new, Inv s' (stored ++ new) := by
  have hat := h.writerAt
  have hacc := h.accepted
  have hroom := h.wroom
  have hcr := h.wcredit
  have hrel := h.released_le
  have hgot := h.got_length_le
  unfold writerStep at hs
  unfold WriterAt at hat
  rcases hw : s.writer with _ | ⟨todo, k, rest⟩
  · rw [hw] at hs
    cases hs
  · rw [hw] at hs hat
    rw [Ring.left, hw] at hacc hroom
    dsimp only at hat hacc hroom
    rw [List.length_append] at hroom
    have hpos := hat.pos_eq
    rcases todo with _ | ⟨b, todo⟩
    · have hstore := hat.store h.pwrite rfl
      have hrroom := h.rroom
      refine ⟨[], ?_⟩
      rw [List.append_nil]
      rcases rest with _ | rest
      · -- the last store of the pointer
        cases hs
        refine { h with
          accepted := hacc, pwrite := hstore, writerAt := hpos, published_le := Nat.le_of_eq hpos
          wroom := hroom, rroom := ?_ }
        show (s.got.length : ℤ) + s.wanted + s.rcredit ≤ (s.published + k : ℕ)
        omega
      · -- the pointer goes back to zero
        cases hs
        rw [Option.getD_some, List.length_nil] at hroom
        refine { h with
          accepted := by rw [hacc]; exact congrArg _ (List.append_nil rest).symm
          pwrite := hstore, published_le := Nat.le_of_eq hpos
          writerAt := ⟨hpos, ?_, fun h => nomatch h⟩
          wroom := ?_, rroom := ?_ }
        · show 0 + 0 + rest.length ≤ s.rbuf.size
          omega
        · show (stored.length : ℤ) + (rest ++ []).length + s.wcredit + 1 ≤ s.released + s.rbuf.size
          rw [List.append_nil]
          omega
        · show (s.got.length : ℤ) + s.wanted + s.rcredit ≤ (s.published + k : ℕ)
          omega
    · -- one byte
      have hpub := h.published_le
      have hle := hat.le_size
      have hcell := hat.cell h.pwrite (Nat.succ_pos _)
      rw [List.length_cons] at hroom hle
      cases hs
      refine ⟨[b], { h with
        accepted := by rw [hacc, List.append_assoc]; rfl
        published_le := ?_, got := ?_, window := ?_
        writerAt := ⟨?_, ?_, fun hgo => ?_⟩
        wroom := ?_ }⟩
      · rw [List.length_append]
        exact Nat.le_trans hpub (Nat.le_add_right _ _)
      · rw [List.take_append_of_le_length (Nat.le_trans hgot hpub)]
        exact h.got
      · show Window (update s.rbuf.data (s.rbuf.pwrite + k) b) s.rbuf.size s.released (stored ++ [b])
        rw [← hcell]
        exact h.window.push (by omega) b
      · rw [List.length_append, List.length_singleton, ← hpos, Nat.add_assoc]
      · show s.rbuf.pwrite + (k + 1) + todo.length ≤ s.rbuf.size
        omega
      · have heq := hat.eq_size hgo
        rw [List.length_cons] at heq
        show s.rbuf.pwrite + (k + 1) + todo.length = s.rbuf.size
        omega
      · show ((stored ++ [b]).length : ℤ) + (todo ++ rest.getD []).length + s.wcredit + 1 ≤
          s.released + s.rbuf.size
        rw [List.length_append, List.length_append, List.length_singleton]
        omega

/-! ## The steps of the reader -/

/-- The byte that the reader copies next is the one whose turn it is. -/
theorem Inv.next_byte {s : Ring α} {stored : List α} (h : Inv s stored) {todo k : ℕ}
    {rest : Option ℕ} (hr : s.reader = some ⟨todo + 1, k, rest⟩) :
    ∃ hlt : s.got.length < stored.length,
      s.rbuf.data (s.rbuf.pread + k) = stored[s.got.length] ∧ s.got.length < s.published := by
  have hat := h.readerAt
  rw [ReaderAt, hr] at hat
  dsimp only at hat
  have hroom := h.rroom
  rw [Ring.wanted, hr] at hroom
  dsimp only at hroom
  have hcr := h.rcredit
  have hpub := h.published_le
  have hlt : s.got.length < stored.length := by omega
  refine ⟨hlt, ?_, by omega⟩
  rw [← hat.cell h.pread (Nat.succ_pos _)]
  exact h.window.get hlt h.released_le

/-- A step of the reader keeps the invariant. -/
theorem inv_readerStep {s s' : Ring α} {stored : List α} (h : Inv s stored)
    (hs : readerStep s = some s') : Inv s' stored := by
  have hat := h.readerAt
  have hroom := h.rroom
  have hwroom := h.wroom
  unfold readerStep at hs
  unfold ReaderAt at hat
  rcases hr : s.reader with _ | ⟨todo, k, rest⟩
  · rw [hr] at hs
    cases hs
  · rw [hr] at hs hat
    rw [Ring.wanted, hr] at hroom
    dsimp only at hat hroom
    have hpos := hat.pos_eq
    rcases todo with _ | todo
    · have hstore := hat.store h.pread rfl
      rcases rest with _ | rest
      · cases hs
        refine { h with
          pread := hstore, readerAt := hpos, released_le := Nat.le_of_eq hpos, rroom := hroom
          window := h.window.mono (Nat.le_add_right _ _), wroom := ?_ }
        show (stored.length : ℤ) + s.left.length + s.wcredit + 1 ≤
          (s.released + k : ℕ) + s.rbuf.size
        omega
      · cases hs
        rw [Option.getD_some] at hroom
        have hpub := h.published_le
        have hcr := h.wcredit
        have hrcr := h.rcredit
        have hrel := h.released_le
        refine { h with
          pread := hstore, released_le := Nat.le_of_eq hpos
          readerAt := ⟨hpos, ?_, fun h => nomatch h⟩
          window := h.window.mono (Nat.le_add_right _ _), rroom := ?_, wroom := ?_ }
        · show 0 + 0 + rest ≤ s.rbuf.size
          omega
        · show (stored.length : ℤ) + s.left.length + s.wcredit + 1 ≤
            (s.released + k : ℕ) + s.rbuf.size
          omega
        · show (s.got.length : ℤ) + (rest + 0 : ℕ) + s.rcredit ≤ s.published
          omega
    · obtain ⟨hlt, hbyte, -⟩ := h.next_byte hr
      have hle := hat.le_size
      have hrel := h.released_le
      cases hs
      refine { h with
        released_le := ?_, got := ?_, readerAt := ⟨?_, ?_, fun hgo => ?_⟩, rroom := ?_ }
      · rw [List.length_append]
        exact Nat.le_trans hrel (Nat.le_add_right _ _)
      · show s.got ++ [s.rbuf.data (s.rbuf.pread + k)] =
          stored.take (s.got ++ [s.rbuf.data (s.rbuf.pread + k)]).length
        rw [List.length_append, List.length_singleton, List.take_add_one,
          List.getElem?_eq_getElem hlt, hbyte, ← h.got]
        rfl
      · rw [List.length_append, List.length_singleton, ← hpos, Nat.add_assoc]
      · show s.rbuf.pread + (k + 1) + todo ≤ s.rbuf.size
        omega
      · have heq := hat.eq_size hgo
        show s.rbuf.pread + (k + 1) + todo = s.rbuf.size
        omega
      · show ((s.got ++ [_]).length : ℤ) + (todo + rest.getD 0 : ℕ) + s.rcredit ≤ s.published
        rw [List.length_append, List.length_singleton]
        omega

/-! ## The calls -/

/-- A transfer that begins is in place. -/
theorem inPlace_start {size p done pos : ℕ} (hpos : done = pos) (hp : p < size) (len : ℕ) :
    if split p len size > 0 then
      InPlace size p done 0 pos (split p len size) true ∧ split p len size ≤ len
    else InPlace size p done 0 pos len false := by
  unfold split
  split_ifs with h h'
  · exact ⟨⟨hpos, by omega, fun _ => by omega⟩, by omega⟩
  · omega
  · omega
  · exact ⟨hpos, by omega, fun h => nomatch h⟩

theorem inv_write {s s' : Ring α} {stored buf : List α} (h : Inv s stored)
    (hs : ringStep s (.write buf) = some s') : Inv s' stored := by
  rw [ringStep] at hs
  obtain ⟨⟨hidle, hle⟩, hs⟩ := (Option.ite_none_right_eq_some).mp hs
  rw [Option.isNone_iff_eq_none] at hidle
  have hat := h.writerAt
  have hacc := h.accepted
  have hroom := h.wroom
  rw [WriterAt, hidle] at hat
  rw [Ring.left, hidle] at hacc hroom
  dsimp only at hat hacc hroom
  rw [List.append_nil] at hacc
  rw [List.length_nil] at hroom
  have hrel := h.released_le
  have hgot := h.got_length_le
  have hpub := h.published_le
  have hstart := inPlace_start hat h.pwrite_lt buf.length
  dsimp only at hs
  by_cases hsplit : split s.rbuf.pwrite buf.length s.rbuf.size > 0
  · rw [if_pos hsplit] at hs hstart
    cases hs
    refine { h with
      accepted := ?_, writerAt := ?_, wcredit := Int.sub_nonneg_of_le hle, wroom := ?_ }
    · show s.accepted ++ buf = stored ++ (buf.take _ ++ buf.drop _)
      rw [hacc, List.take_append_drop]
    · show InPlace s.rbuf.size s.rbuf.pwrite s.published 0 stored.length (buf.take _).length true
      rw [List.length_take, Nat.min_eq_left hstart.2]
      exact hstart.1
    · show (stored.length : ℤ) + (buf.take _ ++ buf.drop _).length + (s.wcredit - buf.length) + 1 ≤
        s.released + s.rbuf.size
      rw [List.take_append_drop]
      omega
  · rw [if_neg hsplit] at hs hstart
    cases hs
    refine { h with
      accepted := ?_, writerAt := hstart, wcredit := Int.sub_nonneg_of_le hle, wroom := ?_ }
    · show s.accepted ++ buf = stored ++ (buf ++ [])
      rw [hacc, List.append_nil]
    · show (stored.length : ℤ) + (buf ++ []).length + (s.wcredit - buf.length) + 1 ≤
        s.released + s.rbuf.size
      rw [List.append_nil]
      omega

theorem inv_read {s s' : Ring α} {stored : List α} {len : ℕ} (h : Inv s stored)
    (hs : ringStep s (.read len) = some s') : Inv s' stored := by
  rw [ringStep] at hs
  obtain ⟨⟨hidle, hle⟩, hs⟩ := (Option.ite_none_right_eq_some).mp hs
  rw [Option.isNone_iff_eq_none] at hidle
  have hat := h.readerAt
  have hroom := h.rroom
  rw [ReaderAt, hidle] at hat
  rw [Ring.wanted, hidle] at hroom
  dsimp only at hat hroom
  have hwroom := h.wroom
  have hwcr := h.wcredit
  have hpub := h.published_le
  have hstart := inPlace_start hat h.pread_lt len
  dsimp only at hs
  by_cases hsplit : split s.rbuf.pread len s.rbuf.size > 0
  · rw [if_pos hsplit] at hs hstart
    cases hs
    refine { h with readerAt := hstart.1, rcredit := Int.sub_nonneg_of_le hle, rroom := ?_ }
    have hsum := hstart.2
    show (s.got.length : ℤ) + (split _ _ _ + (len - split _ _ _) : ℕ) + (s.rcredit - len) ≤
      s.published
    omega
  · rw [if_neg hsplit] at hs hstart
    cases hs
    refine { h with readerAt := hstart, rcredit := Int.sub_nonneg_of_le hle, rroom := ?_ }
    show (s.got.length : ℤ) + (len + 0 : ℕ) + (s.rcredit - len) ≤ s.published
    omega

/-- **One step**, of whichever side, keeps the invariant. -/
theorem inv_step {s s' : Ring α} {stored : List α} {e : RingEvent α} (h : Inv s stored)
    (hs : ringStep s e = some s') : ∃ new, Inv s' (stored ++ new) := by
  have hsame : Inv s' stored → ∃ new, Inv s' (stored ++ new) :=
    fun h => ⟨[], by rwa [List.append_nil]⟩
  cases e with
  | pollFree =>
    rw [ringStep] at hs
    obtain ⟨hidle, hs⟩ := (Option.ite_none_right_eq_some).mp hs
    rw [Option.isNone_iff_eq_none] at hidle
    have hfree := h.free_eq hidle
    have hgot := h.got_length_le
    have hpub := h.published_le
    have hrel := h.released_le
    have hroom := h.wroom
    have hcr := h.wcredit
    cases hs
    refine hsame { h with wcredit := ?_, wroom := ?_ }
    · show 0 ≤ dvbRingbufferFree s.rbuf
      omega
    · show (stored.length : ℤ) + s.left.length + dvbRingbufferFree s.rbuf + 1 ≤
        s.released + s.rbuf.size
      rw [Ring.left, hidle, List.length_nil]
      omega
  | write buf => exact hsame (inv_write h hs)
  | writerStep => exact inv_writerStep h hs
  | pollAvail =>
    rw [ringStep] at hs
    obtain ⟨hidle, hs⟩ := (Option.ite_none_right_eq_some).mp hs
    rw [Option.isNone_iff_eq_none] at hidle
    have havail := h.avail_eq
    have hgot := h.got_length_le
    have hat := h.readerAt
    rw [ReaderAt, hidle] at hat
    dsimp only at hat
    cases hs
    refine hsame { h with rcredit := ?_, rroom := ?_ }
    · show 0 ≤ dvbRingbufferAvail s.rbuf
      omega
    · show (s.got.length : ℤ) + s.wanted + dvbRingbufferAvail s.rbuf ≤ s.published
      rw [Ring.wanted, hidle]
      dsimp only
      omega
  | read len => exact hsame (inv_read h hs)
  | readerStep => exact hsame (inv_readerStep h hs)

/-! ## The queue -/

/-- What the writer has put into the queue are the bytes that its pointer has passed, and what the
reader has taken out are the bytes that it has copied. -/
def Ring.fifo (s : Ring α) : Fifo α where
  ins := s.accepted.take s.published
  queue := (s.accepted.take s.published).drop s.got.length
  outs := s.got

/-- The number of bytes in the ring that the reader has not released. -/
def Ring.held (s : Ring α) : ℕ := s.accepted.length - s.left.length - s.released

theorem Inv.take_accepted {s : Ring α} {stored : List α} (h : Inv s stored) {n : ℕ}
    (hn : n ≤ stored.length) : s.accepted.take n = stored.take n := by
  rw [h.accepted, List.take_append_of_le_length hn]

/-- Storing the pointer of the writer puts bytes into the queue. -/
theorem fifo_publish {s s' : Ring α} {stored : List α} {k : ℕ} (h : Inv s stored)
    (hacc : s'.accepted = s.accepted) (hgot : s'.got = s.got)
    (hpub : s'.published = s.published + k) : Fifo.Step s.fifo s'.fifo := by
  have htake : s.accepted.take (s.published + k) =
      s.accepted.take s.published ++ (s.accepted.drop s.published).take k := List.take_add
  have hle : s.got.length ≤ (s.accepted.take s.published).length := by
    have hroom := h.got_length_le
    have hlen := h.published_le
    rw [h.take_accepted hlen, List.length_take]
    omega
  rw [Ring.fifo, Ring.fifo, hacc, hgot, hpub, htake, List.drop_append_of_le_length hle]
  exact Fifo.Step.push _ _ _ _

/-- Copying a byte takes it out of the queue. -/
theorem fifo_take {s s' : Ring α} {stored : List α} {todo k : ℕ} {rest : Option ℕ}
    (h : Inv s stored) (hr : s.reader = some ⟨todo + 1, k, rest⟩) (hacc : s'.accepted = s.accepted)
    (hpub : s'.published = s.published)
    (hgot : s'.got = s.got ++ [s.rbuf.data (s.rbuf.pread + k)]) : Fifo.Step s.fifo s'.fifo := by
  obtain ⟨hlt, hbyte, hvis⟩ := h.next_byte hr
  have hlen : s.got.length < (stored.take s.published).length := by
    have hpl := h.published_le
    rw [List.length_take]
    omega
  have hqueue : (stored.take s.published).drop s.got.length =
      stored[s.got.length] :: (stored.take s.published).drop (s.got.length + 1) := by
    rw [List.drop_eq_getElem_cons hlen, List.getElem_take]
  rw [Ring.fifo, Ring.fifo, hacc, hgot, hpub, h.take_accepted h.published_le, hbyte, hqueue,
    List.length_append, List.length_singleton]
  exact Fifo.Step.pop _ _ _ _

/-- **Every step is one of a queue**, or none. -/
theorem fifo_step {s s' : Ring α} {stored : List α} {e : RingEvent α} (h : Inv s stored)
    (hs : ringStep s e = some s') : s'.fifo = s.fifo ∨ Fifo.Step s.fifo s'.fifo := by
  cases e with
  | pollFree | pollAvail | read =>
    rw [ringStep] at hs
    obtain ⟨-, hs⟩ := (Option.ite_none_right_eq_some).mp hs
    cases hs
    exact Or.inl rfl
  | write buf =>
    rw [ringStep] at hs
    obtain ⟨-, hs⟩ := (Option.ite_none_right_eq_some).mp hs
    cases hs
    -- new bytes are accepted behind those that the pointer has passed
    have hle : s.published ≤ s.accepted.length := by
      have hpub := h.published_le
      rw [h.accepted, List.length_append]
      omega
    left
    simp only [Ring.fifo, List.take_append_of_le_length hle]
  | writerStep =>
    rw [ringStep] at hs
    unfold writerStep at hs
    rcases hw : s.writer with _ | ⟨_ | ⟨b, todo⟩, k, _ | rest⟩ <;> rw [hw] at hs <;> cases hs
    · exact Or.inr (fifo_publish h rfl rfl rfl)
    · exact Or.inr (fifo_publish h rfl rfl rfl)
    · exact Or.inl rfl
    · exact Or.inl rfl
  | readerStep =>
    rw [ringStep] at hs
    unfold readerStep at hs
    rcases hr : s.reader with _ | ⟨_ | todo, k, _ | rest⟩ <;> rw [hr] at hs <;> cases hs
    · exact Or.inl rfl
    · exact Or.inl rfl
    · exact Or.inr (fifo_take h hr rfl rfl rfl)
    · exact Or.inr (fifo_take h hr rfl rfl rfl)

/-- A step stores at most to the cell behind the bytes that are in the ring. -/
theorem data_step {s s' : Ring α} {stored : List α} {e : RingEvent α} (h : Inv s stored)
    (hs : ringStep s e = some s') : s'.rbuf.size = s.rbuf.size ∧
      (s'.rbuf.data = s.rbuf.data ∨ stored.length < s.released + s.rbuf.size ∧
        ∃ b, s'.rbuf.data = update s.rbuf.data (stored.length % s.rbuf.size) b) := by
  cases e with
  | pollFree | pollAvail | read | write =>
    rw [ringStep] at hs
    obtain ⟨-, hs⟩ := (Option.ite_none_right_eq_some).mp hs
    cases hs
    exact ⟨rfl, Or.inl rfl⟩
  | readerStep =>
    rw [ringStep] at hs
    unfold readerStep at hs
    rcases hr : s.reader with _ | ⟨_ | todo, k, _ | rest⟩ <;> rw [hr] at hs <;> cases hs
    all_goals exact ⟨rfl, Or.inl rfl⟩
  | writerStep =>
    have hat := h.writerAt
    have hroom := h.wroom
    have hcr := h.wcredit
    rw [ringStep] at hs
    unfold writerStep at hs
    rcases hw : s.writer with _ | ⟨_ | ⟨b, todo⟩, k, rest⟩
    · rw [hw] at hs
      cases hs
    · rw [hw] at hs
      cases rest <;> cases hs <;> exact ⟨rfl, Or.inl rfl⟩
    · rw [WriterAt, hw] at hat
      rw [Ring.left, hw] at hroom
      dsimp only at hat hroom
      rw [List.length_append, List.length_cons] at hroom
      rw [hw] at hs
      cases hs
      refine ⟨rfl, Or.inr ⟨by omega, b, ?_⟩⟩
      rw [hat.cell h.pwrite (Nat.succ_pos _)]

/-- **No byte that the reader can still see is overwritten.** -/
theorem unread_step {s s' : Ring α} {stored : List α} {e : RingEvent α} (h : Inv s stored)
    (hs : ringStep s e = some s') (i : ℕ) (hi : (i : ℤ) < dvbRingbufferAvail s.rbuf) :
    s'.rbuf.data ((s.rbuf.pread + i) % s.rbuf.size) =
      s.rbuf.data ((s.rbuf.pread + i) % s.rbuf.size) := by
  obtain ⟨-, hdata | ⟨hroom, b, hdata⟩⟩ := data_step h hs
  · rw [hdata]
  · have havail := h.avail_eq
    have hpub := h.published_le
    rw [hdata, h.pread, Nat.mod_add_mod, update_of_ne]
    exact cell_ne (by omega) (by omega)

/-! ## Whole runs -/

theorem inv_run {s s' : Ring α} {stored : List α} {es : List (RingEvent α)} (h : Inv s stored)
    (hrun : ringRun s es = some s') : s'.rbuf.size = s.rbuf.size ∧ (∃ stored', Inv s' stored') ∧
      ReflTransGen Fifo.Step s.fifo s'.fifo := by
  induction es generalizing s stored with
  | nil =>
    cases hrun
    exact ⟨rfl, ⟨stored, h⟩, .refl⟩
  | cons e es ih =>
    obtain ⟨s₁, hstep, hrun⟩ := Option.bind_eq_some_iff.mp hrun
    obtain ⟨new, h₁⟩ := inv_step h hstep
    obtain ⟨hsize, hinv, hfifo⟩ := ih h₁ hrun
    refine ⟨hsize.trans (data_step h hstep).1, hinv, ?_⟩
    rcases fifo_step h hstep with heq | hpush
    · rwa [heq] at hfifo
    · exact .head hpush hfifo

/-- **The ring buffer is a queue**, for any size and any order of the steps of its writer and its
reader.  The bytes that have been read are the first bytes of what has been written, and between two
calls of the writer the rest of these is in the queue; no byte that can still be read is
overwritten; and less than `size` bytes are held. -/
theorem ring_refines_fifo (data : Mem α) {size : ℕ} (hsize : 0 < size) {es : List (RingEvent α)}
    {s : Ring α} (hrun : ringRun (Ring.init data size) es = some s) :
    ReflTransGen Fifo.Step ⟨[], [], []⟩ s.fifo ∧ s.fifo.ins <+: s.accepted ∧
      s.fifo.ins = s.got ++ s.fifo.queue ∧
      (s.writer = none → s.fifo.ins = s.accepted) ∧
      (s.reader = none → (s.fifo.queue.length : ℤ) = dvbRingbufferAvail s.rbuf) ∧
      (∀ e s', ringStep s e = some s' → ∀ i : ℕ, (i : ℤ) < dvbRingbufferAvail s.rbuf →
        s'.rbuf.data ((s.rbuf.pread + i) % size) = s.rbuf.data ((s.rbuf.pread + i) % size)) ∧
      s.held < size := by
  obtain ⟨heq, ⟨stored, h⟩, hfifo⟩ := inv_run (inv_init data hsize) hrun
  change s.rbuf.size = size at heq
  have hlen : (s.accepted.take s.published).length = s.published := by
    have hpub := h.published_le
    rw [h.take_accepted hpub, List.length_take]
    omega
  refine ⟨hfifo, List.take_prefix _ _, Fifo.ins_eq hfifo, fun hw => ?_, fun hr => ?_,
    fun e s' hs i hi => ?_, ?_⟩
  · have hat := h.writerAt
    have hacc := h.accepted
    rw [WriterAt, hw] at hat
    rw [Ring.left, hw, List.append_nil] at hacc
    show s.accepted.take s.published = s.accepted
    rw [hat, hacc, List.take_length]
  · have hat := h.readerAt
    have havail := h.avail_eq
    have hgot := h.got_length_le
    rw [ReaderAt, hr] at hat
    dsimp only at hat
    rw [Ring.fifo, List.length_drop, hlen]
    omega
  · rw [← heq]
    exact unread_step h hs i hi
  · have hroom := h.wroom
    have hcr := h.wcredit
    have hacc := congrArg List.length h.accepted
    rw [List.length_append] at hacc
    unfold Ring.held
    omega

/-- A ring of three cells, in which the second transfer goes round the end. -/
def plainEvents : List (RingEvent ℕ) :=
  [.pollFree, .write [7, 8], .writerStep, .writerStep, .writerStep, .pollAvail, .read 2, .readerStep,
    .readerStep, .readerStep, .pollFree, .write [9, 10], .writerStep, .writerStep, .pollAvail,
    .writerStep, .read 1, .readerStep]

theorem ring_refines_fifo_plain :
    ∃ s, ringRun (Ring.init (fun _ => 0) 3) plainEvents = some s ∧
      s.fifo.ins = s.got ++ s.fifo.queue ∧ s.held < 3 := by
  obtain ⟨s, hrun⟩ := Option.isSome_iff_exists.mp
    (show (ringRun (Ring.init (fun _ => 0) 3) plainEvents).isSome by decide)
  obtain ⟨-, -, hins, -, -, -, hheld⟩ := ring_refines_fifo (fun _ => 0) (by decide) hrun
  exact ⟨s, hrun, hins, hheld⟩

end Ringbuffer
end TbsMedia
