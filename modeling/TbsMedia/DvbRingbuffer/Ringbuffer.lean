import TbsMedia.Lib.Ring
import Mathlib.Data.Int.Notation

/-!
# The ring buffer

`dvb_ringbuffer.c`: a byte ring between one writer and one reader, which take no lock against each
other.  Each side owns one of the two pointers and only looks at the other one, so a transfer is not
one step but many: the copy of each byte, and the store of the pointer, or of zero and then of the
pointer where the transfer goes round the end of the ring.

`ringStep` does one of these steps, for the writer or the reader.  `Xfer` is how far a side has come
in its call: what is left to copy in front of the next store of its pointer, what it has copied
since the last one, and what follows behind the end of the ring.

Four fields of the state have no counterpart in the source: the bytes of all write calls so far, the
bytes that read calls have copied out, and the numbers of bytes that the two pointers have passed.
-/

namespace TbsMedia
namespace Ringbuffer

open Lib Function

variable {α : Type*}

/-! ## The pointers -/

/-- `struct dvb_ringbuffer`, as far as data passes through it. -/
structure DvbRingbuffer (α : Type*) where
  data : Mem α
  size : ℕ
  pread : ℕ
  pwrite : ℕ

/-- `dvb_ringbuffer_init`. -/
def dvbRingbufferInit (data : Mem α) (len : ℕ) : DvbRingbuffer α := ⟨data, len, 0, 0⟩

/-- `dvb_ringbuffer_free`. -/
def dvbRingbufferFree (rbuf : DvbRingbuffer α) : ℤ :=
  let free : ℤ := rbuf.pread - rbuf.pwrite
  let free := if free ≤ 0 then free + rbuf.size else free
  free - 1

/-- `dvb_ringbuffer_avail`. -/
def dvbRingbufferAvail (rbuf : DvbRingbuffer α) : ℤ :=
  let avail : ℤ := rbuf.pwrite - rbuf.pread
  if avail < 0 then avail + rbuf.size else avail

/-- The `split` of a transfer of `len` bytes from the pointer `p` on. -/
def split (p len size : ℕ) : ℕ := if p + len > size then size - p else 0

/-! ## The steps of writer and reader -/

/-- A call that is under way: `todo` is left to copy before the pointer is stored, `k` bytes have
been copied since it was stored last, and `rest` is what follows behind the end of the ring. -/
structure Xfer (β : Type*) where
  todo : β
  k : ℕ
  rest : Option β

/-- A ring buffer with its writer and its reader.  `credit` is what a side has left of the number of
free or available bytes that it has asked for last. -/
structure Ring (α : Type*) where
  rbuf : DvbRingbuffer α
  writer : Option (Xfer (List α))
  wcredit : ℤ
  reader : Option (Xfer ℕ)
  rcredit : ℤ
  accepted : List α
  got : List α
  published : ℕ
  released : ℕ

/-- The start: nothing has happened, and nobody has asked for anything. -/
def Ring.init (data : Mem α) (size : ℕ) : Ring α :=
  ⟨dvbRingbufferInit data size, none, 0, none, 0, [], [], 0, 0⟩

/-- The next step of `dvb_ringbuffer_write`. -/
def writerStep (s : Ring α) : Option (Ring α) :=
  match s.writer with
  | none => none
  | some ⟨b :: todo, k, rest⟩ =>
    some { s with
      rbuf.data := update s.rbuf.data (s.rbuf.pwrite + k) b
      writer := some ⟨todo, k + 1, rest⟩ }
  | some ⟨[], k, some rest⟩ =>
    some { s with
      rbuf.pwrite := 0, published := s.published + k, writer := some ⟨rest, 0, none⟩ }
  | some ⟨[], k, none⟩ =>
    some { s with
      rbuf.pwrite := (s.rbuf.pwrite + k) % s.rbuf.size
      published := s.published + k
      writer := none }

/-- The next step of `dvb_ringbuffer_read`. -/
def readerStep (s : Ring α) : Option (Ring α) :=
  match s.reader with
  | none => none
  | some ⟨todo + 1, k, rest⟩ =>
    some { s with
      got := s.got ++ [s.rbuf.data (s.rbuf.pread + k)], reader := some ⟨todo, k + 1, rest⟩ }
  | some ⟨0, k, some rest⟩ =>
    some { s with
      rbuf.pread := 0, released := s.released + k, reader := some ⟨rest, 0, none⟩ }
  | some ⟨0, k, none⟩ =>
    some { s with
      rbuf.pread := (s.rbuf.pread + k) % s.rbuf.size
      released := s.released + k
      reader := none }

/-- What can happen to a ring buffer. -/
inductive RingEvent (α : Type*) where
  /-- The writer asks how many bytes are free. -/
  | pollFree
  /-- The writer calls `dvb_ringbuffer_write`. -/
  | write (buf : List α)
  /-- The writer does its next step. -/
  | writerStep
  /-- The reader asks how many bytes are available. -/
  | pollAvail
  /-- The reader calls `dvb_ringbuffer_read`. -/
  | read (len : ℕ)
  /-- The reader does its next step. -/
  | readerStep

/-- One event.  A side calls only between two calls, and with no more bytes than it may. -/
def ringStep (s : Ring α) : RingEvent α → Option (Ring α)
  | .pollFree =>
    if s.writer.isNone then some { s with wcredit := dvbRingbufferFree s.rbuf } else none
  | .write buf =>
    if s.writer.isNone ∧ (buf.length : ℤ) ≤ s.wcredit then
      let split := split s.rbuf.pwrite buf.length s.rbuf.size
      some { s with
        wcredit := s.wcredit - buf.length
        accepted := s.accepted ++ buf
        writer := some
          (if split > 0 then ⟨buf.take split, 0, some (buf.drop split)⟩ else ⟨buf, 0, none⟩) }
    else none
  | .writerStep => writerStep s
  | .pollAvail =>
    if s.reader.isNone then some { s with rcredit := dvbRingbufferAvail s.rbuf } else none
  | .read len =>
    if s.reader.isNone ∧ (len : ℤ) ≤ s.rcredit then
      let split := split s.rbuf.pread len s.rbuf.size
      some { s with
        rcredit := s.rcredit - len
        reader := some (if split > 0 then ⟨split, 0, some (len - split)⟩ else ⟨len, 0, none⟩) }
    else none
  | .readerStep => readerStep s

/-- A run of writer and reader, in any order of their steps. -/
def ringRun (s : Ring α) : List (RingEvent α) → Option (Ring α)
  | [] => some s
  | e :: es => (ringStep s e).bind fun s' => ringRun s' es

end Ringbuffer
end TbsMedia
