import Mathlib
import TbsMedia.Lib.Runs
import TbsMedia.DvbRingbuffer.Bytes
import TbsMedia.Dmxdev.Dmxdev

/-!
# Reading the sections of a filter

The demux writes sections into the ring buffer of a filter, and a client reads them with calls of
whatever size.  A call reads from one section: first the rest of its header, which says how long it is,
and then from its body.  Between two calls `todo` says how far the section has been read: minus the bytes
of its header, or the bytes of its body that are left.

A call waits for data and can be overtaken by the demux and by the timer, so its steps are steps of
their own.  One write of a section, and one turn of the loop of `dvb_dmxdev_buffer_read`, is a step.

* `SecState.Inv`: where the client is in the sections that have been written.
* `secRead_framed`: what is read while no error occurs.
* `secRead_resyncs`: what is read behind an error.
-/

namespace TbsMedia
namespace SectionRead

open Lib Ringbuffer
open DemuxDev (DmxdevState)

/-! ## The filter -/

def EWOULDBLOCK : ℤ := 11
def EOVERFLOW : ℤ := 75
def ETIMEDOUT : ℤ := 110
def ERESTARTSYS : ℤ := 512

/-- `struct dmxdev_filter`, as far as its sections are read.  `error` is that of the buffer, `oneshot`
is `DMX_ONESHOT` among the flags of the filter, and `timer` is that its timer runs. -/
structure SecFilter where
  buffer : DvbRingbuffer UInt8
  error : ℤ
  todo : ℤ
  secheader : Mem UInt8
  state : DmxdevState
  oneshot : Bool
  timer : Bool

/-- What `dvb_dmxdev_filter_start` leaves, for a filter with or without a `timeout`.  A filter that is
started once more comes here again. -/
def SecFilter.started (buffer : DvbRingbuffer UInt8) (secheader : Mem UInt8) (oneshot timeout : Bool) :
    SecFilter :=
  ⟨dvbRingbufferFlush buffer, 0, 0, secheader, .DMXDEV_STATE_GO, oneshot, timeout⟩

/-- `dvb_ringbuffer_flush`, which clears the error as well. -/
def SecFilter.flush (filter : SecFilter) : SecFilter :=
  { filter with buffer := dvbRingbufferFlush filter.buffer, error := 0 }

/-- `dvb_dmxdev_buffer_write`. -/
def dvbDmxdevBufferWrite (buffer : DvbRingbuffer UInt8) (src : List UInt8) : ℤ × DvbRingbuffer UInt8 :=
  if src = [] then (0, buffer)
  else if (src.length : ℤ) > dvbRingbufferFree buffer then (-EOVERFLOW, buffer)
  else (src.length, dvbRingbufferWrite buffer src)

/-- `dvb_dmxdev_section_callback` on a filter that is not mapped. -/
def dvbDmxdevSectionCallback (filter : SecFilter) (buffer1 buffer2 : List UInt8) : SecFilter :=
  if filter.error ≠ 0 then filter
  else if filter.state ≠ .DMXDEV_STATE_GO then filter
  else
    let (ret, buffer) := dvbDmxdevBufferWrite filter.buffer buffer1
    let (ret, buffer) := if ret = buffer1.length then dvbDmxdevBufferWrite buffer buffer2 else (ret, buffer)
    { filter with
      -- `del_timer`: a filter that gets a section does not time out any more
      timer := false
      buffer := buffer
      error := if ret < 0 then ret else filter.error
      state := if filter.oneshot then .DMXDEV_STATE_DONE else filter.state }

/-- `dvb_dmxdev_filter_timeout`: no section is taken behind it. -/
def dvbDmxdevFilterTimeout (filter : SecFilter) : SecFilter :=
  { filter with error := -ETIMEDOUT, state := .DMXDEV_STATE_TIMEDOUT, timer := false }

/-! ## A call of `dvb_dmxdev_buffer_read` -/

/-- A call that is under way: `checked` is that it is in its loop, and `buf` is what it has copied. -/
structure BufRead where
  nonBlocking : Bool
  count : ℕ
  todo : ℕ
  checked : Bool
  buf : List UInt8

/-- A call for `count` bytes. -/
def BufRead.start (nonBlocking : Bool) (count : ℕ) : BufRead := ⟨nonBlocking, count, count, false, []⟩

/-- What the call returns if it ends now. -/
def BufRead.result (r : BufRead) (ret : ℤ) : ℤ := if r.count - r.todo ≠ 0 then (r.count - r.todo : ℕ) else ret

/-- The next step of `dvb_dmxdev_buffer_read`: the check in front of the loop, one turn of the loop, or
its end.  A call that has to wait has no step, unless a signal comes. -/
def dvbDmxdevBufferRead (filter : SecFilter) (r : BufRead) (signal : Bool) :
    Option (SecFilter × (BufRead ⊕ ℤ × List UInt8)) :=
  if r.checked = false then
    if filter.error ≠ 0 then some (filter.flush, .inr (filter.error, []))
    else some (filter, .inl { r with checked := true })
  else if r.todo = 0 then some (filter, .inr (r.result 0, r.buf))
  else if r.nonBlocking = true ∧ dvbRingbufferEmpty filter.buffer = true then
    some (filter, .inr (r.result (-EWOULDBLOCK), r.buf))
  else if dvbRingbufferEmpty filter.buffer = true ∧ filter.error = 0 then
    if signal then some (filter, .inr (r.result (-ERESTARTSYS), r.buf)) else none
  else if filter.error ≠ 0 then some (filter.flush, .inr (r.result filter.error, r.buf))
  else
    let avail := min (dvbRingbufferAvail filter.buffer).toNat r.todo
    let (bytes, buffer) := dvbRingbufferRead filter.buffer avail
    some ({ filter with buffer := buffer }, .inl { r with todo := r.todo - avail, buf := r.buf ++ bytes })

/-! ## A call of `dvb_dmxdev_read_sec` -/

/-- The length of the body of a section, from its header. -/
def sectionLength (b1 b2 : UInt8) : ℕ := (b1.toNat <<< 8 ||| b2.toNat) &&& 0xfff

/-- A call that is under way: `header` is that it reads the header, `count` is what the client still
wants, and `done` is what it has read of the header. -/
structure ReadSec where
  header : Bool
  count : ℕ
  done : List UInt8
  call : BufRead

/-- `dvb_dmxdev_read_sec`, up to its first call of `dvb_dmxdev_buffer_read`. -/
def readSecStart (filter : SecFilter) (nonBlocking : Bool) (count : ℕ) : ReadSec :=
  if filter.todo ≤ 0 then ⟨true, count, [], .start nonBlocking (min (3 + filter.todo).toNat count)⟩
  else ⟨false, count, [], .start nonBlocking (min count filter.todo.toNat)⟩

/-- What `dvb_dmxdev_read_sec` does with the header. -/
def readSecHeader (filter : SecFilter) (r : ReadSec) (result : ℤ) (bytes : List UInt8) :
    SecFilter × (ReadSec ⊕ ℤ × List UInt8) :=
  if result < 0 then ({ filter with todo := 0 }, .inr (result, []))
  else
    let filter := { filter with
      secheader := filter.secheader.write (-filter.todo).toNat bytes
      todo := filter.todo - result }
    let count := r.count - result.toNat
    if filter.todo > -3 then (filter, .inr (result, bytes))
    else
      let todo := sectionLength (filter.secheader 1) (filter.secheader 2)
      let filter := { filter with todo := todo }
      if count = 0 then (filter, .inr (result, bytes))
      else (filter, .inl ⟨false, count, bytes, .start r.call.nonBlocking (min count todo)⟩)

/-- What `dvb_dmxdev_read_sec` does with the body. -/
def readSecBody (filter : SecFilter) (r : ReadSec) (result : ℤ) (bytes : List UInt8) :
    SecFilter × (ReadSec ⊕ ℤ × List UInt8) :=
  if result < 0 then (filter, .inr (result, []))
  else ({ filter with todo := filter.todo - result }, .inr (result + r.done.length, r.done ++ bytes))

/-- The next step of `dvb_dmxdev_read_sec`: the filter, and either the call behind the step or what it
returns, with the bytes that the client gets. -/
def dvbDmxdevReadSec (filter : SecFilter) (r : ReadSec) (signal : Bool) :
    Option (SecFilter × (ReadSec ⊕ ℤ × List UInt8)) :=
  (dvbDmxdevBufferRead filter r.call signal).map fun
    | (filter, .inl call) => (filter, .inl { r with call := call })
    | (filter, .inr (result, bytes)) =>
      if r.header then readSecHeader filter r result bytes else readSecBody filter r result bytes

/-! ## Runs -/

/-- A filter and its client, from a start of the filter to the next one, which sets `todo` to zero and
flushes the buffer.  `written` are the sections that have been written since the start or since the last
error that the client has got, and `returned` is what its calls have returned since. -/
structure SecState where
  filter : SecFilter
  call : Option ReadSec
  written : List (List UInt8)
  returned : List (List UInt8)

/-- The start. -/
def SecState.init (filter : SecFilter) : SecState := ⟨filter, none, [], []⟩

/-- What can happen to a filter. -/
inductive SecEvent where
  /-- The demux has found a section. -/
  | section (buffer1 buffer2 : List UInt8)
  /-- The timer of the filter expires, while it runs. -/
  | timeout
  /-- The client calls `read`. -/
  | read (nonBlocking : Bool) (count : ℕ)
  /-- The call does its next step. -/
  | step (signal : Bool)

/-- The step of a call, with the books that are kept of it. -/
def SecState.stepCall (s : SecState) (call : ReadSec) (signal : Bool) : Option SecState :=
  (dvbDmxdevReadSec s.filter call signal).map fun
    | (filter, .inl call) => { s with filter := filter, call := some call }
    | (filter, .inr (ret, bytes)) =>
      if s.filter.error ≠ 0 ∧ ret = s.filter.error then ⟨filter, none, [], []⟩
      else if ret < 0 then { s with filter := filter, call := none }
      else { s with filter := filter, call := none, returned := s.returned ++ [bytes] }

/-- One event. -/
def secStep (s : SecState) : SecEvent → Option SecState
  | .section buffer1 buffer2 =>
    let filter := dvbDmxdevSectionCallback s.filter buffer1 buffer2
    some { s with
      filter := filter
      written := if s.filter.state = .DMXDEV_STATE_GO ∧ filter.error = 0 then s.written ++ [buffer1 ++ buffer2]
        else s.written }
  | .timeout => if s.filter.timer then some { s with filter := dvbDmxdevFilterTimeout s.filter } else none
  | .read nonBlocking count =>
    if s.call.isNone then some { s with call := some (readSecStart s.filter nonBlocking count) } else none
  | .step signal => s.call.bind fun call => s.stepCall call signal

/-! ## What the reads are for -/

/-- A section as long as its header says. -/
def CompleteSection (s : List UInt8) : Prop :=
  3 ≤ s.length ∧ s.length = 3 + sectionLength (s.getD 1 0) (s.getD 2 0)

instance (s : List UInt8) : Decidable (CompleteSection s) := inferInstanceAs (Decidable (_ ∧ _))

/-- The reads give the sections one after the other, each read from one section: the reads of `groups`
give whole sections, and the `last` ones the beginning of the next. -/
def Framed (sections reads : List (List UInt8)) : Prop :=
  ∃ (groups : List (List (List UInt8))) (last rest : List (List UInt8)), reads = groups.flatten ++ last ∧ sections = groups.map List.flatten ++ rest ∧
    last.flatten <+: rest.headD []

/-- Sections that are written in addition change nothing. -/
theorem Framed.append {sections reads : List (List UInt8)} (h : Framed sections reads)
    (more : List (List UInt8)) : Framed (sections ++ more) reads := by
  obtain ⟨groups, last, rest, hreads, rfl, hlast⟩ := h
  refine ⟨groups, last, rest ++ more, hreads, List.append_assoc _ _ _, ?_⟩
  cases rest with
  | nil => exact (List.prefix_nil.mp hlast).symm ▸ List.nil_prefix
  | cons s rest => exact hlast

/-- Reads that give the sections one after the other give a prefix of them. -/
theorem Framed.flatten {sections reads : List (List UInt8)} (h : Framed sections reads) :
    reads.flatten <+: sections.flatten := by
  obtain ⟨groups, last, rest, rfl, rfl, hlast⟩ := h
  have hhead : rest.headD [] <+: rest.flatten := by
    cases rest with
    | nil => exact List.prefix_rfl
    | cons s rest => exact List.prefix_append _ _
  have hgroups : groups.flatten.flatten = (groups.map List.flatten).flatten := List.flatten_flatten
  rw [List.flatten_append, List.flatten_append, hgroups]
  exact (List.prefix_append_right_inj _).mpr (hlast.trans hhead)

/-! ## The position of the reader -/

/-- The filter says that `p` bytes of the section `x` have been read. -/
structure AtPos (f : SecFilter) (x : List UInt8) (p : ℕ) : Prop where
  header : p < 3 → f.todo = -p ∧ ∀ i < p, f.secheader i = x.getD i 0
  body : 3 ≤ p → f.todo = (x.length : ℤ) - p

/-- A call of `dvb_dmxdev_buffer_read` that has begun behind `q` bytes of the sections `rest`: it has read
nothing, or all that it was called for.  Behind the sections is `junk`, a part of one that did not fit. -/
def BufAt (f : SecFilter) (r : BufRead) (rest : List (List UInt8)) (q : ℕ) (junk : List UInt8) : Prop :=
  (r.buf = [] ∧ r.todo = r.count ∧ Contains f.buffer (rest.flatten.drop q ++ junk)) ∨
  (r.checked = true ∧ r.todo = 0 ∧ r.buf.length = r.count ∧ r.buf = ((rest.headD []).drop q).take r.count ∧
    Contains f.buffer (rest.flatten.drop (q + r.count) ++ junk))

/-- A call that reads the header of a section of which `p` bytes have been read. -/
structure HeaderAt (f : SecFilter) (c : ReadSec) (rest : List (List UInt8)) (p : ℕ) (junk : List UInt8) :
    Prop where
  header : c.header = true
  done : c.done = []
  lt : p < 3
  pos : AtPos f (rest.headD []) p
  count : c.call.count = min (3 - p) c.count
  buf : BufAt f c.call rest p junk

/-- A call that reads the body of a section of which `p` bytes had been read in front of the call. -/
structure BodyAt (f : SecFilter) (c : ReadSec) (rest : List (List UInt8)) (p : ℕ) (junk : List UInt8) :
    Prop where
  header : c.header = false
  le : 3 ≤ p + c.done.length
  le_length : p + c.done.length ≤ (rest.headD []).length
  done : c.done = ((rest.headD []).drop p).take c.done.length
  pos : AtPos f (rest.headD []) (p + c.done.length)
  count : c.call.count = min c.count ((rest.headD []).length - (p + c.done.length))
  buf : BufAt f c.call rest (p + c.done.length) junk

/-- Where the client is. -/
def CallAt (f : SecFilter) (rest : List (List UInt8)) (p : ℕ) (junk : List UInt8) : Option ReadSec → Prop
  | none => AtPos f (rest.headD []) p ∧ Contains f.buffer (rest.flatten.drop p ++ junk)
  | some c => HeaderAt f c rest p junk ∨ BodyAt f c rest p junk

/-- The reads so far are those of `groups` and the `last` ones, from the first of the sections `rest`. -/
structure Placed (s : SecState) (groups : List (List (List UInt8))) (last rest : List (List UInt8))
    (junk : List UInt8) : Prop where
  returned : s.returned = groups.flatten ++ last
  written : s.written = groups.map List.flatten ++ rest
  complete : ∀ x ∈ rest, CompleteSection x
  begun : last.flatten = (rest.headD []).take last.flatten.length
  opened : last.flatten.length = 0 ∨ last.flatten.length < (rest.headD []).length
  clean : s.filter.error = 0 → junk = []
  error : s.filter.error = 0 ∨ s.filter.error = -EOVERFLOW ∨ s.filter.error = -ETIMEDOUT
  call : CallAt s.filter rest last.flatten.length junk s.call

/-- The reads so far are in their places. -/
def SecState.Inv (s : SecState) : Prop := ∃ groups last rest junk, Placed s groups last rest junk

theorem Placed.framed {s : SecState} {groups : List (List (List UInt8))} {last rest : List (List UInt8)}
    {junk : List UInt8} (h : Placed s groups last rest junk) : Framed s.written s.returned :=
  ⟨groups, last, rest, h.returned, h.written, h.begun ▸ List.take_prefix _ _⟩

/-- The beginning of what is left of the sections. -/
theorem drop_flatten {rest : List (List UInt8)} {q : ℕ} (hq : q ≤ (rest.headD []).length) :
    rest.flatten.drop q = (rest.headD []).drop q ++ rest.tail.flatten := by
  cases rest with
  | nil =>
    show List.drop q [] = List.drop q [] ++ []
    rw [List.append_nil]
  | cons x rest => exact List.drop_append_of_le_length hq

theorem length_head_of_complete {rest : List (List UInt8)} (h : ∀ x ∈ rest, CompleteSection x)
    (hne : rest ≠ []) : CompleteSection (rest.headD []) := by
  cases rest with
  | nil => exact absurd rfl hne
  | cons x rest => exact h x List.mem_cons_self

/-! ## The steps of `dvb_dmxdev_buffer_read` -/

/-- What a step of a call can do. -/
inductive BufStep (f : SecFilter) (r : BufRead) (rest : List (List UInt8)) (q : ℕ) (junk : List UInt8) :
    SecFilter → BufRead ⊕ ℤ × List UInt8 → Prop where
  /-- The call goes on. -/
  | goOn (buffer : DvbRingbuffer UInt8) (r' : BufRead) (hcount : r'.count = r.count)
      (hblock : r'.nonBlocking = r.nonBlocking) (hbuf : BufAt { f with buffer := buffer } r' rest q junk) :
      BufStep f r rest q junk { f with buffer := buffer } (.inl r')
  /-- The call ends with all that it was called for. -/
  | done (bytes : List UInt8) (hlen : bytes.length = r.count)
      (hbytes : bytes = ((rest.headD []).drop q).take r.count)
      (hring : Contains f.buffer (rest.flatten.drop (q + r.count) ++ junk)) :
      BufStep f r rest q junk f (.inr (r.count, bytes))
  /-- There is nothing to read. -/
  | nothing (ret : ℤ) (hret : ret = -EWOULDBLOCK ∨ ret = -ERESTARTSYS ∧ f.error = 0) (hcount : 0 < r.count)
      (hnone : rest.flatten.drop q = []) (hring : Contains f.buffer (rest.flatten.drop q ++ junk)) :
      BufStep f r rest q junk f (.inr (ret, []))
  /-- The buffer has an error. -/
  | error (herror : f.error ≠ 0) (hmeets : r.checked = false ∨ r.todo ≠ 0)
      (hring : Contains f.buffer (rest.flatten.drop q ++ junk)) :
      BufStep f r rest q junk f.flush (.inr (f.error, []))

theorem bufferRead_step {f f' : SecFilter} {r : BufRead} {rest : List (List UInt8)} {q : ℕ}
    {junk : List UInt8} {signal : Bool} {res : BufRead ⊕ ℤ × List UInt8} (h : BufAt f r rest q junk)
    (hjunk : f.error = 0 → junk = []) (hq : q ≤ (rest.headD []).length)
    (hcount : rest.flatten.drop q ≠ [] → q + r.count ≤ (rest.headD []).length)
    (hstep : dvbDmxdevBufferRead f r signal = some (f', res)) : BufStep f r rest q junk f' res := by
  unfold dvbDmxdevBufferRead at hstep
  by_cases hchecked : r.checked = false
  · -- in front of the loop
    rw [if_pos hchecked] at hstep
    rcases h with ⟨hbuf, htodo, hring⟩ | ⟨hchecked', -⟩
    · by_cases herror : f.error ≠ 0
      · rw [if_pos herror] at hstep
        obtain ⟨rfl, rfl⟩ := Prod.mk.inj (Option.some.inj hstep)
        exact .error herror (.inl hchecked) hring
      · rw [if_neg herror] at hstep
        obtain ⟨rfl, rfl⟩ := Prod.mk.inj (Option.some.inj hstep)
        exact .goOn f.buffer _ rfl rfl (.inl ⟨hbuf, htodo, hring⟩)
    · exact absurd (hchecked.symm.trans hchecked') Bool.false_ne_true
  rw [if_neg hchecked] at hstep
  by_cases htodo0 : r.todo = 0
  · -- behind the loop
    rw [if_pos htodo0] at hstep
    obtain ⟨rfl, rfl⟩ := Prod.mk.inj (Option.some.inj hstep)
    have hresult : r.result 0 = r.count := by
      unfold BufRead.result
      rw [htodo0, Nat.sub_zero]
      by_cases hc : r.count = 0
      · rw [if_neg (not_not.mpr hc), hc]
        rfl
      · rw [if_pos hc]
    rw [hresult]
    rcases h with ⟨hbuf, htodo, hring⟩ | ⟨-, -, hlen, hbuf, hring⟩
    · have hc : r.count = 0 := htodo.symm.trans htodo0
      refine .done _ ?_ ?_ ?_
      · rw [hbuf, hc]
        rfl
      · rw [hbuf, hc, List.take_zero]
      · rw [hc]
        exact hring
    · exact .done _ hlen hbuf hring
  -- a turn of the loop
  rw [if_neg htodo0] at hstep
  rcases h with ⟨hbuf, htodo, hring⟩ | ⟨-, htodo, -⟩
  · have hresult : ∀ ret, r.result ret = ret := by
      intro ret
      unfold BufRead.result
      rw [htodo, Nat.sub_self, if_neg (not_not.mpr rfl)]
    have hempty : dvbRingbufferEmpty f.buffer = true → rest.flatten.drop q = [] := by
      rw [hring.empty, List.isEmpty_iff]
      exact fun h => (List.append_eq_nil_iff.mp h).1
    have hpos : 0 < r.count := by omega
    rw [hresult, hresult, hresult, hbuf] at hstep
    split_ifs at hstep with hnon hwait hsignal herror
    · obtain ⟨rfl, rfl⟩ := Prod.mk.inj (Option.some.inj hstep)
      exact .nothing _ (.inl rfl) hpos (hempty hnon.2) hring
    · obtain ⟨rfl, rfl⟩ := Prod.mk.inj (Option.some.inj hstep)
      exact .nothing _ (.inr ⟨rfl, hwait.2⟩) hpos (hempty hwait.1) hring
    · obtain ⟨rfl, rfl⟩ := Prod.mk.inj (Option.some.inj hstep)
      exact .error herror (.inr htodo0) hring
    · -- there are bytes
      have herror0 : f.error = 0 := not_not.mp herror
      have hne : rest.flatten.drop q ≠ [] := by
        intro hnil
        refine hwait ⟨?_, herror0⟩
        rw [hring.empty, hnil, hjunk herror0]
        rfl
      have hroom := hcount hne
      rw [hjunk herror0, List.append_nil] at hring
      have hsplit : rest.flatten.drop q =
          ((rest.headD []).drop q).take r.count ++ rest.flatten.drop (q + r.count) := by
        rw [drop_flatten hq, drop_flatten hroom, ← List.drop_drop, ← List.append_assoc, List.take_append_drop]
      have hlen : (((rest.headD []).drop q).take r.count).length = r.count := by
        rw [List.length_take, List.length_drop]
        omega
      have havail : min (dvbRingbufferAvail f.buffer).toNat r.todo = r.count := by
        rw [hring.avail, Int.toNat_natCast, htodo, hsplit, List.length_append, hlen]
        omega
      rw [hsplit] at hring
      obtain ⟨buffer, hread, hcontains, -⟩ := hring.read
      rw [hlen] at hread
      rw [havail] at hstep
      dsimp only at hstep
      rw [hread, List.nil_append] at hstep
      obtain ⟨rfl, rfl⟩ := Prod.mk.inj (Option.some.inj hstep)
      refine .goOn buffer _ rfl rfl (.inr ⟨Bool.eq_true_of_not_eq_false hchecked, ?_, hlen, rfl, ?_⟩)
      · show r.todo - r.count = 0
        omega
      · rw [hjunk herror0, List.append_nil]
        exact hcontains
  · exact absurd htodo htodo0

/-! ## The ends of a read -/

theorem atPos_zero {f : SecFilter} (h : f.todo = 0) (x : List UInt8) : AtPos f x 0 :=
  ⟨fun _ => ⟨h, fun _ hi => absurd hi (Nat.not_lt_zero _)⟩, fun hle => absurd hle (by decide)⟩

/-- A read that returns the next `m` bytes of the section. -/
theorem Placed.advance {s : SecState} {groups : List (List (List UInt8))} {last rest : List (List UInt8)}
    {junk : List UInt8} (h : Placed s groups last rest junk) {f : SecFilter} (m : ℕ)
    (hm : last.flatten.length + m ≤ (rest.headD []).length) (herror : f.error = s.filter.error)
    (hpos : last.flatten.length + m < (rest.headD []).length →
      AtPos f (rest.headD []) (last.flatten.length + m))
    (htodo : last.flatten.length + m = (rest.headD []).length → f.todo = 0)
    (hring : Contains f.buffer (rest.flatten.drop (last.flatten.length + m) ++ junk)) :
    SecState.Inv ⟨f, none, s.written, s.returned ++ [((rest.headD []).drop last.flatten.length).take m]⟩ := by
  obtain ⟨hreturned, hwritten, hcomplete, hbegun, -, hclean, herr, -⟩ := h
  have hnext : (last ++ [((rest.headD []).drop last.flatten.length).take m]).flatten =
      (rest.headD []).take (last.flatten.length + m) := by
    rw [List.flatten_append, List.flatten_singleton, List.take_add]
    exact congrArg (· ++ _) hbegun
  have hlen : (last ++ [((rest.headD []).drop last.flatten.length).take m]).flatten.length =
      last.flatten.length + m := by
    rw [hnext, List.length_take, Nat.min_eq_left hm]
  rcases Nat.lt_or_eq_of_le hm with hlt | heq
  · -- the section goes on
    refine ⟨groups, _, rest, junk, by rw [hreturned, List.append_assoc], hwritten, hcomplete, ?_, ?_,
      fun he => hclean (herror ▸ he), herror ▸ herr, ?_⟩
    · rw [hlen]
      exact hnext
    · rw [hlen]
      exact .inr hlt
    · rw [hlen]
      exact ⟨hpos hlt, hring⟩
  cases rest with
  | nil =>
    -- nothing has been written
    have hzero : last.flatten.length + m = 0 := heq
    refine ⟨groups, _, [], junk, by rw [hreturned, List.append_assoc], hwritten, hcomplete, ?_, ?_,
      fun he => hclean (herror ▸ he), herror ▸ herr, ?_⟩
    · rw [hlen]
      exact hnext
    · rw [hlen]
      exact .inl hzero
    · rw [hlen, hzero]
      rw [hzero] at hring
      exact ⟨atPos_zero (htodo heq) _, hring⟩
  | cons x rest =>
    -- the section is complete
    have hx : (last ++ [((x :: rest).headD []).drop last.flatten.length |>.take m]).flatten = x := by
      rw [hnext, heq]
      exact List.take_length
    refine ⟨groups ++ [last ++ [(((x :: rest).headD []).drop last.flatten.length).take m]], [], rest, junk,
      ?_, ?_, fun y hy => hcomplete y (List.mem_cons_of_mem _ hy), List.take_zero.symm, .inl rfl,
      fun he => hclean (herror ▸ he), herror ▸ herr, atPos_zero (htodo heq) _, ?_⟩
    · rw [hreturned, List.flatten_append, List.flatten_singleton, List.append_nil, List.append_assoc]
    · rw [hwritten, List.map_append, List.map_singleton, hx, List.append_assoc, List.singleton_append]
    · rw [heq, List.flatten_cons] at hring
      rwa [show (x ++ rest.flatten).drop ((x :: rest).headD []).length = rest.flatten from
        List.drop_left] at hring

/-- A read that returns an error of its own: nothing has been read. -/
theorem Placed.keep {s : SecState} {groups : List (List (List UInt8))} {last rest : List (List UInt8)}
    {junk : List UInt8} (h : Placed s groups last rest junk) {f : SecFilter} {call : Option ReadSec}
    (herror : f.error = s.filter.error) (hcall : CallAt f rest last.flatten.length junk call) :
    SecState.Inv { s with filter := f, call := call } := by
  obtain ⟨hreturned, hwritten, hcomplete, hbegun, hopened, hclean, herr, -⟩ := h
  exact ⟨groups, last, rest, junk, hreturned, hwritten, hcomplete, hbegun, hopened,
    fun he => hclean (herror ▸ he), herror ▸ herr, hcall⟩

/-- Behind an error nothing is left. -/
theorem inv_flushed {f : SecFilter} {xs : List UInt8} (hring : Contains f.buffer xs) {todo : ℤ}
    (htodo : todo = 0) : SecState.Inv ⟨{ f.flush with todo := todo }, none, [], []⟩ :=
  ⟨[], [], [], [], rfl, rfl, fun _ hx => absurd hx List.not_mem_nil, rfl, .inl rfl, fun _ => rfl, .inl rfl,
    atPos_zero htodo _, hring.flush⟩

/-! ## The steps of `dvb_dmxdev_read_sec` -/

/-- The bytes of a header that has been read in two parts. -/
theorem atPos_write {f : SecFilter} {x bytes : List UInt8} {p k : ℕ} (h : AtPos f x p) (hp : p < 3)
    (hbytes : bytes = (x.drop p).take k) (hx : p + k ≤ x.length) :
    ∀ i < p + k, (f.secheader.write (-f.todo).toNat bytes) i = x.getD i 0 := by
  obtain ⟨htodo, hold⟩ := h.header hp
  intro i hi
  have hstart : (-f.todo).toNat = p := by
    rw [htodo]
    omega
  rw [hstart]
  unfold Mem.write
  by_cases hle : p ≤ i
  · rw [if_pos hle, hbytes, List.getElem?_take_of_lt (by omega), List.getElem?_drop, Nat.add_sub_cancel' hle,
      List.getElem?_eq_getElem (show i < x.length by omega), List.getD_eq_getElem _ _ (by omega)]
    rfl
  · rw [if_neg hle]
    exact hold i (by omega)

/-- Where a call that reads stands, for the steps of `dvb_dmxdev_buffer_read`. -/
theorem Placed.le_head {s : SecState} {groups : List (List (List UInt8))} {last rest : List (List UInt8)}
    {junk : List UInt8} (h : Placed s groups last rest junk) :
    last.flatten.length ≤ (rest.headD []).length := by
  rcases h.opened with hzero | hlt
  · omega
  · exact hlt.le

/-- A header is in the sections, if there is one. -/
theorem Placed.header_le {s : SecState} {groups : List (List (List UInt8))} {last rest : List (List UInt8)}
    {junk : List UInt8} (h : Placed s groups last rest junk) {c : ReadSec} {f : SecFilter}
    (hc : HeaderAt f c rest last.flatten.length junk) (hne : rest.flatten.drop last.flatten.length ≠ []) :
    last.flatten.length + c.call.count ≤ (rest.headD []).length := by
  have hrest : rest ≠ [] := by
    rintro rfl
    rw [List.flatten_nil, List.drop_nil] at hne
    exact hne rfl
  have hthree := (length_head_of_complete h.complete hrest).1
  have hlt := hc.lt
  rw [hc.count]
  omega

/-- There is a section where a header goes on. -/
theorem drop_flatten_ne_nil {rest : List (List UInt8)} {q : ℕ} (hq : q < (rest.headD []).length) :
    rest.flatten.drop q ≠ [] := by
  rw [drop_flatten hq.le]
  refine List.append_ne_nil_of_left_ne_nil ?_ _
  rw [ne_eq, List.drop_eq_nil_iff]
  omega

/-- **The header has been read**, as far as it was called for. -/
theorem Placed.headerDone {s : SecState} {groups : List (List (List UInt8))} {last rest : List (List UInt8)}
    {junk : List UInt8} (h : Placed s groups last rest junk) {c : ReadSec}
    (hc : HeaderAt s.filter c rest last.flatten.length junk) {bytes : List UInt8}
    (hlen : bytes.length = c.call.count)
    (hbytes : bytes = ((rest.headD []).drop last.flatten.length).take c.call.count)
    (hring : Contains s.filter.buffer (rest.flatten.drop (last.flatten.length + c.call.count) ++ junk)) :
    match readSecHeader s.filter c c.call.count bytes with
    | (f, .inl c') => SecState.Inv { s with filter := f, call := some c' }
    | (f, .inr (ret, b)) => 0 ≤ ret ∧ SecState.Inv ⟨f, none, s.written, s.returned ++ [b]⟩ := by
  have hle := h.le_head
  obtain ⟨htodo, hold⟩ := hc.pos.header hc.lt
  have hlt := hc.lt
  have hcount := hc.count
  have hroom : last.flatten.length + c.call.count ≤ (rest.headD []).length := by
    have hk : bytes.length ≤ (rest.headD []).length - last.flatten.length := by
      rw [hbytes, List.length_take, List.length_drop]
      exact Nat.min_le_right _ _
    omega
  have hsec := atPos_write hc.pos hc.lt hbytes hroom
  unfold readSecHeader
  rw [if_neg (not_lt.mpr (Int.natCast_nonneg _))]
  dsimp only
  rw [Int.toNat_natCast]
  by_cases hshort : s.filter.todo - (c.call.count : ℤ) > -3
  · -- the header goes on
    rw [if_pos hshort]
    dsimp only
    rw [htodo] at hshort
    have hpos : AtPos { s.filter with
        secheader := s.filter.secheader.write (-s.filter.todo).toNat bytes
        todo := s.filter.todo - (c.call.count : ℤ) } (rest.headD []) (last.flatten.length + c.call.count) := by
      refine ⟨fun _ => ⟨?_, hsec⟩, fun hthree => ?_⟩
      · show s.filter.todo - (c.call.count : ℤ) = _
        rw [htodo]
        omega
      · omega
    refine ⟨Int.natCast_nonneg _, ?_⟩
    rw [hbytes]
    refine h.advance c.call.count hroom rfl (fun _ => ?_) (fun heq => ?_) hring
    · rw [← hbytes]
      exact hpos
    · -- no section is as short as that
      show s.filter.todo - (c.call.count : ℤ) = 0
      have hrest : rest = [] := by
        by_contra hrest
        have hthree := (length_head_of_complete h.complete hrest).1
        omega
      rw [hrest] at heq
      have hzero : last.flatten.length + c.call.count = 0 := heq
      rw [htodo]
      omega
  · -- the header is complete
    rw [if_neg hshort]
    rw [htodo] at hshort
    have hthree : last.flatten.length + c.call.count = 3 := by omega
    have hrest : rest ≠ [] := by
      rintro rfl
      have hzero : last.flatten.length + c.call.count ≤ 0 := hroom
      omega
    have hx := length_head_of_complete h.complete hrest
    have hsection : sectionLength (s.filter.secheader.write (-s.filter.todo).toNat bytes 1)
        (s.filter.secheader.write (-s.filter.todo).toNat bytes 2) = (rest.headD []).length - 3 := by
      rw [hsec 1 (by omega), hsec 2 (by omega)]
      have := hx.2
      omega
    rw [hsection]
    have hge := hx.1
    have hpos : ∀ sec, AtPos { s.filter with secheader := sec, todo := ((rest.headD []).length - 3 : ℕ) }
        (rest.headD []) (last.flatten.length + c.call.count) := by
      intro sec
      refine ⟨fun hlt => absurd hlt (by omega), fun _ => ?_⟩
      show (((rest.headD []).length - 3 : ℕ) : ℤ) = _
      omega
    by_cases hend : c.count - c.call.count = 0
    · rw [if_pos hend]
      refine ⟨Int.natCast_nonneg _, ?_⟩
      have hinv := h.advance (f := { s.filter with
        secheader := s.filter.secheader.write (-s.filter.todo).toNat bytes
        todo := ((rest.headD []).length - 3 : ℕ) }) c.call.count hroom rfl (fun _ => hpos _) (fun heq => ?_) hring
      · rw [← hbytes] at hinv
        exact hinv
      · show (((rest.headD []).length - 3 : ℕ) : ℤ) = 0
        omega
    · rw [if_neg hend]
      refine h.keep rfl (.inr ⟨rfl, ?_, ?_, ?_, ?_, ?_, .inl ⟨rfl, rfl, ?_⟩⟩)
      · dsimp only
        omega
      · dsimp only
        omega
      · dsimp only
        rw [hlen]
        exact hbytes
      · dsimp only
        rw [hlen]
        exact hpos _
      · show min (c.count - c.call.count) ((rest.headD []).length - 3) = _
        dsimp only
        rw [hlen, hthree]
      · dsimp only
        rw [hlen]
        exact hring

/-- **The body has been read**, as far as it was called for. -/
theorem Placed.bodyDone {s : SecState} {groups : List (List (List UInt8))} {last rest : List (List UInt8)}
    {junk : List UInt8} (h : Placed s groups last rest junk) {c : ReadSec}
    (hc : BodyAt s.filter c rest last.flatten.length junk) {bytes : List UInt8}
    (hbytes : bytes = ((rest.headD []).drop (last.flatten.length + c.done.length)).take c.call.count)
    (hring : Contains s.filter.buffer
      (rest.flatten.drop (last.flatten.length + c.done.length + c.call.count) ++ junk)) :
    ∃ f ret b, readSecBody s.filter c c.call.count bytes = (f, .inr (ret, b)) ∧ 0 ≤ ret ∧
      SecState.Inv ⟨f, none, s.written, s.returned ++ [b]⟩ := by
  have hcount := hc.count
  have hle := hc.le_length
  have htodo := hc.pos.body hc.le
  have hread : c.done ++ bytes =
      ((rest.headD []).drop last.flatten.length).take (c.done.length + c.call.count) := by
    rw [List.take_add, List.drop_drop, ← hbytes]
    exact congrArg (· ++ _) hc.done
  unfold readSecBody
  rw [if_neg (not_lt.mpr (Int.natCast_nonneg _))]
  refine ⟨_, _, _, rfl, by omega, ?_⟩
  rw [hread]
  rw [Nat.add_assoc] at hring
  refine h.advance (c.done.length + c.call.count) (by omega) rfl (fun hlt => ⟨fun h3 => ?_, fun _ => ?_⟩)
    (fun heq => ?_) hring
  · have := hc.le
    omega
  · show s.filter.todo - (c.call.count : ℤ) = _
    rw [htodo]
    push_cast
    omega
  · show s.filter.todo - (c.call.count : ℤ) = 0
    rw [htodo]
    omega

/-- The client is about to get an error of the buffer while it reads the body of a section. -/
def SecState.MeetsErrorInBody (s : SecState) : Prop :=
  match s.call with
  | none => False
  | some c => c.header = false ∧ s.filter.error ≠ 0 ∧ (c.call.checked = false ∨ c.call.todo ≠ 0)

instance (s : SecState) : Decidable s.MeetsErrorInBody := by
  unfold SecState.MeetsErrorInBody
  split <;> infer_instance

/-- An error of the buffer is none of the other errors. -/
theorem Placed.error_ne {s : SecState} {groups : List (List (List UInt8))} {last rest : List (List UInt8)}
    {junk : List UInt8} (h : Placed s groups last rest junk) {ret : ℤ}
    (hret : 0 ≤ ret ∨ ret = -EWOULDBLOCK ∨ ret = -ERESTARTSYS ∧ s.filter.error = 0) :
    ¬(s.filter.error ≠ 0 ∧ ret = s.filter.error) := by
  rintro ⟨hne, rfl⟩
  have herr := h.error
  unfold EWOULDBLOCK ERESTARTSYS at hret
  unfold EOVERFLOW ETIMEDOUT at herr
  omega

/-- **One step of a call** that does not get an error in the body of a section. -/
theorem SecState.Inv.stepCall {s s' : SecState} (h : s.Inv) {c : ReadSec} (hcall : s.call = some c)
    (hmeets : ¬s.MeetsErrorInBody) {signal : Bool} (hstep : s.stepCall c signal = some s') : s'.Inv := by
  obtain ⟨groups, last, rest, junk, h⟩ := h
  have hat := h.call
  rw [hcall] at hat
  unfold SecState.stepCall dvbDmxdevReadSec at hstep
  obtain ⟨⟨f, out⟩, hread, hs'⟩ := Option.map_eq_some_iff.mp hstep
  obtain ⟨⟨f₁, res⟩, hbuf, hout⟩ := Option.map_eq_some_iff.mp hread
  have hle := h.le_head
  rcases hat with hc | hc
  · -- the header
    have hb := bufferRead_step hc.buf h.clean hle (fun hne => h.header_le hc hne) hbuf
    cases hb with
    | goOn buffer r' hcount hblock hbuf' =>
      obtain ⟨rfl, rfl⟩ := Prod.mk.inj hout
      subst hs'
      exact h.keep rfl (.inl ⟨hc.header, hc.done, hc.lt, ⟨hc.pos.header, hc.pos.body⟩,
        hcount.trans hc.count, hbuf'⟩)
    | done bytes hlen hbytes hring =>
      have hdone := h.headerDone hc hlen hbytes hring
      dsimp only at hout
      rw [if_pos hc.header] at hout
      rw [hout] at hdone
      rcases out with c' | ⟨ret, b⟩
      · subst hs'
        exact hdone
      · obtain ⟨hret, hinv⟩ := hdone
        dsimp only at hs'
        rw [if_neg (h.error_ne (.inl hret)), if_neg (not_lt.mpr hret)] at hs'
        exact hs' ▸ hinv
    | nothing ret hret hcount hnone hring =>
      have hneg : ret < 0 := by
        unfold EWOULDBLOCK ERESTARTSYS at hret
        omega
      dsimp only at hout
      rw [if_pos hc.header, readSecHeader, if_pos hneg] at hout
      obtain ⟨rfl, rfl⟩ := Prod.mk.inj hout
      dsimp only at hs'
      rw [if_neg (h.error_ne (.inr hret)), if_pos hneg] at hs'
      subst hs'
      have hzero : last.flatten.length = 0 := by
        rcases h.opened with hzero | hlt
        · exact hzero
        · exact absurd hnone (drop_flatten_ne_nil hlt)
      refine h.keep (f := { s.filter with todo := 0 }) rfl ⟨?_, hring⟩
      rw [hzero]
      exact atPos_zero rfl _
    | error herror _ hring =>
      have hneg : s.filter.error < 0 := by
        have herr := h.error
        unfold EOVERFLOW ETIMEDOUT at herr
        omega
      dsimp only at hout
      rw [if_pos hc.header, readSecHeader, if_pos hneg] at hout
      obtain ⟨rfl, rfl⟩ := Prod.mk.inj hout
      dsimp only at hs'
      rw [if_pos ⟨herror, rfl⟩] at hs'
      exact hs' ▸ inv_flushed hring rfl
  · -- the body
    have hfalse : ¬c.header = true := by
      rw [hc.header]
      exact Bool.false_ne_true
    have hcount := hc.count
    have hlength := hc.le_length
    have hb := bufferRead_step hc.buf h.clean hc.le_length (fun _ => by omega) hbuf
    cases hb with
    | goOn buffer r' hcount' hblock hbuf' =>
      obtain ⟨rfl, rfl⟩ := Prod.mk.inj hout
      subst hs'
      exact h.keep rfl (.inr ⟨hc.header, hc.le, hc.le_length, hc.done, ⟨hc.pos.header, hc.pos.body⟩,
        hcount'.trans hc.count, hbuf'⟩)
    | done bytes hlen hbytes hring =>
      obtain ⟨f', ret, b, hbody, hret, hinv⟩ := h.bodyDone hc hbytes hring
      dsimp only at hout
      rw [if_neg hfalse, hbody] at hout
      obtain ⟨rfl, rfl⟩ := Prod.mk.inj hout
      dsimp only at hs'
      rw [if_neg (h.error_ne (.inl hret)), if_neg (not_lt.mpr hret)] at hs'
      exact hs' ▸ hinv
    | nothing ret hret hpos hnone hring =>
      -- the section has not come to its end
      exact absurd hnone (drop_flatten_ne_nil (by omega))
    | error herror hmeet hring =>
      refine absurd ?_ hmeets
      unfold SecState.MeetsErrorInBody
      rw [hcall]
      exact ⟨hc.header, herror, hmeet⟩

/-! ## The other events -/

/-- What a call has in front of it grows behind the end. -/
theorem drop_flatten_append {rest more : List (List UInt8)} {q : ℕ} (hq : q ≤ (rest.headD []).length) :
    (rest ++ more).flatten.drop q = rest.flatten.drop q ++ more.flatten := by
  rw [List.flatten_append]
  refine List.drop_append_of_le_length (hq.trans ?_)
  cases rest with
  | nil => exact Nat.zero_le _
  | cons x rest =>
    rw [List.flatten_cons, List.length_append]
    exact Nat.le_add_right _ _

theorem headD_append {rest more : List (List UInt8)} (hne : rest ≠ []) :
    (rest ++ more).headD [] = rest.headD [] := by
  cases rest with
  | nil => exact absurd rfl hne
  | cons x rest => rfl

/-- Where the reader is does not change with the sections behind the first. -/
theorem AtPos.append {f f' : SecFilter} {rest : List (List UInt8)} {p : ℕ} (h : AtPos f (rest.headD []) p)
    (hp : p ≤ (rest.headD []).length) (htodo : f'.todo = f.todo) (hsec : f'.secheader = f.secheader)
    (more : List (List UInt8)) : AtPos f' ((rest ++ more).headD []) p := by
  by_cases hne : rest = []
  · subst hne
    obtain rfl : p = 0 := Nat.le_zero.mp hp
    exact atPos_zero (htodo.trans ((h.header (by decide)).1.trans (by decide))) _
  · rw [headD_append hne]
    refine ⟨fun hlt => ?_, fun hle => htodo.trans (h.body hle)⟩
    rw [htodo, hsec]
    exact h.header hlt

/-- Sections and junk that are written behind a call do not move it. -/
theorem BufAt.append {f f' : SecFilter} {r : BufRead} {rest more : List (List UInt8)} {q : ℕ}
    {junk : List UInt8} (h : BufAt f r rest q []) (hq : q ≤ (rest.headD []).length)
    (hring : ∀ xs, Contains f.buffer xs → Contains f'.buffer (xs ++ (more.flatten ++ junk))) :
    BufAt f' r (rest ++ more) q junk := by
  rcases h with ⟨hbuf, htodo, hcontains⟩ | ⟨hchecked, htodo, hlen, hbuf, hcontains⟩
  · refine .inl ⟨hbuf, htodo, ?_⟩
    have hgrown := hring _ hcontains
    rwa [List.append_nil, ← List.append_assoc, ← drop_flatten_append hq] at hgrown
  · have hle : q + r.count ≤ (rest.headD []).length := by
      have hk : r.buf.length ≤ (rest.headD []).length - q := by
        rw [hbuf, List.length_take, List.length_drop]
        exact Nat.min_le_right _ _
      omega
    refine .inr ⟨hchecked, htodo, hlen, ?_, ?_⟩
    · by_cases hne : rest = []
      · subst hne
        have hzero : r.count = 0 := by
          have : q + r.count ≤ 0 := hle
          omega
        rw [hzero, List.take_zero]
        exact List.length_eq_zero_iff.mp (hlen.trans hzero)
      · rw [headD_append hne]
        exact hbuf
    · have hgrown := hring _ hcontains
      rwa [List.append_nil, ← List.append_assoc, ← drop_flatten_append hle] at hgrown

theorem CallAt.append {f f' : SecFilter} {rest : List (List UInt8)} {p : ℕ} {junk : List UInt8}
    {call : Option ReadSec} (h : CallAt f rest p [] call) (more : List (List UInt8)) (hp : p ≤ (rest.headD []).length)
    (htodo : f'.todo = f.todo) (hsec : f'.secheader = f.secheader)
    (hring : ∀ xs, Contains f.buffer xs → Contains f'.buffer (xs ++ (more.flatten ++ junk))) :
    CallAt f' (rest ++ more) p junk call := by
  cases call with
  | none =>
    obtain ⟨hpos, hcontains⟩ := h
    have hgrown := hring _ hcontains
    rw [List.append_nil, ← List.append_assoc, ← drop_flatten_append hp] at hgrown
    exact ⟨hpos.append hp htodo hsec more, hgrown⟩
  | some c =>
    rcases h with hc | hc
    · exact .inl ⟨hc.header, hc.done, hc.lt, hc.pos.append hp htodo hsec more, hc.count, hc.buf.append hp hring⟩
    · have hne : rest ≠ [] := by
        rintro rfl
        have hthree := hc.le
        have hzero : p + c.done.length ≤ 0 := hc.le_length
        omega
      refine .inr ⟨hc.header, hc.le, ?_, ?_, hc.pos.append hc.le_length htodo hsec more, ?_,
        hc.buf.append hc.le_length hring⟩
      · rw [headD_append hne]
        exact hc.le_length
      · rw [headD_append hne]
        exact hc.done
      · rw [headD_append hne]
        exact hc.count

/-- A write appends all of its bytes, or there is no room for them. -/
theorem bufferWrite_cases (buffer : DvbRingbuffer UInt8) (src : List UInt8) :
    ((dvbDmxdevBufferWrite buffer src).1 = src.length ∧
      ∀ xs, Contains buffer xs → Contains (dvbDmxdevBufferWrite buffer src).2 (xs ++ src)) ∨
    (dvbDmxdevBufferWrite buffer src = (-EOVERFLOW, buffer) ∧
      (src.length : ℤ) > dvbRingbufferFree buffer) := by
  unfold dvbDmxdevBufferWrite
  by_cases hnil : src = []
  · rw [if_pos hnil, hnil]
    exact .inl ⟨rfl, fun xs h => by rwa [List.append_nil]⟩
  · rw [if_neg hnil]
    by_cases hover : (src.length : ℤ) > dvbRingbufferFree buffer
    · rw [if_pos hover]
      exact .inr ⟨rfl, hover⟩
    · rw [if_neg hover]
      refine .inl ⟨rfl, fun xs h => h.write ?_⟩
      have hfree := h.free
      have hlt := h.lt
      omega

/-- A section is dropped where the buffer has an error or the filter does not take any more. -/
theorem sectionCallback_dropped {f : SecFilter} (h : ¬(f.error = 0 ∧ f.state = .DMXDEV_STATE_GO))
    (buffer1 buffer2 : List UInt8) : dvbDmxdevSectionCallback f buffer1 buffer2 = f := by
  unfold dvbDmxdevSectionCallback
  by_cases herror : f.error ≠ 0
  · exact if_pos herror
  · rw [if_neg herror, if_pos fun hgo => h ⟨not_not.mp herror, hgo⟩]

/-- A section is written, or its buffer has an error and a part of the section. -/
theorem sectionCallback_cases {f : SecFilter} (h : f.error = 0) (hgo : f.state = .DMXDEV_STATE_GO)
    (buffer1 buffer2 : List UInt8) :
    (dvbDmxdevSectionCallback f buffer1 buffer2).todo = f.todo ∧
    (dvbDmxdevSectionCallback f buffer1 buffer2).secheader = f.secheader ∧
    ((dvbDmxdevSectionCallback f buffer1 buffer2).error = 0 ∧
      (∀ xs, Contains f.buffer xs →
        Contains (dvbDmxdevSectionCallback f buffer1 buffer2).buffer (xs ++ (buffer1 ++ buffer2))) ∨
    (dvbDmxdevSectionCallback f buffer1 buffer2).error = -EOVERFLOW ∧
      (∃ junk, ∀ xs, Contains f.buffer xs →
        Contains (dvbDmxdevSectionCallback f buffer1 buffer2).buffer (xs ++ junk)) ∧
      ∀ xs, Contains f.buffer xs → ¬((buffer1 ++ buffer2).length : ℤ) ≤ dvbRingbufferFree f.buffer) := by
  unfold dvbDmxdevSectionCallback
  rw [if_neg (not_not.mpr h), if_neg (not_not.mpr hgo)]
  rcases bufferWrite_cases f.buffer buffer1 with ⟨hret₁, hring₁⟩ | ⟨hwrite₁, hover₁⟩
  · rcases hwrite₁ : dvbDmxdevBufferWrite f.buffer buffer1 with ⟨ret₁, b₁⟩
    rw [hwrite₁] at hret₁ hring₁
    dsimp only at hret₁ hring₁ ⊢
    rw [if_pos hret₁]
    rcases bufferWrite_cases b₁ buffer2 with ⟨hret₂, hring₂⟩ | ⟨hwrite₂, hover₂⟩
    · rcases hwrite₂ : dvbDmxdevBufferWrite b₁ buffer2 with ⟨ret₂, b₂⟩
      rw [hwrite₂] at hret₂ hring₂
      dsimp only at hret₂ hring₂ ⊢
      refine ⟨rfl, rfl, .inl ⟨(if_neg (by omega)).trans h, fun xs hxs => ?_⟩⟩
      rw [← List.append_assoc]
      exact hring₂ _ (hring₁ xs hxs)
    · rw [hwrite₂]
      dsimp only
      refine ⟨rfl, rfl, .inr ⟨if_pos (by unfold EOVERFLOW; decide), ⟨buffer1, hring₁⟩, fun xs hxs => ?_⟩⟩
      have hfree := hxs.free
      have hfree₂ := (hring₁ xs hxs).free
      have hsize : b₁.size = f.buffer.size := by
        have hb : b₁ = (dvbDmxdevBufferWrite f.buffer buffer1).2 := congrArg Prod.snd hwrite₁.symm
        rw [hb]
        unfold dvbDmxdevBufferWrite
        split_ifs
        · rfl
        · rfl
        · exact (size_dvbRingbufferWrite _ _).1
      rw [hsize] at hfree₂
      rw [List.length_append] at hfree₂ ⊢
      push_cast at hfree₂ ⊢
      omega
  · rw [hwrite₁]
    dsimp only
    have hne : (-EOVERFLOW : ℤ) ≠ buffer1.length := by
      unfold EOVERFLOW
      omega
    rw [if_neg hne]
    dsimp only
    refine ⟨rfl, rfl, .inr ⟨if_pos (by unfold EOVERFLOW; decide),
      ⟨[], fun xs hxs => by rwa [List.append_nil]⟩, fun xs _ => ?_⟩⟩
    rw [List.length_append]
    push_cast
    omega

/-- A read that begins. -/
theorem callAt_start {f : SecFilter} {rest : List (List UInt8)} {p : ℕ} {junk : List UInt8}
    (h : CallAt f rest p junk none) (hp : p = 0 ∨ p < (rest.headD []).length) (nonBlocking : Bool) (count : ℕ) :
    CallAt f rest p junk (some (readSecStart f nonBlocking count)) := by
  obtain ⟨hpos, hring⟩ := h
  unfold readSecStart
  by_cases hlt : p < 3
  · have htodo := (hpos.header hlt).1
    rw [if_pos (by omega)]
    refine .inl ⟨rfl, rfl, hlt, hpos, ?_, .inl ⟨rfl, rfl, hring⟩⟩
    show min (3 + f.todo).toNat count = min (3 - p) count
    rw [htodo]
    congr 1
    omega
  · have htodo := hpos.body (by omega)
    rw [if_neg (by omega)]
    refine .inr ⟨rfl, by show 3 ≤ p + 0; omega, by show p + 0 ≤ _; omega, List.take_zero.symm, hpos, ?_,
      .inl ⟨rfl, rfl, hring⟩⟩
    show min count f.todo.toNat = min count ((rest.headD []).length - (p + 0))
    rw [htodo]
    congr 1
    omega

/-- What can come in a run: sections are complete, and no error is met in the body of one. -/
def ErrorsInHeaders (s : SecState) : SecEvent → Prop
  | .section buffer1 buffer2 => CompleteSection (buffer1 ++ buffer2)
  | .step _ => ¬s.MeetsErrorInBody
  | _ => True

instance (s : SecState) : ∀ e, Decidable (ErrorsInHeaders s e)
  | .section buffer1 buffer2 => inferInstanceAs (Decidable (CompleteSection (buffer1 ++ buffer2)))
  | .step _ => inferInstanceAs (Decidable (¬s.MeetsErrorInBody))
  | .timeout => isTrue trivial
  | .read _ _ => isTrue trivial

/-- **One event.** -/
theorem SecState.Inv.step {s s' : SecState} {e : SecEvent} (h : s.Inv) (he : ErrorsInHeaders s e)
    (hstep : secStep s e = some s') : s'.Inv := by
  cases e with
  | step signal =>
    obtain ⟨c, hcall, hstep⟩ := Option.bind_eq_some_iff.mp hstep
    exact h.stepCall hcall he hstep
  | timeout =>
    dsimp only [secStep] at hstep
    split_ifs at hstep
    obtain rfl := Option.some.inj hstep
    obtain ⟨groups, last, rest, junk, h⟩ := h
    refine ⟨groups, last, rest, junk, h.returned, h.written, h.complete, h.begun, h.opened,
      fun herr => (nomatch herr), .inr (.inr rfl), ?_⟩
    have hat := h.call
    show CallAt (dvbDmxdevFilterTimeout s.filter) rest last.flatten.length junk s.call
    rcases hcall : s.call with _ | c
    · rw [hcall] at hat
      exact ⟨⟨hat.1.header, hat.1.body⟩, hat.2⟩
    · rw [hcall] at hat
      rcases hat with hc | hc
      · exact .inl ⟨hc.header, hc.done, hc.lt, ⟨hc.pos.header, hc.pos.body⟩, hc.count, hc.buf⟩
      · exact .inr ⟨hc.header, hc.le, hc.le_length, hc.done, ⟨hc.pos.header, hc.pos.body⟩, hc.count, hc.buf⟩
  | read nonBlocking count =>
    dsimp only [secStep] at hstep
    split_ifs at hstep with hnone
    obtain rfl := Option.some.inj hstep
    obtain ⟨groups, last, rest, junk, h⟩ := h
    have hat := h.call
    rw [Option.isNone_iff_eq_none.mp hnone] at hat
    exact h.keep rfl (callAt_start hat h.opened nonBlocking count)
  | «section» buffer1 buffer2 =>
    obtain rfl := Option.some.inj hstep
    by_cases htaken : s.filter.error = 0 ∧ s.filter.state = .DMXDEV_STATE_GO
    · obtain ⟨herror, hgo⟩ := htaken
      obtain ⟨groups, last, rest, junk, h⟩ := h
      obtain ⟨htodo, hsec, hcases⟩ := sectionCallback_cases herror hgo buffer1 buffer2
      have hat := h.call
      rw [h.clean herror] at hat
      rcases hcases with ⟨hok, hring⟩ | ⟨hover, ⟨junk', hring⟩, -⟩
      · -- the section is written
        rw [if_pos ⟨hgo, hok⟩]
        refine ⟨groups, last, rest ++ [buffer1 ++ buffer2], [], h.returned,
          by rw [h.written, List.append_assoc], fun x hx => ?_, ?_, ?_, fun _ => rfl, .inl hok, ?_⟩
        · rcases List.mem_append.mp hx with hx | hx
          · exact h.complete x hx
          · rw [List.mem_singleton.mp hx]
            exact he
        · by_cases hne : rest = []
          · have hzero : last.flatten = [] := by
              have := h.begun
              rw [hne] at this
              rw [this]
              exact List.take_nil
            rw [hzero]
            exact List.take_zero.symm
          · rw [headD_append hne]
            exact h.begun
        · by_cases hne : rest = []
          · rcases h.opened with hzero | hlt
            · exact .inl hzero
            · rw [hne] at hlt
              exact absurd hlt (Nat.not_lt_zero _)
          · rw [headD_append hne]
            exact h.opened
        · refine hat.append _ h.le_head htodo hsec fun xs hxs => ?_
          rw [List.flatten_singleton, List.append_nil]
          exact hring xs hxs
      · -- there is no room for the section
        rw [if_neg fun hw => by rw [hover] at hw; exact nomatch hw.2]
        refine ⟨groups, last, rest, junk', h.returned, h.written, h.complete, h.begun, h.opened,
          fun herr => ?_, .inr (.inl hover), ?_⟩
        · rw [hover] at herr
          exact nomatch herr
        · have hgrown := hat.append [] h.le_head htodo hsec hring
          rwa [List.append_nil] at hgrown
    · -- a section is dropped while the buffer has an error, and behind a timeout or the one shot
      rw [sectionCallback_dropped htaken, if_neg fun hw => htaken ⟨hw.2, hw.1⟩]
      exact h

theorem inv_init {buffer : DvbRingbuffer UInt8} (hbuffer : buffer.pwrite < buffer.size) (secheader : Mem UInt8)
    (oneshot timeout : Bool) : (SecState.init (.started buffer secheader oneshot timeout)).Inv :=
  ⟨[], [], [], [], rfl, rfl, fun _ hx => absurd hx List.not_mem_nil, rfl, .inl rfl, fun _ => rfl, .inl rfl,
    atPos_zero rfl _, ⟨hbuffer, (Nat.mod_eq_of_lt hbuffer).symm, Nat.zero_lt_of_lt hbuffer, Laid.nil _ _ _⟩⟩

/-! ## Without errors -/

/-- What can come in a run without errors: sections for which there is room. -/
def NoError (s : SecState) : SecEvent → Prop
  | .section buffer1 buffer2 => CompleteSection (buffer1 ++ buffer2) ∧
      ((buffer1 ++ buffer2).length : ℤ) ≤ dvbRingbufferFree s.filter.buffer
  | .timeout => False
  | _ => True

instance (s : SecState) : ∀ e, Decidable (NoError s e)
  | .section _ _ => inferInstanceAs (Decidable (_ ∧ _))
  | .timeout => isFalse id
  | .step _ => isTrue trivial
  | .read _ _ => isTrue trivial

/-- The sections that are written in a run. -/
def sectionsOf : List SecEvent → List (List UInt8)
  | [] => []
  | .section buffer1 buffer2 :: es => (buffer1 ++ buffer2) :: sectionsOf es
  | _ :: es => sectionsOf es

theorem bufferRead_error {f f' : SecFilter} {r : BufRead} {signal : Bool} {res : BufRead ⊕ ℤ × List UInt8}
    (h : f.error = 0) (hstep : dvbDmxdevBufferRead f r signal = some (f', res)) :
    f'.error = 0 ∧ f'.state = f.state := by
  unfold dvbDmxdevBufferRead at hstep
  split_ifs at hstep <;> obtain ⟨rfl, -⟩ := Prod.mk.inj (Option.some.inj hstep) <;>
    first | exact ⟨h, rfl⟩ | exact ⟨rfl, rfl⟩

/-- A call makes no errors, and the sections that have been written and the state stay. -/
theorem stepCall_error {s s' : SecState} {c : ReadSec} {signal : Bool} (h : s.filter.error = 0)
    (hstep : s.stepCall c signal = some s') :
    s'.filter.error = 0 ∧ s'.filter.state = s.filter.state ∧ s'.written = s.written := by
  unfold SecState.stepCall dvbDmxdevReadSec at hstep
  obtain ⟨⟨f, out⟩, hread, rfl⟩ := Option.map_eq_some_iff.mp hstep
  obtain ⟨⟨f₁, res⟩, hbuf, hout⟩ := Option.map_eq_some_iff.mp hread
  have herror : f.error = 0 ∧ f.state = s.filter.state := by
    have hf₁ := bufferRead_error h hbuf
    rcases res with call | ⟨result, bytes⟩
    · obtain ⟨rfl, -⟩ := Prod.mk.inj hout
      exact hf₁
    · dsimp only at hout
      unfold readSecHeader readSecBody at hout
      dsimp only at hout
      split_ifs at hout <;> obtain ⟨rfl, -⟩ := Prod.mk.inj hout <;> exact hf₁
  rcases out with call | ⟨ret, bytes⟩
  · exact ⟨herror.1, herror.2, rfl⟩
  · dsimp only
    rw [if_neg fun hne => hne.1 h]
    split_ifs <;> exact ⟨herror.1, herror.2, rfl⟩

/-- One event without an error: a section is written unless the filter has had its one shot, and that
it has had it stays. -/
theorem SecState.Inv.stepNoError {s s' : SecState} {e : SecEvent} (h : s.Inv) (h0 : s.filter.error = 0)
    (he : NoError s e) (hstep : secStep s e = some s') :
    s'.Inv ∧ s'.filter.error = 0 ∧ (s'.filter.state = .DMXDEV_STATE_GO → s.filter.state = .DMXDEV_STATE_GO) ∧
      s'.written = s.written ++ if s.filter.state = .DMXDEV_STATE_GO then sectionsOf [e] else [] := by
  cases e with
  | step signal =>
    have hmeets : ErrorsInHeaders s (.step signal) := by
      show ¬s.MeetsErrorInBody
      unfold SecState.MeetsErrorInBody
      split
      · exact id
      · exact fun hm => hm.2.1 h0
    refine ⟨h.step hmeets hstep, ?_⟩
    obtain ⟨c, -, hcall⟩ := Option.bind_eq_some_iff.mp hstep
    obtain ⟨herror, hstate, hwritten⟩ := stepCall_error h0 hcall
    refine ⟨herror, hstate.symm.trans, hwritten.trans ?_⟩
    exact ((congrArg _ (ite_self _)).trans (List.append_nil _)).symm
  | timeout => exact he.elim
  | read nonBlocking count =>
    refine ⟨h.step (e := .read nonBlocking count) trivial hstep, ?_⟩
    dsimp only [secStep] at hstep
    split_ifs at hstep
    obtain rfl := Option.some.inj hstep
    exact ⟨h0, id, ((congrArg _ (ite_self _)).trans (List.append_nil _)).symm⟩
  | «section» buffer1 buffer2 =>
    refine ⟨h.step (e := .section buffer1 buffer2) he.1 hstep, ?_⟩
    obtain rfl := Option.some.inj hstep
    by_cases hgo : s.filter.state = .DMXDEV_STATE_GO
    · obtain ⟨groups, last, rest, junk, h⟩ := h
      obtain ⟨xs, hxs⟩ : ∃ xs, Contains s.filter.buffer xs := by
        have hat := h.call
        rcases hcall : s.call with _ | c
        · rw [hcall] at hat
          exact ⟨_, hat.2⟩
        · rw [hcall] at hat
          rcases hat with hc | hc
          · rcases hc.buf with ⟨-, -, hring⟩ | ⟨-, -, -, -, hring⟩ <;> exact ⟨_, hring⟩
          · rcases hc.buf with ⟨-, -, hring⟩ | ⟨-, -, -, -, hring⟩ <;> exact ⟨_, hring⟩
      obtain ⟨-, -, ⟨hok, -⟩ | ⟨-, -, hroom⟩⟩ := sectionCallback_cases h0 hgo buffer1 buffer2
      · refine ⟨hok, fun _ => hgo, ?_⟩
        rw [if_pos hgo]
        exact if_pos ⟨hgo, hok⟩
      · exact absurd he.2 (hroom xs hxs)
    · dsimp only
      rw [sectionCallback_dropped fun htaken => hgo htaken.2, if_neg fun hw => hgo hw.1, if_neg hgo,
        List.append_nil]
      exact ⟨h0, id, rfl⟩

theorem sectionsOf_cons (e : SecEvent) (es : List SecEvent) : sectionsOf (e :: es) = sectionsOf [e] ++ sectionsOf es := by
  cases e <;> rfl

/-- A run without errors writes its sections, all of them or, with one shot, the first. -/
theorem run_noError {s s' : SecState} {es : List SecEvent} (h : s.Inv) (h0 : s.filter.error = 0)
    (hes : Along secStep NoError s es) (hrun : run secStep s es = some s') :
    s'.Inv ∧ (s.filter.state ≠ .DMXDEV_STATE_GO → s'.written = s.written) ∧
      s'.written <+: s.written ++ sectionsOf es := by
  induction es generalizing s with
  | nil =>
    obtain rfl := Option.some.inj hrun
    exact ⟨h, fun _ => rfl, List.prefix_append _ _⟩
  | cons e es ih =>
    obtain ⟨t, hstep, hrun⟩ := Option.bind_eq_some_iff.mp hrun
    obtain ⟨hinv, herror, hgo, hwritten⟩ := h.stepNoError h0 hes.1 hstep
    obtain ⟨hinv', hdone, hprefix⟩ := ih hinv herror (hes.2 t hstep) hrun
    by_cases hs : s.filter.state = .DMXDEV_STATE_GO
    · rw [if_pos hs] at hwritten
      refine ⟨hinv', fun hne => absurd hs hne, ?_⟩
      rw [sectionsOf_cons, ← List.append_assoc, ← hwritten]
      exact hprefix
    · rw [if_neg hs, List.append_nil] at hwritten
      have hsame := (hdone fun ht => hs (hgo ht)).trans hwritten
      exact ⟨hinv', fun _ => hsame, hsame ▸ List.prefix_append _ _⟩

/-- **Sections are read one after the other**: while no error occurs, the reads give a prefix of the
sections that have been written, and no read gives bytes of two of them. -/
theorem secRead_framed {buffer : DvbRingbuffer UInt8} (hbuffer : buffer.pwrite < buffer.size)
    {secheader : Mem UInt8} {oneshot timeout : Bool} {es : List SecEvent} {s : SecState}
    (hes : Along secStep NoError (.init (.started buffer secheader oneshot timeout)) es)
    (h : run secStep (.init (.started buffer secheader oneshot timeout)) es = some s) :
    s.returned.flatten <+: (sectionsOf es).flatten ∧ Framed (sectionsOf es) s.returned := by
  obtain ⟨⟨groups, last, rest, junk, hplaced⟩, -, more, hmore⟩ :=
    run_noError (inv_init hbuffer secheader oneshot timeout) rfl hes h
  have hframed := hplaced.framed.append more
  rw [hmore] at hframed
  exact ⟨hframed.flatten, hframed⟩

/-- Two sections, read with calls of one, three and twenty bytes, the first of which waits. -/
def threeReads : List SecEvent :=
  [.read false 1, .step false, .section [0x40, 0, 2, 7, 8] [], .step false, .step false,
    .section [0x41, 0] [1, 9], .read true 3, .step false, .step false, .step false, .step false, .step false,
    .step false, .read true 20, .step false, .step false, .step false, .read true 20, .step false, .step false,
    .step false, .step false, .step false, .step false]

theorem secRead_framed_threeReads :
    ∃ s, run secStep (.init (.started ⟨fun _ => 0, 16, 3, 3⟩ (fun _ => 0) false true)) threeReads = some s ∧
      s.returned = [[0x40], [0, 2, 7], [8], [0x41, 0, 1, 9]] ∧ Framed (sectionsOf threeReads) s.returned := by
  have hrun : (run secStep (.init (.started ⟨fun _ => 0, 16, 3, 3⟩ (fun _ => 0) false true)) threeReads).map
      SecState.returned = some [[0x40], [0, 2, 7], [8], [0x41, 0, 1, 9]] := by decide +kernel
  obtain ⟨s, hs, hreturned⟩ := Option.map_eq_some_iff.mp hrun
  exact ⟨s, hs, hreturned, (secRead_framed (by decide) (by decide +kernel) hs).2⟩

/-! ## Behind an error -/

/-- The first read that gives any bytes gives the first bytes of the first section. -/
theorem Framed.first {sections reads : List (List UInt8)} (h : Framed sections reads)
    (hne : ∀ x ∈ sections, x ≠ []) {b : List UInt8} (hb : reads.find? (fun r => !r.isEmpty) = some b) :
    ∃ x, sections.head? = some x ∧ b <+: x := by
  have hfirst : ∀ {l : List (List UInt8)}, l.find? (fun r => !r.isEmpty) = some b → b ≠ [] ∧ b <+: l.flatten := by
    intro l hl
    obtain ⟨hbne, before, after, rfl, hbefore⟩ := List.find?_eq_some_iff_append.mp hl
    have hnil : before.flatten = [] := by
      refine List.flatten_eq_nil_iff.mpr fun r hr => ?_
      have := hbefore r hr
      rw [Bool.not_not] at this
      exact List.isEmpty_iff.mp this
    rw [List.flatten_append, hnil, List.flatten_cons]
    refine ⟨fun hbnil => ?_, List.prefix_append _ _⟩
    rw [hbnil] at hbne
    exact nomatch hbne
  obtain ⟨groups, last, rest, rfl, rfl, hlast⟩ := h
  cases groups with
  | nil =>
    obtain ⟨hbne, hprefix⟩ := hfirst hb
    have hle := hprefix.trans hlast
    cases rest with
    | nil => exact absurd (List.prefix_nil.mp hle) hbne
    | cons x rest => exact ⟨x, rfl, hle⟩
  | cons g groups =>
    refine ⟨g.flatten, rfl, ?_⟩
    rw [List.flatten_cons, List.append_assoc, List.find?_append] at hb
    rcases hg : g.find? (fun r => !r.isEmpty) with _ | b'
    · have hall := List.find?_eq_none.mp hg
      refine absurd (List.flatten_eq_nil_iff.mpr fun r hr => ?_)
        (hne g.flatten List.mem_cons_self)
      have := hall r hr
      rw [Bool.not_eq_true, Bool.not_eq_false'] at this
      exact List.isEmpty_iff.mp this
    · rw [hg, Option.some_or] at hb
      obtain rfl := Option.some.inj hb
      exact (hfirst hg).2

/-- The sections that are kept in the books are complete. -/
theorem writtenComplete_run {s s' : SecState} {es : List SecEvent} (h : ∀ x ∈ s.written, CompleteSection x)
    (hes : Along secStep ErrorsInHeaders s es) (hrun : run secStep s es = some s') :
    ∀ x ∈ s'.written, CompleteSection x := by
  refine run_inv_along (I := fun t => ∀ x ∈ t.written, CompleteSection x) (fun t e u ht he hstep => ?_) h hes hrun
  cases e with
  | step signal =>
    obtain ⟨c, -, hstep⟩ := Option.bind_eq_some_iff.mp hstep
    obtain ⟨⟨f, out⟩, -, rfl⟩ := Option.map_eq_some_iff.mp hstep
    rcases out with call | ⟨ret, bytes⟩
    · exact ht
    · dsimp only
      split_ifs
      · exact fun _ hx => absurd hx List.not_mem_nil
      · exact ht
      · exact ht
  | timeout =>
    dsimp only [secStep] at hstep
    split_ifs at hstep
    obtain rfl := Option.some.inj hstep
    exact ht
  | read nonBlocking count =>
    dsimp only [secStep] at hstep
    split_ifs at hstep
    obtain rfl := Option.some.inj hstep
    exact ht
  | «section» buffer1 buffer2 =>
    obtain rfl := Option.some.inj hstep
    dsimp only
    split_ifs
    · intro x hx
      rcases List.mem_append.mp hx with hx | hx
      · exact ht x hx
      · rw [List.mem_singleton.mp hx]
        exact he
    · exact ht

/-- **Reads find the sections again** behind an error that a read gets in front of a section or in its
header: the next bytes are the first ones of the section that has been written first since, and the reads
go on section by section. -/
theorem secRead_resyncs {buffer : DvbRingbuffer UInt8} (hbuffer : buffer.pwrite < buffer.size)
    {secheader : Mem UInt8} {oneshot timeout : Bool} {es : List SecEvent} {s : SecState}
    (hes : Along secStep ErrorsInHeaders (.init (.started buffer secheader oneshot timeout)) es)
    (h : run secStep (.init (.started buffer secheader oneshot timeout)) es = some s) :
    (∀ b, s.returned.find? (fun r => !r.isEmpty) = some b → ∃ x, s.written.head? = some x ∧ b <+: x) ∧
      Framed s.written s.returned := by
  obtain ⟨groups, last, rest, junk, hplaced⟩ := run_inv_along (fun _ _ _ hI he hstep => hI.step he hstep)
    (inv_init hbuffer secheader oneshot timeout) hes h
  have hcomplete := writtenComplete_run (fun _ hx => absurd hx List.not_mem_nil) hes h
  refine ⟨fun b hb => hplaced.framed.first (fun x hx hnil => ?_) hb, hplaced.framed⟩
  have hthree := (hcomplete x hx).1
  rw [hnil] at hthree
  exact absurd hthree (by decide)

/-- A section of twenty bytes, of which a ring of sixteen takes none. -/
def tooLong : SecEvent := .section (0x50 :: 0 :: 17 :: List.replicate 17 0) []

/-- A reader that has read one byte of a header when a section does not fit. -/
def errorInHeader : List SecEvent :=
  [.section [0x40, 0, 2, 7, 8] [], .read true 1, .step false, .step false, .step false, tooLong,
    .read true 4, .step false, .section [0x41, 0, 1, 9] [], .read true 2, .step false, .step false, .step false]

theorem secRead_resyncs_errorInHeader :
    ∃ s, run secStep (.init (.started ⟨fun _ => 0, 16, 3, 3⟩ (fun _ => 0) false true)) errorInHeader = some s ∧
      s.returned = [[0x41, 0]] ∧ Framed s.written s.returned := by
  have hrun : (run secStep (.init (.started ⟨fun _ => 0, 16, 3, 3⟩ (fun _ => 0) false true)) errorInHeader).map
      SecState.returned = some [[0x41, 0]] := by decide +kernel
  obtain ⟨s, hs, hreturned⟩ := Option.map_eq_some_iff.mp hrun
  exact ⟨s, hs, hreturned, (secRead_resyncs (by decide) (by decide +kernel) hs).2⟩

/-- A reader that has read one byte of a body when a section does not fit. -/
def errorInBody : List SecEvent :=
  [.section [0x40, 0, 5, 1, 2, 3, 4, 5] [], .read true 4, .step false, .step false, .step false, .step false,
    .step false, .step false, tooLong, .read true 4, .step false, .section [0x41, 0, 0] [],
    .section [0x42, 0, 0] [], .read true 4, .step false, .step false, .step false]

/-- Behind an error in the body of a section the next read gives bytes of two sections. -/
theorem secRead_errorInBody :
    (run secStep (.init (.started ⟨fun _ => 0, 16, 0, 0⟩ (fun _ => 0) false true)) errorInBody).map
        (fun s => (s.written, s.returned)) = some ([[0x41, 0, 0], [0x42, 0, 0]], [[0x41, 0, 0, 0x42]]) ∧
      ¬∃ x ∈ [[0x41, 0, 0], [0x42, 0, 0]], ([0x41, 0, 0, 0x42] : List UInt8) <+: x := by
  refine ⟨by decide +kernel, by decide⟩

end SectionRead
end TbsMedia
