import Mathlib
import TbsMedia.Lib.Runs

/-!
# Reading from a queue of buffers

A `read` on a video device takes bytes from the buffers that the driver completes.  All buffers are with the
driver at first; a buffer is dequeued when it is needed, and goes back to the driver when its end is reached.
Where `fileio_read_once` is set, the end of the first buffer ends the stream instead.

What has been returned and what is left of the buffers that are done make up the payloads of all that the driver
has completed (`Emulates`).  A read moves bytes from the second part to the first (`perform`), and a buffer goes
back to the driver only when nothing of its payload is left (`qbuf`).

* `vb2InitFileio`, `fileioDqbuf`, `transferCount`, `vb2PerformFileio`: a read.
* `readStep`: a read, or a buffer that the driver completes.
* `ByteStream`: what is returned are the payloads of the buffers in their order, and nothing else is transferred.
* `KeepsPayload`: a read loses no part of a payload.
* `byteStream_run`: the stream holds of every run whose reads lose nothing.
* `not_byteStream`: it fails where a payload does not begin with the buffer, and where a stream is ended.
-/

namespace TbsMedia
namespace Vb2

open Lib

/-- No read asks for more. -/
def MAX_RW_COUNT : ℕ := 0x7ffff000

/-! ## State -/

/-- The queue, as far as a read looks at it.  The size of a plane is an `unsigned int`. -/
structure Vb2Queue where
  isMultiplanar : Bool
  fileioReadOnce : Bool
  planeSize : ℕ
  planeSize_lt : planeSize < 2 ^ 32

/-- The plane of a buffer, with the memory behind its address. -/
structure Vb2Buffer where
  bytesused : ℕ
  dataOffset : ℕ
  mem : ℕ → UInt8

/-- A `struct vb2_fileio_buf`. -/
structure FileioBuf where
  size : ℕ
  pos : ℕ

/-- A `struct vb2_fileio_data`. -/
structure Fileio where
  bufs : ℕ → FileioBuf
  curIndex : ℕ
  initialIndex : ℕ
  dqCount : ℕ

/-- The buffers, those that are with the driver, and those that are done and have not been dequeued; the state of
the emulator; what has been completed, returned and transferred. -/
structure ReadSys where
  numBuffers : ℕ
  bufs : ℕ → Vb2Buffer
  active : List ℕ
  doneList : List ℕ
  fileio : Option Fileio
  completed : List Vb2Buffer
  returned : List UInt8
  /-- The buffer, the position and the number of bytes. -/
  transfers : List (Vb2Buffer × ℕ × ℕ)

/-- So many bytes from a position on. -/
def slice (mem : ℕ → UInt8) (start len : ℕ) : List UInt8 :=
  (List.range len).map fun i => mem (start + i)

/-- The bytes `[data_offset, bytesused)`. -/
def Vb2Buffer.payload (b : Vb2Buffer) : List UInt8 :=
  slice b.mem b.dataOffset (b.bytesused - b.dataOffset)

section Reading

variable (q : Vb2Queue)

/-! ## A read -/

/-- `__vb2_init_fileio`.  The driver has asked for `n` buffers. -/
def vb2InitFileio (s : ReadSys) (n : ℕ) : ReadSys :=
  { s with
    numBuffers := n
    active := List.range n
    doneList := []
    fileio := some
      { bufs := fun _ => ⟨q.planeSize, 0⟩
        curIndex := n
        initialIndex := n
        dqCount := 0 } }

/-- `__vb2_cleanup_fileio`: the buffers are released. -/
def vb2CleanupFileio (s : ReadSys) : ReadSys :=
  { s with numBuffers := 0, active := [], doneList := [], fileio := none }

/-- The position and the size for a buffer that was dequeued. -/
def fileioBuf (b : Vb2Buffer) : FileioBuf :=
  if q.isMultiplanar ∧ b.dataOffset < b.bytesused then ⟨b.bytesused - b.dataOffset, b.dataOffset⟩
  else ⟨b.bytesused, 0⟩

/-- A buffer is dequeued, if there is none to read from.  Where no buffer is done, the read waits. -/
def fileioDqbuf (s : ReadSys) (f : Fileio) : Option (ReadSys × Fileio) :=
  if f.curIndex < s.numBuffers then some (s, f)
  else
    match s.doneList with
    | [] => none
    | index :: rest =>
      some ({ s with doneList := rest },
        { f with
          dqCount := f.dqCount + 1
          curIndex := index
          bufs := Function.update f.bufs index (fileioBuf q (s.bufs index)) })

/-- The number of bytes to copy.  The difference is one of `unsigned int`. -/
def transferCount (buf : FileioBuf) (count : ℕ) : ℕ :=
  if buf.pos + count > buf.size then (buf.size + 2 ^ 32 - buf.pos) % 2 ^ 32 else count

/-- A buffer goes back to the driver. -/
def fileioQbuf (s : ReadSys) (f : Fileio) (pos : ℕ) : ReadSys :=
  let initialIndex := if f.initialIndex < s.numBuffers then f.initialIndex + 1 else f.initialIndex
  { s with
    bufs := Function.update s.bufs f.curIndex { s.bufs f.curIndex with bytesused := pos }
    active := s.active ++ [f.curIndex]
    fileio := some
      { f with
        bufs := Function.update f.bufs f.curIndex ⟨q.planeSize, 0⟩
        initialIndex := initialIndex
        curIndex := initialIndex } }

/-- The bytes whose count is returned: `ret` is an `int`. -/
def returnedBytes (b : Vb2Buffer) (pos count : ℕ) : List UInt8 :=
  (slice b.mem pos count).take (Int.bmod count (2 ^ 32)).toNat

/-- `__vb2_perform_fileio`, when there is a buffer to read from. -/
def vb2PerformFileio (s : ReadSys) (f : Fileio) (count : ℕ) : ReadSys :=
  let b := s.bufs f.curIndex
  let buf := f.bufs f.curIndex
  let count := transferCount buf count
  let pos := (buf.pos + count) % 2 ^ 32
  let s := { s with transfers := (b, buf.pos, count) :: s.transfers }
  if pos = buf.size then
    if q.fileioReadOnce ∧ f.dqCount = 1 then vb2CleanupFileio s
    else { fileioQbuf q s f pos with returned := s.returned ++ returnedBytes b buf.pos count }
  else
    { s with
      fileio := some { f with bufs := Function.update f.bufs f.curIndex { buf with pos := pos } }
      returned := s.returned ++ returnedBytes b buf.pos count }

/-- `vb2_read`, when the emulator is there. -/
def vb2Read (s : ReadSys) (count : ℕ) : Option ReadSys :=
  s.fileio.bind fun f => (fileioDqbuf q s f).map fun r => vb2PerformFileio q r.1 r.2 count

/-! ## Steps -/

/-- What happens next. -/
inductive ReadAct where
  /-- A read finds that there is no emulator.  The driver asks for `n` buffers.  The read goes on when one of them is
  done. -/
  | init (n : ℕ)
  /-- The driver completes a buffer. -/
  | done (index : ℕ) (b : Vb2Buffer)
  | read (count : ℕ)

/-- A step, or `none` where it is not possible, or a read waits. -/
def readStep (s : ReadSys) : ReadAct → Option ReadSys
  | .init n => if s.fileio.isNone ∧ 0 < n then some (vb2InitFileio q s n) else none
  | .done index b =>
    if index ∈ s.active ∧ b.bytesused ≤ q.planeSize ∧ (b.dataOffset < b.bytesused ∨ b.dataOffset = 0) then
      some { s with
        bufs := Function.update s.bufs index b
        active := s.active.erase index
        doneList := s.doneList ++ [index]
        completed := s.completed ++ [b] }
    else none
  | .read count => vb2Read q s (min count MAX_RW_COUNT)

/-- Nothing has been read. -/
def ReadSys.initial : ReadSys where
  numBuffers := 0
  bufs := fun _ => ⟨0, 0, fun _ => 0⟩
  active := []
  doneList := []
  fileio := none
  completed := []
  returned := []
  transfers := []

/-- **The reads are a byte stream**: what was returned is a prefix of the payloads of the buffers in the order of
their completion, and only bytes of a payload were transferred. -/
structure ByteStream (s : ReadSys) : Prop where
  returned : s.returned <+: (s.completed.map Vb2Buffer.payload).flatten
  transfers : ∀ tr ∈ s.transfers, tr.1.dataOffset ≤ tr.2.1 ∧ tr.2.1 + tr.2.2 ≤ tr.1.bytesused

/-- The buffer that is read from next, the position of the first byte of its payload that was not read, and the
buffers that are done besides. -/
def reading (s : ReadSys) : Option (Vb2Buffer × ℕ × List ℕ) :=
  s.fileio.bind fun f =>
    if f.curIndex < s.numBuffers then some (s.bufs f.curIndex, (f.bufs f.curIndex).pos, s.doneList)
    else s.doneList.head?.map fun index => (s.bufs index, (s.bufs index).dataOffset, s.doneList.tail)

/-- **A read loses nothing**: of a buffer whose payload does not begin with the buffer, which is one of a
multiplanar queue, it leaves more bytes than come before the payload; and where the stream is ended after the first
buffer, it does not come to the end, unless nothing is in that buffer and no other one is done. -/
def KeepsPayload (s : ReadSys) : ReadAct → Prop
  | .init _ => True
  | .done .. => True
  | .read count => ∀ r ∈ reading s,
    (r.1.dataOffset ≠ 0 →
      q.isMultiplanar = true ∧ r.2.1 + min count MAX_RW_COUNT + r.1.dataOffset < r.1.bytesused) ∧
    (q.fileioReadOnce = true →
      r.2.1 + min count MAX_RW_COUNT < r.1.bytesused ∨ r.1.bytesused = 0 ∧ r.2.2 = [])

instance (s : ReadSys) : ∀ e : ReadAct, Decidable (KeepsPayload q s e)
  | .init _ => .isTrue trivial
  | .done .. => .isTrue trivial
  | .read _ => inferInstanceAs (Decidable (∀ r ∈ reading s, _))

end Reading

/-! ## Slices -/

@[simp] theorem slice_zero (mem : ℕ → UInt8) (start : ℕ) : slice mem start 0 = [] := rfl

@[simp] theorem length_slice (mem : ℕ → UInt8) (start len : ℕ) : (slice mem start len).length = len := by
  simp [slice]

/-- A slice is cut in two. -/
theorem slice_append (mem : ℕ → UInt8) (start m n : ℕ) :
    slice mem start m ++ slice mem (start + m) n = slice mem start (m + n) := by
  simp [slice, List.range_add, Nat.add_assoc]

theorem slice_split (mem : ℕ → UInt8) {start stop len : ℕ} (h : start + len ≤ stop) :
    slice mem start (stop - start) = slice mem start len ++ slice mem (start + len) (stop - (start + len)) := by
  rw [slice_append]
  congr 1
  omega

/-- A count that fits an `int` is returned as it is. -/
theorem returnedBytes_eq (b : Vb2Buffer) (pos : ℕ) {count : ℕ} (h : count ≤ MAX_RW_COUNT) :
    returnedBytes b pos count = slice b.mem pos count := by
  unfold MAX_RW_COUNT at h
  have hint : Int.bmod count (2 ^ 32) = count := Int.bmod_eq_of_le (by omega) (by omega)
  unfold returnedBytes
  rw [hint, Int.toNat_natCast]
  exact List.take_of_length_le (length_slice b.mem pos count).le

/-! ## What holds between the steps -/

section Invariant

variable {q : Vb2Queue} {s s' : ReadSys} {f f' : Fileio}

/-- What is left of the payload of the buffer that is read from. -/
def rest (s : ReadSys) (f : Fileio) : List UInt8 :=
  if f.curIndex < s.numBuffers then
    slice (s.bufs f.curIndex).mem (f.bufs f.curIndex).pos
      ((s.bufs f.curIndex).bytesused - (f.bufs f.curIndex).pos)
  else []

/-- The payloads of the buffers that are done. -/
def donePayloads (s : ReadSys) : List UInt8 :=
  (s.doneList.map fun i => (s.bufs i).payload).flatten

/-- The position is inside the payload. -/
structure Reads (b : Vb2Buffer) (buf : FileioBuf) : Prop where
  start : b.dataOffset ≤ buf.pos
  pos : buf.pos ≤ buf.size
  size : buf.size = b.bytesused - b.dataOffset

/-- The indices of the buffers are where they should be, and the payloads of what was completed have been returned,
or are left to be returned. -/
structure Emulates (q : Vb2Queue) (s : ReadSys) (f : Fileio) : Prop where
  initial : f.initialIndex = s.numBuffers
  nodup : (s.active ++ s.doneList).Nodup
  lt : ∀ i ∈ s.active ++ s.doneList, i < s.numBuffers
  cur : f.curIndex ∉ s.active ++ s.doneList
  reads : f.curIndex < s.numBuffers →
    (s.bufs f.curIndex).bytesused ≤ q.planeSize ∧ Reads (s.bufs f.curIndex) (f.bufs f.curIndex)
  done : ∀ i ∈ s.doneList, (s.bufs i).bytesused ≤ q.planeSize ∧
    ((s.bufs i).dataOffset < (s.bufs i).bytesused ∨ (s.bufs i).dataOffset = 0)
  stream : (s.completed.map Vb2Buffer.payload).flatten = s.returned ++ (rest s f ++ donePayloads s)

/-- What holds between the steps. -/
structure Streams (q : Vb2Queue) (s : ReadSys) : Prop where
  transfers : ∀ tr ∈ s.transfers, tr.1.dataOffset ≤ tr.2.1 ∧ tr.2.1 + tr.2.2 ≤ tr.1.bytesused
  closed : s.fileio = none → s.active = [] ∧ (s.completed.map Vb2Buffer.payload).flatten = s.returned
  emulates : ∀ f, s.fileio = some f → Emulates q s f

theorem Streams.initial : Streams q ReadSys.initial where
  transfers := fun _ h => absurd h List.not_mem_nil
  closed := fun _ => ⟨rfl, rfl⟩
  emulates := fun f h => absurd h.symm (Option.some_ne_none f)

/-- What is between the steps makes a stream. -/
theorem Streams.byteStream (h : Streams q s) : ByteStream s where
  returned := by
    rcases hf : s.fileio with _ | f
    · rw [(h.closed hf).2]
    · rw [(h.emulates f hf).stream]
      exact List.prefix_append _ _
  transfers := h.transfers

/-- The emulator starts with all buffers at the driver. -/
theorem Streams.init (h : Streams q s) (hf : s.fileio = none) (n : ℕ) : Streams q (vb2InitFileio q s n) where
  transfers := h.transfers
  closed := fun hnone => absurd hnone (Option.some_ne_none _)
  emulates := by
    intro f hf'
    obtain rfl := Option.some.inj hf'
    refine ⟨rfl, ?_, fun i hi => ?_, fun hi => ?_, fun hlt => absurd hlt (lt_irrefl n),
      fun _ hi => absurd hi List.not_mem_nil, ?_⟩
    · exact (List.append_nil (List.range n)).symm ▸ List.nodup_range
    · exact List.mem_range.mp ((List.append_nil (List.range n)) ▸ hi)
    · exact lt_irrefl n (List.mem_range.mp ((List.append_nil (List.range n)) ▸ hi))
    · have hrest : rest (vb2InitFileio q s n) ⟨fun _ => ⟨q.planeSize, 0⟩, n, n, 0⟩ = [] := if_neg (lt_irrefl n)
      rw [hrest]
      exact (h.closed hf).2.trans (List.append_nil s.returned).symm

/-- A buffer that the driver completes is the last one that is done. -/
theorem Emulates.done_step (h : Emulates q s f) {index : ℕ} {b : Vb2Buffer} (hi : index ∈ s.active)
    (hused : b.bytesused ≤ q.planeSize) (hoff : b.dataOffset < b.bytesused ∨ b.dataOffset = 0) :
    Emulates q { s with
      bufs := Function.update s.bufs index b
      active := s.active.erase index
      doneList := s.doneList ++ [index]
      completed := s.completed ++ [b] } f := by
  have hperm : (s.active.erase index ++ (s.doneList ++ [index])).Perm (s.active ++ s.doneList) :=
    calc (s.active.erase index ++ (s.doneList ++ [index])).Perm (s.active.erase index ++ (index :: s.doneList)) :=
          List.Perm.append_left _ (List.perm_append_singleton index s.doneList)
      _ |>.Perm (index :: s.active.erase index ++ s.doneList) := List.perm_middle
      _ |>.Perm (s.active ++ s.doneList) := (List.perm_cons_erase hi).symm.append_right _
  have hmem : index ∈ s.active ++ s.doneList := List.mem_append_left _ hi
  have hcur : f.curIndex ≠ index := fun heq => h.cur (heq ▸ hmem)
  have hdone : ∀ i ∈ s.doneList, i ≠ index := fun i hd heq =>
    (List.disjoint_of_nodup_append h.nodup) hi (heq ▸ hd)
  have hold : ∀ i ∈ s.doneList, Function.update s.bufs index b i = s.bufs i := fun i hd =>
    Function.update_of_ne (hdone i hd) _ _
  refine ⟨h.initial, hperm.nodup_iff.mpr h.nodup, fun i hm => h.lt i (hperm.mem_iff.mp hm),
    fun hm => h.cur (hperm.mem_iff.mp hm), fun hlt => ?_, fun i hm => ?_, ?_⟩
  · dsimp only
    rw [Function.update_of_ne hcur]
    exact h.reads hlt
  · dsimp only
    rcases List.mem_append.mp hm with hm | hm
    · rw [hold i hm]
      exact h.done i hm
    · rw [List.mem_singleton.mp hm, Function.update_self]
      exact ⟨hused, hoff⟩
  · have hrest : rest { s with
        bufs := Function.update s.bufs index b
        active := s.active.erase index
        doneList := s.doneList ++ [index]
        completed := s.completed ++ [b] } f = rest s f := by
      unfold rest
      dsimp only
      rw [Function.update_of_ne hcur]
    have hpay : donePayloads { s with
        bufs := Function.update s.bufs index b
        active := s.active.erase index
        doneList := s.doneList ++ [index]
        completed := s.completed ++ [b] } = donePayloads s ++ b.payload := by
      unfold donePayloads
      dsimp only
      rw [List.map_append, List.flatten_append, List.map_congr_left fun i hm =>
        congrArg Vb2Buffer.payload (hold i hm), List.map_singleton, Function.update_self, List.flatten_singleton]
    rw [hrest, hpay]
    dsimp only
    rw [List.map_append, List.flatten_append, h.stream, List.map_singleton, List.flatten_singleton]
    simp only [List.append_assoc]

/-- The position and the size are those of the payload. -/
theorem fileioBuf_eq {b : Vb2Buffer} (hmulti : b.dataOffset ≠ 0 → q.isMultiplanar = true)
    (hoff : b.dataOffset < b.bytesused ∨ b.dataOffset = 0) :
    fileioBuf q b = ⟨b.bytesused - b.dataOffset, b.dataOffset⟩ := by
  unfold fileioBuf
  by_cases hzero : b.dataOffset = 0
  · rw [hzero]
    split <;> rfl
  · exact if_pos ⟨hmulti hzero, hoff.resolve_right hzero⟩

/-- What is asked of the read of a buffer. -/
structure Keeps (q : Vb2Queue) (b : Vb2Buffer) (pos count : ℕ) (others : List ℕ) : Prop where
  offset : b.dataOffset ≠ 0 → q.isMultiplanar = true ∧ pos + count + b.dataOffset < b.bytesused
  once : q.fileioReadOnce = true → pos + count < b.bytesused ∨ b.bytesused = 0 ∧ others = []

/-- There is a buffer to read from, after one has been dequeued. -/
theorem Emulates.dqbuf (h : Emulates q s f) (count : ℕ)
    (hkeeps : ∀ r ∈ (if f.curIndex < s.numBuffers then some (s.bufs f.curIndex, (f.bufs f.curIndex).pos, s.doneList)
      else s.doneList.head?.map fun index => (s.bufs index, (s.bufs index).dataOffset, s.doneList.tail)),
        Keeps q r.1 r.2.1 count r.2.2) (hd : fileioDqbuf q s f = some (s', f')) :
    Emulates q s' f' ∧ f'.curIndex < s'.numBuffers ∧ s'.transfers = s.transfers ∧
      Keeps q (s'.bufs f'.curIndex) (f'.bufs f'.curIndex).pos count s'.doneList := by
  unfold fileioDqbuf at hd
  by_cases hlt : f.curIndex < s.numBuffers
  · rw [if_pos hlt] at hd hkeeps
    obtain ⟨rfl, rfl⟩ := Prod.mk.inj (Option.some.inj hd)
    exact ⟨h, hlt, rfl, hkeeps _ rfl⟩
  · rw [if_neg hlt] at hd hkeeps
    rcases hdone : s.doneList with _ | ⟨index, others⟩
    · rw [hdone] at hd
      exact absurd hd.symm (Option.some_ne_none _)
    · rw [hdone] at hd hkeeps
      obtain ⟨rfl, rfl⟩ := Prod.mk.inj (Option.some.inj hd)
      have hk : Keeps q (s.bufs index) (s.bufs index).dataOffset count others := hkeeps _ rfl
      obtain ⟨hused, hoff⟩ := h.done index (hdone ▸ List.mem_cons_self ..)
      have hbuf := fileioBuf_eq (fun hne => (hk.offset hne).1) hoff
      have hindex : index < s.numBuffers :=
        h.lt index (List.mem_append_right _ (hdone ▸ List.mem_cons_self ..))
      have hperm : (s.active ++ s.doneList).Perm (index :: (s.active ++ others)) := by
        rw [hdone]
        exact List.perm_middle
      obtain ⟨hnot, hnodup⟩ := List.nodup_cons.mp (hperm.nodup_iff.mp h.nodup)
      have hself : Function.update f.bufs index (fileioBuf q (s.bufs index)) index =
          ⟨(s.bufs index).bytesused - (s.bufs index).dataOffset, (s.bufs index).dataOffset⟩ := by
        rw [Function.update_self, hbuf]
      have hpos : (s.bufs index).dataOffset ≤ (s.bufs index).bytesused - (s.bufs index).dataOffset := by
        by_cases hzero : (s.bufs index).dataOffset = 0
        · omega
        · have hless := (hk.offset hzero).2
          omega
      refine ⟨⟨h.initial, hnodup, fun i hi => h.lt i (hperm.mem_iff.mpr (List.mem_cons_of_mem _ hi)), hnot,
        fun _ => ⟨hused, ?_⟩, fun i hi => h.done i (hdone ▸ List.mem_cons_of_mem _ hi), ?_⟩, hindex, rfl, ?_⟩
      · dsimp only
        rw [hself]
        exact ⟨le_rfl, hpos, rfl⟩
      · have hrest : rest s f = [] := if_neg hlt
        have hrest' : rest { s with doneList := others } { f with
            dqCount := f.dqCount + 1
            curIndex := index
            bufs := Function.update f.bufs index (fileioBuf q (s.bufs index)) } = (s.bufs index).payload := by
          unfold rest
          dsimp only
          rw [if_pos hindex, hself]
          rfl
        have hpay : donePayloads s =
            (s.bufs index).payload ++ donePayloads { s with doneList := others } := by
          unfold donePayloads
          rw [hdone, List.map_cons, List.flatten_cons]
        have hstream := h.stream
        rw [hrest, hpay, List.nil_append] at hstream
        rw [hrest']
        exact hstream
      · dsimp only
        rw [hself]
        exact hk

/-- The count is limited by the bytes that are left. -/
theorem transferCount_eq {buf : FileioBuf} (count : ℕ) (hpos : buf.pos ≤ buf.size) (hsize : buf.size < 2 ^ 32) :
    transferCount buf count = min count (buf.size - buf.pos) := by
  unfold transferCount
  split
  · have hmod : (buf.size + 2 ^ 32 - buf.pos) % 2 ^ 32 = buf.size - buf.pos := by omega
    rw [hmod]
    omega
  · omega

/-- A buffer goes back to the driver; the payload of it has been returned. -/
theorem Emulates.qbuf (h : Emulates q s f) (hlt : f.curIndex < s.numBuffers) {bytes : List UInt8}
    (hrest : rest s f = bytes) (pos : ℕ) (trs : List (Vb2Buffer × ℕ × ℕ)) (g : Fileio)
    (hg : (fileioQbuf q { s with transfers := trs } f pos).fileio = some g) :
    Emulates q { fileioQbuf q { s with transfers := trs } f pos with returned := s.returned ++ bytes } g := by
  have hinit : (if f.initialIndex < s.numBuffers then f.initialIndex + 1 else f.initialIndex) = s.numBuffers := by
    rw [if_neg (h.initial ▸ lt_irrefl _), h.initial]
  have hgi : g.curIndex = s.numBuffers ∧ g.initialIndex = s.numBuffers := by
    obtain rfl := Option.some.inj hg
    exact ⟨hinit, hinit⟩
  have hperm : (s.active ++ [f.curIndex] ++ s.doneList).Perm (f.curIndex :: (s.active ++ s.doneList)) := by
    rw [List.append_assoc]
    exact List.perm_middle
  have hdone : ∀ i ∈ s.doneList, Function.update s.bufs f.curIndex { s.bufs f.curIndex with bytesused := pos } i =
      s.bufs i := by
    intro i hi
    refine Function.update_of_ne (fun heq => h.cur ?_) _ _
    rw [← heq]
    exact List.mem_append_right _ hi
  have hlast : ∀ i ∈ s.active ++ [f.curIndex] ++ s.doneList, i < s.numBuffers := by
    intro i hi
    rcases List.mem_cons.mp (hperm.mem_iff.mp hi) with hi | hi
    · exact hi ▸ hlt
    · exact h.lt i hi
  refine ⟨hgi.2, hperm.nodup_iff.mpr (List.nodup_cons.mpr ⟨h.cur, h.nodup⟩), hlast,
    fun hm => lt_irrefl _ (hgi.1 ▸ hlast _ hm), fun hlt' => absurd (hgi.1 ▸ hlt') (lt_irrefl _), fun i hi => ?_, ?_⟩
  · change (Function.update s.bufs f.curIndex { s.bufs f.curIndex with bytesused := pos } i).bytesused ≤ _ ∧ _
    rw [hdone i hi]
    refine ⟨(h.done i hi).1, ?_⟩
    change (Function.update s.bufs f.curIndex { s.bufs f.curIndex with bytesused := pos } i).dataOffset <
      (Function.update s.bufs f.curIndex { s.bufs f.curIndex with bytesused := pos } i).bytesused ∨
      (Function.update s.bufs f.curIndex { s.bufs f.curIndex with bytesused := pos } i).dataOffset = 0
    rw [hdone i hi]
    exact (h.done i hi).2
  · have hnone : rest { fileioQbuf q { s with transfers := trs } f pos with returned := s.returned ++ bytes } g = [] :=
      if_neg (hgi.1 ▸ lt_irrefl s.numBuffers)
    have hpay : donePayloads { fileioQbuf q { s with transfers := trs } f pos with returned := s.returned ++ bytes } =
        donePayloads s := by
      unfold donePayloads
      exact congrArg List.flatten (List.map_congr_left fun i hi => congrArg Vb2Buffer.payload (hdone i hi))
    rw [hnone, hpay]
    change (s.completed.map Vb2Buffer.payload).flatten = s.returned ++ bytes ++ donePayloads s
    rw [h.stream, hrest, List.append_assoc]

/-- **A read from a buffer** returns the next bytes of its payload. -/
theorem Emulates.perform (h : Emulates q s f)
    (htr : ∀ tr ∈ s.transfers, tr.1.dataOffset ≤ tr.2.1 ∧ tr.2.1 + tr.2.2 ≤ tr.1.bytesused)
    (hlt : f.curIndex < s.numBuffers) {count : ℕ} (hcount : count ≤ MAX_RW_COUNT)
    (hk : Keeps q (s.bufs f.curIndex) (f.bufs f.curIndex).pos count s.doneList) :
    Streams q (vb2PerformFileio q s f count) := by
  obtain ⟨hused, hr⟩ := h.reads hlt
  have hplane := q.planeSize_lt
  have hrest : rest s f = slice (s.bufs f.curIndex).mem (f.bufs f.curIndex).pos
      ((s.bufs f.curIndex).bytesused - (f.bufs f.curIndex).pos) := if_pos hlt
  have hsize := hr.size
  have hpos := hr.pos
  have htc := transferCount_eq count hpos (by omega)
  have hmod : ((f.bufs f.curIndex).pos + transferCount (f.bufs f.curIndex) count) % 2 ^ 32 =
      (f.bufs f.curIndex).pos + transferCount (f.bufs f.curIndex) count := Nat.mod_eq_of_lt (by omega)
  have hbytes := returnedBytes_eq (s.bufs f.curIndex) (f.bufs f.curIndex).pos
    (show transferCount (f.bufs f.curIndex) count ≤ MAX_RW_COUNT by omega)
  have hsplit := slice_split (s.bufs f.curIndex).mem (show (f.bufs f.curIndex).pos +
    transferCount (f.bufs f.curIndex) count ≤ (s.bufs f.curIndex).bytesused by omega)
  have htr' : ∀ tr ∈ (s.bufs f.curIndex, (f.bufs f.curIndex).pos, transferCount (f.bufs f.curIndex) count) ::
      s.transfers, tr.1.dataOffset ≤ tr.2.1 ∧ tr.2.1 + tr.2.2 ≤ tr.1.bytesused := by
    intro tr hmem
    rcases List.mem_cons.mp hmem with hmem | hmem
    · rw [hmem]
      exact ⟨hr.start, by dsimp only; omega⟩
    · exact htr tr hmem
  unfold vb2PerformFileio
  dsimp only
  rw [hmod, hbytes]
  split
  · next hend =>
    -- the payload of a buffer that is read to its end begins with the buffer
    have hzero : (s.bufs f.curIndex).dataOffset = 0 := by
      by_contra hne
      have hless := (hk.offset hne).2
      omega
    have hall : (s.bufs f.curIndex).bytesused - ((f.bufs f.curIndex).pos +
        transferCount (f.bufs f.curIndex) count) = 0 := by omega
    rw [hall, slice_zero, List.append_nil] at hsplit
    split
    · next honce =>
      obtain ⟨hnil, hdone⟩ := (hk.once honce.1).resolve_left (by omega)
      refine ⟨htr', fun _ => ⟨rfl, ?_⟩, fun g hg => absurd hg.symm (Option.some_ne_none g)⟩
      have hstream := h.stream
      have hpay : donePayloads s = [] := by
        unfold donePayloads
        rw [hdone]
        rfl
      rw [hrest, hnil, hpay, Nat.zero_sub, slice_zero, List.append_nil, List.append_nil] at hstream
      exact hstream
    · refine ⟨htr', fun hnone => absurd hnone (Option.some_ne_none _), fun g hg => ?_⟩
      exact h.qbuf hlt (hrest.trans hsplit) _ _ g hg
  · next hmore =>
    refine ⟨htr', fun hnone => absurd hnone (Option.some_ne_none _), fun g hg => ?_⟩
    obtain rfl := Option.some.inj hg
    refine ⟨h.initial, h.nodup, h.lt, h.cur, fun _ => ⟨hused, ?_⟩, h.done, ?_⟩
    · dsimp only
      rw [Function.update_self]
      exact ⟨by have := hr.start; dsimp only; omega, by dsimp only; omega, hr.size⟩
    · have hrest' : rest { s with
          transfers := (s.bufs f.curIndex, (f.bufs f.curIndex).pos, transferCount (f.bufs f.curIndex) count) ::
            s.transfers
          fileio := some { f with bufs := Function.update f.bufs f.curIndex { f.bufs f.curIndex with
            pos := (f.bufs f.curIndex).pos + transferCount (f.bufs f.curIndex) count } }
          returned := s.returned ++ slice (s.bufs f.curIndex).mem (f.bufs f.curIndex).pos
            (transferCount (f.bufs f.curIndex) count) }
          { f with bufs := Function.update f.bufs f.curIndex { f.bufs f.curIndex with
            pos := (f.bufs f.curIndex).pos + transferCount (f.bufs f.curIndex) count } } =
          slice (s.bufs f.curIndex).mem ((f.bufs f.curIndex).pos + transferCount (f.bufs f.curIndex) count)
            ((s.bufs f.curIndex).bytesused - ((f.bufs f.curIndex).pos +
              transferCount (f.bufs f.curIndex) count)) := by
        unfold rest
        dsimp only
        rw [if_pos hlt, Function.update_self]
      rw [hrest']
      change (s.completed.map Vb2Buffer.payload).flatten = _ ++ (_ ++ donePayloads s)
      rw [h.stream, hrest, hsplit, List.append_assoc, List.append_assoc]

/-- **A step that loses nothing keeps the stream.** -/
theorem Streams.step {e : ReadAct} (h : Streams q s) (he : KeepsPayload q s e) (hs : readStep q s e = some s') :
    Streams q s' := by
  cases e with
  | init n =>
    obtain ⟨⟨hnone, -⟩, heq⟩ := Option.ite_none_right_eq_some.mp hs
    obtain rfl := Option.some.inj heq
    exact h.init (Option.isNone_iff_eq_none.mp hnone) n
  | done index b =>
    obtain ⟨⟨hi, hused, hoff⟩, heq⟩ := Option.ite_none_right_eq_some.mp hs
    obtain rfl := Option.some.inj heq
    refine ⟨h.transfers, fun hnone => absurd ((h.closed hnone).1 ▸ hi) List.not_mem_nil, fun f hf => ?_⟩
    exact (h.emulates f hf).done_step hi hused hoff
  | read count =>
    obtain ⟨f, hf, heq⟩ := Option.bind_eq_some_iff.mp hs
    obtain ⟨⟨s₁, f₁⟩, hd, rfl⟩ := Option.map_eq_some_iff.mp heq
    have hreading : reading s = if f.curIndex < s.numBuffers then
        some (s.bufs f.curIndex, (f.bufs f.curIndex).pos, s.doneList)
      else s.doneList.head?.map fun index => (s.bufs index, (s.bufs index).dataOffset, s.doneList.tail) := by
      unfold reading
      rw [hf, Option.bind_some]
    obtain ⟨hem, hlt, htr, hk⟩ := (h.emulates f hf).dqbuf (min count MAX_RW_COUNT)
      (fun r hr => ⟨(he r (hreading ▸ hr)).1, (he r (hreading ▸ hr)).2⟩) hd
    exact hem.perform (htr ▸ h.transfers) hlt (min_le_right _ _) hk

end Invariant

/-- **The reads are a byte stream** in every run whose reads lose nothing. -/
theorem byteStream_run (q : Vb2Queue) (es : List ReadAct) (s : ReadSys)
    (hkeeps : Along (readStep q) (KeepsPayload q) ReadSys.initial es)
    (h : run (readStep q) ReadSys.initial es = some s) : ByteStream s :=
  (run_inv_along (fun _ _ _ hs he ht => hs.step he ht) Streams.initial hkeeps h).byteStream

theorem planeSize_eight : 8 < 2 ^ 32 := by decide

/-- A multiplanar queue. -/
def planesQ (fileioReadOnce : Bool) : Vb2Queue :=
  ⟨true, fileioReadOnce, 8, planeSize_eight⟩

/-- A buffer whose memory holds the numbers from `start` on. -/
def numbered (bytesused dataOffset : ℕ) (start : UInt8) : Vb2Buffer :=
  ⟨bytesused, dataOffset, fun i => start + UInt8.ofNat i⟩

/-- A buffer is read to its end, and then a part of one with a data offset. -/
theorem byteStream_planesQ : ∃ s, run (readStep (planesQ false)) ReadSys.initial
    [.init 2, .done 0 (numbered 2 0 0), .read 1, .read 5, .done 1 (numbered 6 1 10), .read 3] = some s ∧
    s.returned = [0, 1, 11, 12, 13] ∧ ByteStream s := by
  have hrun : (run (readStep (planesQ false)) ReadSys.initial
      [.init 2, .done 0 (numbered 2 0 0), .read 1, .read 5, .done 1 (numbered 6 1 10), .read 3]).map
      ReadSys.returned = some [0, 1, 11, 12, 13] := by decide +kernel
  obtain ⟨s, hs, hreturned⟩ := Option.map_eq_some_iff.mp hrun
  exact ⟨s, hs, hreturned, byteStream_run (planesQ false) _ s (by decide +kernel) hs⟩

/-- **The reads are no byte stream** where a buffer with a data offset is read to its end, or where the stream is
ended: bytes of the payload are missing from what was returned.  Where the data offset is larger than what comes
after it, bytes behind the payload are transferred. -/
theorem not_byteStream :
    (∃ s, run (readStep (planesQ false)) ReadSys.initial
      [.init 2, .done 0 (numbered 4 1 0), .done 1 (numbered 2 0 10), .read 8, .read 8] = some s ∧
      s.returned = [1, 2, 10, 11] ∧ (s.completed.map Vb2Buffer.payload).flatten = [1, 2, 3, 10, 11]) ∧
    (∃ s, run (readStep (planesQ false)) ReadSys.initial [.init 1, .done 0 (numbered 4 3 0), .read 8] = some s ∧
      s.transfers.map (fun tr => (tr.1.bytesused, tr.2)) = [(4, 3, 2 ^ 32 - 2)]) ∧
    ∃ s, run (readStep (planesQ true)) ReadSys.initial
      [.init 1, .done 0 (numbered 2 0 0), .read 8, .init 1, .done 0 (numbered 2 0 10), .read 1] = some s ∧
      s.returned = [10] ∧ (s.completed.map Vb2Buffer.payload).flatten = [0, 1, 10, 11] := by
  have hlost : (run (readStep (planesQ false)) ReadSys.initial
      [.init 2, .done 0 (numbered 4 1 0), .done 1 (numbered 2 0 10), .read 8, .read 8]).map
      (fun s => (s.returned, (s.completed.map Vb2Buffer.payload).flatten)) =
        some ([1, 2, 10, 11], [1, 2, 3, 10, 11]) := by decide +kernel
  have hbeyond : (run (readStep (planesQ false)) ReadSys.initial
      [.init 1, .done 0 (numbered 4 3 0), .read 8]).map
      (fun s => s.transfers.map fun tr => (tr.1.bytesused, tr.2)) = some [(4, 3, 2 ^ 32 - 2)] := by decide +kernel
  have hended : (run (readStep (planesQ true)) ReadSys.initial
      [.init 1, .done 0 (numbered 2 0 0), .read 8, .init 1, .done 0 (numbered 2 0 10), .read 1]).map
      (fun s => (s.returned, (s.completed.map Vb2Buffer.payload).flatten)) = some ([10], [0, 1, 10, 11]) := by
    decide +kernel
  refine ⟨?_, ?_, ?_⟩
  · obtain ⟨s, hs, heq⟩ := Option.map_eq_some_iff.mp hlost
    exact ⟨s, hs, Prod.mk.inj heq⟩
  · obtain ⟨s, hs, heq⟩ := Option.map_eq_some_iff.mp hbeyond
    exact ⟨s, hs, heq⟩
  · obtain ⟨s, hs, heq⟩ := Option.map_eq_some_iff.mp hended
    exact ⟨s, hs, Prod.mk.inj heq⟩

end Vb2
end TbsMedia
