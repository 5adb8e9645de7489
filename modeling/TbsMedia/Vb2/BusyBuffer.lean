import Mathlib
import TbsMedia.Vb2.Qbuf

/-!
# Calls for a buffer that is busy

`vb2_qbuf` and `vb2_prepare_buf` copy what user space says about a buffer into it, unless it is prepared, and only
then ask whether it may be queued.

* `fillVb2V4l2Buffer`, `queueOrPrepareBuf`, `vb2Qbuf`, `vb2PrepareBuf`: the functions.
* `unchanged_iff`: what a call that fails for a busy buffer leaves as it was.
-/

namespace TbsMedia
namespace Vb2

/-! ## State -/

/-- A `struct v4l2_plane`; the union `m` is the number in its eight bytes. -/
structure V4l2Plane where
  bytesused : UInt32
  length : UInt32
  m : UInt64
  dataOffset : UInt32

/-- The members of a `struct vb2_plane` that come from user space. -/
structure StoredPlane where
  bytesused : UInt32
  length : UInt32
  m : UInt64
  dataOffset : UInt32
  deriving DecidableEq

/-- A `struct v4l2_timecode`. -/
structure V4l2Timecode where
  type : UInt32
  flags : UInt32
  frames : UInt8
  seconds : UInt8
  minutes : UInt8
  hours : UInt8
  userbits : List UInt8

/-- A `struct v4l2_buffer`: `planes` is what `m.planes` points to, unless it is `NULL`, and `timestamp` counts
nanoseconds. -/
structure V4l2Buffer where
  index : ℕ
  type : ℕ
  bytesused : UInt32
  flags : UInt32
  field : UInt32
  timestamp : UInt64
  timecode : V4l2Timecode
  memory : Vb2Memory
  m : UInt64
  planes : Option (ℕ → V4l2Plane)
  length : ℕ
  requestFd : ℤ

/-- A `struct vb2_v4l2_buffer`: `vbPlanes` are the planes of the `struct vb2_buffer` in it. -/
structure Vb2V4l2Buffer where
  numPlanes : ℕ
  vbPlanes : ℕ → StoredPlane
  timestamp : UInt64
  flags : UInt32
  field : UInt32
  timecode : V4l2Timecode
  sequence : UInt32
  requestFd : ℤ
  planes : ℕ → StoredPlane

/-- A queue of V4L2 buffers: `allocated` are the indices with a buffer, and three marks say whether there are a lock
and the callbacks that requests need. -/
structure V4l2Queue where
  core : CoreQueue
  type : ℕ
  copyTimestamp : Bool
  allowZeroBytesused : Bool
  supportsRequests : Bool
  fileioActive : Bool
  hasLock : Bool
  hasBufRequestComplete : Bool
  hasBufOutValidate : Bool
  allocated : ℕ → Bool
  bufs : ℕ → Vb2V4l2Buffer

def V4L2_FIELD_ALTERNATE : UInt32 := 7

def V4L2_BUF_FLAG_TIMECODE : UInt32 := 0x100
def V4L2_BUF_FLAG_REQUEST_FD : UInt32 := 0x800000
def V4L2_BUF_FLAG_LAST : UInt32 := 0x100000
def V4L2_BUF_FLAG_TSTAMP_SRC_MASK : UInt32 := 0x70000

/-- The flags `MAPPED`, `QUEUED`, `DONE`, `ERROR`, `PREPARED`, `IN_REQUEST`, `REQUEST_FD` and `TIMESTAMP_MASK`. -/
def V4L2_BUFFER_MASK_FLAGS : UInt32 := 0x1 ||| 0x2 ||| 0x4 ||| 0x40 ||| 0x400 ||| 0x80 ||| 0x800000 ||| 0xe000

/-- The flags `PFRAME`, `BFRAME`, `KEYFRAME` and `TIMECODE`. -/
def V4L2_BUFFER_OUT_FLAGS : UInt32 := 0x10 ||| 0x20 ||| 0x8 ||| 0x100

/-- `V4L2_TYPE_IS_MULTIPLANAR`: the types `VIDEO_CAPTURE_MPLANE` and `VIDEO_OUTPUT_MPLANE`. -/
def isMultiplanar (type : ℕ) : Bool := type = 9 ∨ type = 10

/-- `V4L2_TYPE_IS_OUTPUT`: the types `VIDEO_OUTPUT`, `VIDEO_OUTPUT_MPLANE`, `VIDEO_OVERLAY`, `VIDEO_OUTPUT_OVERLAY`,
`VBI_OUTPUT`, `SLICED_VBI_OUTPUT`, `SDR_OUTPUT` and `META_OUTPUT`. -/
def isOutputType (type : ℕ) : Bool :=
  type = 2 ∨ type = 10 ∨ type = 3 ∨ type = 8 ∨ type = 5 ∨ type = 7 ∨ type = 12 ∨ type = 14

/-! ## The copy -/

/-- `__verify_planes_array`. -/
def verifyPlanesArray (vb : Vb2V4l2Buffer) (b : V4l2Buffer) : ℤ :=
  if ¬ isMultiplanar b.type then 0
  else if b.planes.isNone then -EINVAL
  else if b.length < vb.numPlanes ∨ b.length > 8 then -EINVAL
  else 0

/-- The planes that come with a buffer. -/
def V4l2Buffer.plane (b : V4l2Buffer) (k : ℕ) : V4l2Plane := (b.planes.getD fun _ => ⟨0, 0, 0, 0⟩) k

/-- A plane in `__verify_length`. -/
def lengthFits (vb : Vb2V4l2Buffer) (b : V4l2Buffer) (k : ℕ) : Bool :=
  let psrc := b.plane k
  let length := if b.memory = .userptr ∨ b.memory = .dmabuf then psrc.length else (vb.vbPlanes k).length
  let bytesused := if psrc.bytesused ≠ 0 then psrc.bytesused else length
  ¬ psrc.bytesused > length ∧ ¬ (psrc.dataOffset > 0 ∧ psrc.dataOffset ≥ bytesused)

/-- `__verify_length`. -/
def verifyLength (vb : Vb2V4l2Buffer) (b : V4l2Buffer) : ℤ :=
  if ¬ isOutputType b.type then 0
  else if isMultiplanar b.type then if (List.range vb.numPlanes).all (lengthFits vb b) then 0 else -EINVAL
  else
    let length := if b.memory = .userptr then UInt32.ofNat b.length else (vb.vbPlanes 0).length
    if b.bytesused > length then -EINVAL else 0

/-- `m.fd` and `m.offset` are the lower half of the union. -/
def lowHalf (m : UInt64) : UInt64 := m &&& 0xffffffff

/-- The memory of a plane and its length, as the memory of the buffer asks. -/
def planeMemory (memory : Vb2Memory) (m : UInt64) (length : UInt32) (vbPlane : StoredPlane) : UInt64 × UInt32 :=
  match memory with
  | .userptr => (m, length)
  | .dmabuf => (lowHalf m, length)
  | _ => (lowHalf vbPlane.m, vbPlane.length)

/-- `bytesused` of a plane for an output type. -/
def outputBytes (q : V4l2Queue) (bytesused length : UInt32) : UInt32 :=
  if q.allowZeroBytesused then bytesused else if bytesused ≠ 0 then bytesused else length

/-- A plane of a multiplanar buffer is filled, after it was set to zero. -/
def fillPlane (q : V4l2Queue) (vb : Vb2V4l2Buffer) (b : V4l2Buffer) (k : ℕ) : StoredPlane :=
  let x := planeMemory b.memory (b.plane k).m (b.plane k).length (vb.vbPlanes k)
  if isOutputType b.type then ⟨outputBytes q (b.plane k).bytesused x.2, x.2, x.1, (b.plane k).dataOffset⟩
  else ⟨0, x.2, x.1, 0⟩

/-- The plane of a buffer that has one plane only. -/
def fillSingle (q : V4l2Queue) (vb : Vb2V4l2Buffer) (b : V4l2Buffer) : StoredPlane :=
  let x := planeMemory b.memory b.m (UInt32.ofNat b.length) (vb.vbPlanes 0)
  ⟨if isOutputType b.type then outputBytes q b.bytesused x.2 else 0, x.2, x.1, 0⟩

/-- The flags that are kept. -/
def keptFlags (q : V4l2Queue) (b : V4l2Buffer) : UInt32 :=
  let flags := b.flags &&& ~~~V4L2_BUFFER_MASK_FLAGS
  let flags := if ¬ q.copyTimestamp ∨ ¬ isOutputType b.type then flags &&& ~~~V4L2_BUF_FLAG_TSTAMP_SRC_MASK else flags
  if isOutputType b.type then flags &&& ~~~V4L2_BUF_FLAG_TIMECODE
  else flags &&& ~~~V4L2_BUFFER_OUT_FLAGS &&& ~~~V4L2_BUF_FLAG_LAST

/-- `memset(vbuf->planes, 0, …)`. -/
def Vb2V4l2Buffer.clearPlanes (vb : Vb2V4l2Buffer) : Vb2V4l2Buffer :=
  { vb with planes := fun k => if k < vb.numPlanes then ⟨0, 0, 0, 0⟩ else vb.planes k }

/-- `vb2_fill_vb2_v4l2_buffer`. -/
def fillVb2V4l2Buffer (q : V4l2Queue) (vb : Vb2V4l2Buffer) (b : V4l2Buffer) : Vb2V4l2Buffer × ℤ :=
  if verifyLength vb b ≠ 0 then (vb, verifyLength vb b)
  else if b.field = V4L2_FIELD_ALTERNATE ∧ q.core.isOutput then (vb, -EINVAL)
  else
    let vb := { vb with sequence := 0, requestFd := -1 }
    let vb :=
      if isMultiplanar b.type then
        { vb with planes := fun k => if k < vb.numPlanes then fillPlane q vb b k else vb.planes k }
      else { vb with planes := Function.update vb.planes 0 (fillSingle q vb b) }
    let vb := { vb with flags := keptFlags q b }
    (if isOutputType b.type then { vb with field := b.field } else vb, 0)

/-! ## The calls -/

/-- `media_request_get_by_fd`: an error, or a request. -/
abbrev FindRequest := ℤ → Except ℤ ReqPtr

def V4l2Queue.setBuf (q : V4l2Queue) (i : ℕ) (vb : Vb2V4l2Buffer) : V4l2Queue :=
  { q with bufs := Function.update q.bufs i vb }

/-- The request of `vb2_queue_or_prepare_buf`. -/
def lookupRequest (find : FindRequest) (q : V4l2Queue) (b : V4l2Buffer) : V4l2Queue × ℤ × Option ReqPtr :=
  if ¬ q.supportsRequests then (q, -EBADR, none)
  else if q.core.usesQbuf then (q, -Mc.EBUSY, none)
  else if ¬ q.hasLock then (q, -EINVAL, none)
  else if ¬ q.hasBufRequestComplete then (q, -EINVAL, none)
  else if (q.type = 2 ∨ q.type = 10) ∧ ¬ q.hasBufOutValidate then (q, -EINVAL, none)
  else if b.requestFd < 0 then (q, -EINVAL, none)
  else
    match find b.requestFd with
    | .error e => (q, e, none)
    | .ok r =>
      if (q.core.requests r).state ≠ .idle ∧ (q.core.requests r).state ≠ .updating then (q, -Mc.EBUSY, none)
      else (q.setBuf b.index { q.bufs b.index with requestFd := b.requestFd }, 0, some r)

/-- `vb2_queue_or_prepare_buf`. -/
def queueOrPrepareBuf (find : FindRequest) (q : V4l2Queue) (b : V4l2Buffer) (isPrepare : Bool) :
    V4l2Queue × ℤ × Option ReqPtr :=
  if b.type ≠ q.type then (q, -EINVAL, none)
  else if b.index ≥ q.core.numBuffers then (q, -EINVAL, none)
  else if ¬ q.allocated b.index then (q, -EINVAL, none)
  else if b.memory ≠ q.core.memory then (q, -EINVAL, none)
  else if verifyPlanesArray (q.bufs b.index) b ≠ 0 then (q, verifyPlanesArray (q.bufs b.index) b, none)
  else if ¬ isPrepare ∧ b.flags &&& V4L2_BUF_FLAG_REQUEST_FD ≠ 0 ∧ (q.core.bufs b.index).state ≠ .dequeued then
    (q, -EINVAL, none)
  else
    let x := if (q.core.bufs b.index).prepared then (q.bufs b.index, 0)
      else fillVb2V4l2Buffer q (q.bufs b.index).clearPlanes b
    let q := q.setBuf b.index x.1
    if x.2 ≠ 0 then (q, x.2, none)
    else if isPrepare then (q, 0, none)
    else if b.flags &&& V4L2_BUF_FLAG_REQUEST_FD = 0 then
      if q.core.requiresRequests then (q, -EBADR, none)
      else if q.core.usesRequests then (q, -Mc.EBUSY, none)
      else (q, 0, none)
    else lookupRequest find q b

/-- `vb2_core_prepare_buf`. -/
def vb2CorePrepareBuf (d : Callbacks) (q : CoreQueue) (i : ℕ) : CoreQueue × ℤ :=
  if (q.bufs i).state ≠ .dequeued then (q, -EINVAL)
  else if (q.bufs i).prepared then (q, -EINVAL)
  else bufPrepare d q i

/-- `vb2_prepare_buf`. -/
def vb2PrepareBuf (d : Callbacks) (find : FindRequest) (q : V4l2Queue) (b : V4l2Buffer) : V4l2Queue × ℤ :=
  if q.fileioActive then (q, -Mc.EBUSY)
  else if b.flags &&& V4L2_BUF_FLAG_REQUEST_FD ≠ 0 then (q, -EINVAL)
  else
    let x := queueOrPrepareBuf find q b true
    if x.2.1 ≠ 0 then (x.1, x.2.1)
    else
      let y := vb2CorePrepareBuf d x.1.core b.index
      ({ x.1 with core := y.1 }, y.2)

/-- `__copy_timestamp`. -/
def copyTimestamp (q : V4l2Queue) (vb : Vb2V4l2Buffer) (b : V4l2Buffer) : Vb2V4l2Buffer :=
  if q.core.isOutput then
    { vb with
      timestamp := if q.copyTimestamp then b.timestamp else vb.timestamp
      flags := vb.flags ||| (b.flags &&& V4L2_BUF_FLAG_TIMECODE)
      timecode := if b.flags &&& V4L2_BUF_FLAG_TIMECODE ≠ 0 then b.timecode else vb.timecode }
  else vb

instance (q : CoreQueue) (i : ℕ) (req : Option ReqPtr) : Decidable (PassesModes q i req) :=
  inferInstanceAs (Decidable (_ ∧ _ ∧ _))

/-- `vb2_core_qbuf` gets to `copy_timestamp`: the buffer is in the request, or on the list. -/
def links (d : Callbacks) (q : CoreQueue) (i : ℕ) (req : Option ReqPtr) : Bool :=
  decide (PassesModes q i req) &&
    match req with
    | some r => (qbufRequest d (noteRequests q) i r).2 = 0
    | none => ((q.bufs i).state = .dequeued ∨ (q.bufs i).state = .inRequest) ∧ (ensurePrepared d (noteQbuf q i) i).2 = 0

/-- `vb2_qbuf`. -/
def vb2Qbuf (d : Callbacks) (find : FindRequest) (q : V4l2Queue) (b : V4l2Buffer) : V4l2Queue × ℤ :=
  if q.fileioActive then (q, -Mc.EBUSY)
  else
    let x := queueOrPrepareBuf find q b false
    if x.2.1 ≠ 0 then (x.1, x.2.1)
    else
      let vb := x.1.bufs b.index
      let y := vb2CoreQbuf d x.1.core b.index x.2.2
      ({ x.1.setBuf b.index (if links d x.1.core b.index x.2.2 then copyTimestamp x.1 vb b else vb) with core := y.1 },
        y.2)

/-- The two calls. -/
def vb2Call (d : Callbacks) (find : FindRequest) (q : V4l2Queue) (b : V4l2Buffer) (isPrepare : Bool) : V4l2Queue × ℤ :=
  if isPrepare then vb2PrepareBuf d find q b else vb2Qbuf d find q b

/-! ## The condition -/

section Condition

variable (d : Callbacks) (q : V4l2Queue) (b : V4l2Buffer) (isPrepare : Bool)

/-- The call ends before anything is copied: the queue is used by `read` or `write`, the call has a request, or the
type, the index, the memory or the array of the planes is wrong. -/
def TurnedAway : Prop :=
  q.fileioActive = true ∨ b.flags &&& V4L2_BUF_FLAG_REQUEST_FD ≠ 0 ∨ b.type ≠ q.type ∨ b.index ≥ q.core.numBuffers ∨
    q.allocated b.index = false ∨ b.memory ≠ q.core.memory ∨ verifyPlanesArray (q.bufs b.index) b ≠ 0

/-- The lengths are in order, and so is the field. -/
def Accepts : Prop :=
  verifyLength (q.bufs b.index) b = 0 ∧ ¬ (b.field = V4L2_FIELD_ALTERNATE ∧ q.core.isOutput = true)

/-- The buffer is put on the list, so that it is the driver which makes the call fail. -/
def Listed : Prop :=
  isPrepare = false ∧ q.core.requiresRequests = false ∧ q.core.usesRequests = false ∧
    links d q.core b.index none = true

instance : Decidable (Listed d q b isPrepare) := inferInstanceAs (Decidable (_ ∧ _ ∧ _ ∧ _))

/-- The flags of a buffer that is listed, with the one of the time code. -/
def stamped (flags : UInt32) : UInt32 :=
  if Listed d q b isPrepare ∧ q.core.isOutput = true then flags ||| (b.flags &&& V4L2_BUF_FLAG_TIMECODE) else flags

/-- A plane as the call gives it. -/
def givenPlane (k : ℕ) : StoredPlane :=
  if isMultiplanar b.type then fillPlane q (q.bufs b.index) b k
  else if k = 0 then fillSingle q (q.bufs b.index) b else ⟨0, 0, 0, 0⟩

/-- The buffer has what the call gives already. -/
structure Repeats : Prop where
  sequence : (q.bufs b.index).sequence = 0
  requestFd : (q.bufs b.index).requestFd = -1
  flags : (q.bufs b.index).flags = stamped d q b isPrepare (keptFlags q b)
  field : isOutputType b.type = true → (q.bufs b.index).field = b.field
  planes : ∀ k, k < (q.bufs b.index).numPlanes ∨ (isMultiplanar b.type = false ∧ k = 0) →
    (q.bufs b.index).planes k = givenPlane q b k

/-- The call is turned away; or the buffer is prepared, and is not listed with a new flag of the time code; or its
planes are zero, and the lengths or the field are not in order; or it has what the call gives. -/
def Harmless : Prop :=
  TurnedAway q b ∨
    ((q.core.bufs b.index).prepared = true ∧
      (q.bufs b.index).flags = stamped d q b isPrepare (q.bufs b.index).flags) ∨
    ((q.core.bufs b.index).prepared = false ∧ ¬ Accepts q b ∧
      ∀ k < (q.bufs b.index).numPlanes, (q.bufs b.index).planes k = ⟨0, 0, 0, 0⟩) ∨
    ((q.core.bufs b.index).prepared = false ∧ Accepts q b ∧ Repeats d q b isPrepare)

end Condition

/-- The stored parameters of the planes, the flags, the field, the sequence number and the request are the same. -/
structure Unchanged (vb vb' : Vb2V4l2Buffer) : Prop where
  planes : vb'.planes = vb.planes
  flags : vb'.flags = vb.flags
  field : vb'.field = vb.field
  sequence : vb'.sequence = vb.sequence
  requestFd : vb'.requestFd = vb.requestFd

/-! ## The copy of a call -/

variable {d : Callbacks} {find : FindRequest} {q : V4l2Queue} {b : V4l2Buffer} {isPrepare : Bool}

/-- The buffer behind the copy, and what the copy returns. -/
def copied (q : V4l2Queue) (b : V4l2Buffer) : Vb2V4l2Buffer × ℤ :=
  if (q.core.bufs b.index).prepared then (q.bufs b.index, 0)
  else fillVb2V4l2Buffer q (q.bufs b.index).clearPlanes b

theorem verifyLength_values (vb : Vb2V4l2Buffer) (b : V4l2Buffer) :
    verifyLength vb b = 0 ∨ verifyLength vb b = -EINVAL := by
  unfold verifyLength
  dsimp only
  generalize (if b.memory = .userptr then UInt32.ofNat b.length else (vb.vbPlanes 0).length) = length
  split
  · exact .inl rfl
  · split
    · split
      · exact .inl rfl
      · exact .inr rfl
    · split
      · exact .inr rfl
      · exact .inl rfl

/-- A copy that is not accepted leaves planes of zero. -/
theorem copied_of_not_accepts (hprepared : (q.core.bufs b.index).prepared = false) (h : ¬ Accepts q b) :
    copied q b = ((q.bufs b.index).clearPlanes, -EINVAL) := by
  have hcopied : copied q b = fillVb2V4l2Buffer q (q.bufs b.index).clearPlanes b := by
    unfold copied
    rw [hprepared]
    rfl
  have hsame : verifyLength (q.bufs b.index).clearPlanes b = verifyLength (q.bufs b.index) b := rfl
  rw [hcopied]
  unfold fillVb2V4l2Buffer
  rw [hsame]
  unfold Accepts at h
  rcases verifyLength_values (q.bufs b.index) b with hzero | hbad
  · rw [hzero, if_neg (not_not.mpr rfl), if_pos (not_not.mp fun hf => h ⟨hzero, hf⟩)]
  · rw [hbad, if_pos (by decide)]

/-- The call behind the checks of its arguments. -/
theorem queueOrPrepareBuf_copies (find : FindRequest) (isPrepare : Bool) (h : ¬ TurnedAway q b) :
    queueOrPrepareBuf find q b isPrepare =
      (q.setBuf b.index (copied q b).1,
        if (copied q b).2 ≠ 0 then (copied q b).2
        else if isPrepare then 0
        else if q.core.requiresRequests then -EBADR
        else if q.core.usesRequests then -Mc.EBUSY
        else 0, none) := by
  unfold TurnedAway at h
  push Not at h
  obtain ⟨-, hflag, htype, hindex, hbuf, hmemory, hplanes⟩ := h
  unfold queueOrPrepareBuf
  rw [if_neg (not_not.mpr htype), if_neg (not_le.mpr hindex), if_neg (not_not.mpr (Bool.of_not_eq_false hbuf)),
    if_neg (not_not.mpr hmemory), if_neg (not_not.mpr hplanes), if_neg fun hc => hc.2.1 hflag]
  have hcopied : (if (q.core.bufs b.index).prepared then (q.bufs b.index, (0 : ℤ))
      else fillVb2V4l2Buffer q (q.bufs b.index).clearPlanes b) = copied q b := rfl
  rw [hcopied]
  generalize copied q b = x
  by_cases hx : x.2 = 0
  · rw [if_neg (not_not.mpr hx), if_neg (not_not.mpr hx)]
    cases isPrepare with
    | true => rfl
    | false =>
      rw [if_neg Bool.false_ne_true, if_neg Bool.false_ne_true, if_pos hflag]
      change (if q.core.requiresRequests = true then _ else if q.core.usesRequests = true then _ else _) = _
      split
      · rfl
      · split <;> rfl
  · rw [if_pos hx, if_pos hx]

/-- The checks of the arguments end the call. -/
theorem queueOrPrepareBuf_turnedAway (find : FindRequest) (isPrepare : Bool)
    (hbusy : (q.core.bufs b.index).state ≠ .dequeued)
    (h : isPrepare = false ∧ b.flags &&& V4L2_BUF_FLAG_REQUEST_FD ≠ 0 ∨ b.type ≠ q.type ∨
      b.index ≥ q.core.numBuffers ∨ q.allocated b.index = false ∨ b.memory ≠ q.core.memory ∨
      verifyPlanesArray (q.bufs b.index) b ≠ 0) :
    ∃ ret, ret ≠ 0 ∧ queueOrPrepareBuf find q b isPrepare = (q, ret, none) := by
  have hinval : (-EINVAL : ℤ) ≠ 0 := by decide
  unfold queueOrPrepareBuf
  by_cases htype : b.type ≠ q.type
  · exact ⟨_, hinval, if_pos htype⟩
  rw [if_neg htype]
  by_cases hindex : b.index ≥ q.core.numBuffers
  · exact ⟨_, hinval, if_pos hindex⟩
  rw [if_neg hindex]
  by_cases hbuf : q.allocated b.index = true
  · rw [if_neg (not_not.mpr hbuf)]
    by_cases hmemory : b.memory ≠ q.core.memory
    · exact ⟨_, hinval, if_pos hmemory⟩
    rw [if_neg hmemory]
    by_cases hplanes : verifyPlanesArray (q.bufs b.index) b ≠ 0
    · exact ⟨_, hplanes, if_pos hplanes⟩
    rw [if_neg hplanes]
    rcases h with ⟨hcall, hflag⟩ | h | h | h | h | h
    · exact ⟨_, hinval, if_pos ⟨by rw [hcall]; exact Bool.false_ne_true, hflag, hbusy⟩⟩
    · exact absurd h htype
    · exact absurd h hindex
    · exact absurd hbuf (by rw [h]; exact Bool.false_ne_true)
    · exact absurd h hmemory
    · exact absurd h hplanes
  · exact ⟨_, hinval, if_pos hbuf⟩

/-- A call that is turned away changes no buffer. -/
theorem bufs_of_turnedAway (hbusy : (q.core.bufs b.index).state ≠ .dequeued) (h : TurnedAway q b) :
    (vb2Call d find q b isPrepare).1.bufs = q.bufs := by
  by_cases hfileio : q.fileioActive = true
  · cases isPrepare with
    | true =>
      change (vb2PrepareBuf d find q b).1.bufs = _
      unfold vb2PrepareBuf
      rw [if_pos hfileio]
    | false =>
      change (vb2Qbuf d find q b).1.bufs = _
      unfold vb2Qbuf
      rw [if_pos hfileio]
  · have hrest := h.resolve_left hfileio
    cases isPrepare with
    | true =>
      change (vb2PrepareBuf d find q b).1.bufs = _
      unfold vb2PrepareBuf
      rw [if_neg hfileio]
      by_cases hflag : b.flags &&& V4L2_BUF_FLAG_REQUEST_FD ≠ 0
      · rw [if_pos hflag]
      · obtain ⟨ret, hret, hcall⟩ := queueOrPrepareBuf_turnedAway find true hbusy
          (.inr (hrest.resolve_left hflag))
        rw [if_neg hflag, hcall]
        dsimp only
        rw [if_pos hret]
    | false =>
      change (vb2Qbuf d find q b).1.bufs = _
      unfold vb2Qbuf
      obtain ⟨ret, hret, hcall⟩ := queueOrPrepareBuf_turnedAway find false hbusy
        (hrest.imp_left fun hflag => ⟨rfl, hflag⟩)
      rw [if_neg hfileio, hcall]
      dsimp only
      rw [if_pos hret]

/-- The buffer behind a call: the copy, with a time stamp if it is listed. -/
def behind (d : Callbacks) (q : V4l2Queue) (b : V4l2Buffer) (isPrepare : Bool) : Vb2V4l2Buffer :=
  if (copied q b).2 = 0 ∧ Listed d q b isPrepare then copyTimestamp q (copied q b).1 b else (copied q b).1

/-- A call that is not turned away leaves the copy. -/
theorem bufs_of_not_turnedAway (h : ¬ TurnedAway q b) :
    (vb2Call d find q b isPrepare).1.bufs b.index = behind d q b isPrepare := by
  have hfileio : ¬ q.fileioActive = true := fun hf => h (.inl hf)
  have hflag : ¬ b.flags &&& V4L2_BUF_FLAG_REQUEST_FD ≠ 0 := fun hf => h (.inr (.inl hf))
  have hset : ∀ vb, (q.setBuf b.index vb).bufs b.index = vb := fun vb => Function.update_self ..
  have hcall := queueOrPrepareBuf_copies find isPrepare h
  unfold behind
  generalize copied q b = x at hcall ⊢
  cases isPrepare with
  | true =>
    rw [if_neg fun hc => Bool.noConfusion hc.2.1]
    change (vb2PrepareBuf d find q b).1.bufs _ = _
    unfold vb2PrepareBuf
    rw [if_neg hfileio, if_neg hflag, hcall]
    dsimp only
    split
    · exact hset _
    · exact hset _
  | false =>
    change (vb2Qbuf d find q b).1.bufs _ = _
    unfold vb2Qbuf
    rw [if_neg hfileio, hcall]
    dsimp only
    rw [if_neg Bool.false_ne_true]
    by_cases hx : x.2 = 0
    · rw [if_neg (not_not.mpr hx)]
      by_cases hrequires : q.core.requiresRequests = true
      · rw [if_pos hrequires, if_pos (by decide), if_neg fun hc => ?_]
        · exact hset _
        · rw [hc.2.2.1] at hrequires
          exact Bool.false_ne_true hrequires
      · rw [if_neg hrequires]
        by_cases huses : q.core.usesRequests = true
        · rw [if_pos huses, if_pos (by decide), if_neg fun hc => ?_]
          · exact hset _
          · rw [hc.2.2.2.1] at huses
            exact Bool.false_ne_true huses
        · rw [if_neg huses, if_neg (not_not.mpr rfl)]
          change Function.update (q.setBuf b.index x.1).bufs b.index _ b.index = _
          rw [Function.update_self, hset]
          change (if links d q.core b.index none = true then copyTimestamp q x.1 b else x.1) = _
          by_cases hlinks : links d q.core b.index none = true
          · rw [if_pos hlinks, if_pos ⟨hx, rfl, Bool.eq_false_of_not_eq_true hrequires,
              Bool.eq_false_of_not_eq_true huses, hlinks⟩]
          · rw [if_neg hlinks, if_neg fun hc => hlinks hc.2.2.2.2]
    · rw [if_pos hx, if_pos hx, if_neg fun hc => hx hc.1]
      exact hset _

/-! ## What is left as it was -/

/-- The time stamp changes the flags only, among what is looked at. -/
theorem copyTimestamp_eq (q : V4l2Queue) (vb : Vb2V4l2Buffer) (b : V4l2Buffer) :
    (copyTimestamp q vb b).planes = vb.planes ∧
      (copyTimestamp q vb b).flags =
        (if q.core.isOutput = true then vb.flags ||| (b.flags &&& V4L2_BUF_FLAG_TIMECODE) else vb.flags) ∧
      (copyTimestamp q vb b).field = vb.field ∧ (copyTimestamp q vb b).sequence = vb.sequence ∧
      (copyTimestamp q vb b).requestFd = vb.requestFd := by
  unfold copyTimestamp
  by_cases hout : q.core.isOutput = true
  · rw [if_pos hout, if_pos hout]
    exact ⟨rfl, rfl, rfl, rfl, rfl⟩
  · rw [if_neg hout, if_neg hout]
    exact ⟨rfl, rfl, rfl, rfl, rfl⟩

/-- A buffer behind a copy that returned zero. -/
theorem behind_of_copied (d : Callbacks) (isPrepare : Bool) {vb : Vb2V4l2Buffer} (h : copied q b = (vb, 0)) :
    (behind d q b isPrepare).planes = vb.planes ∧
      (behind d q b isPrepare).flags = stamped d q b isPrepare vb.flags ∧
      (behind d q b isPrepare).field = vb.field ∧ (behind d q b isPrepare).sequence = vb.sequence ∧
      (behind d q b isPrepare).requestFd = vb.requestFd := by
  unfold behind stamped
  rw [h]
  by_cases hlisted : Listed d q b isPrepare
  · rw [if_pos ⟨rfl, hlisted⟩]
    obtain ⟨hplanes, hflags, hrest⟩ := copyTimestamp_eq q vb b
    refine ⟨hplanes, ?_, hrest⟩
    rw [hflags]
    by_cases hout : q.core.isOutput = true
    · rw [if_pos hout, if_pos ⟨hlisted, hout⟩]
    · rw [if_neg hout, if_neg fun hc => hout hc.2]
  · rw [if_neg fun hc => hlisted hc.2, if_neg fun hc => hlisted hc.1]
    exact ⟨rfl, rfl, rfl, rfl, rfl⟩

/-- The copy of a buffer that is prepared. -/
theorem copied_of_prepared (h : (q.core.bufs b.index).prepared = true) : copied q b = (q.bufs b.index, 0) := by
  unfold copied
  rw [h]
  rfl

/-- The copy of a buffer that is not prepared, when it is accepted. -/
theorem copied_of_accepts (hprepared : (q.core.bufs b.index).prepared = false) (h : Accepts q b) :
    ∃ vb, copied q b = (vb, 0) ∧ vb.sequence = 0 ∧ vb.requestFd = -1 ∧ vb.flags = keptFlags q b ∧
      vb.field = (if isOutputType b.type = true then b.field else (q.bufs b.index).field) ∧
      ∀ k, vb.planes k = if k < (q.bufs b.index).numPlanes ∨ (isMultiplanar b.type = false ∧ k = 0) then
        givenPlane q b k else (q.bufs b.index).planes k := by
  have hcopied : copied q b = fillVb2V4l2Buffer q (q.bufs b.index).clearPlanes b := by
    unfold copied
    rw [hprepared]
    rfl
  have hsame : verifyLength (q.bufs b.index).clearPlanes b = verifyLength (q.bufs b.index) b := rfl
  rw [hcopied]
  unfold fillVb2V4l2Buffer
  rw [hsame, h.1, if_neg (not_not.mpr rfl), if_neg h.2]
  dsimp only
  refine ⟨_, rfl, ?_, ?_, ?_, ?_, fun k => ?_⟩
  · split <;> split <;> rfl
  · split <;> split <;> rfl
  · split <;> rfl
  · split <;> split <;> rfl
  · have hplanes : ∀ vb : Vb2V4l2Buffer,
        (if isOutputType b.type = true then { vb with field := b.field } else vb).planes = vb.planes := by
      intro vb
      split <;> rfl
    refine (congrFun (hplanes _) k).trans ?_
    unfold givenPlane
    by_cases hmulti : isMultiplanar b.type = true
    · rw [if_pos hmulti, if_pos hmulti, hmulti]
      by_cases hk : k < (q.bufs b.index).numPlanes
      · rw [if_pos (.inl hk)]
        exact if_pos hk
      · rw [if_neg fun hc => hc.elim hk fun hc => Bool.noConfusion hc.1]
        exact (if_neg hk).trans (if_neg hk)
    · rw [if_neg hmulti, if_neg hmulti, Bool.eq_false_of_not_eq_true hmulti]
      by_cases hzero : k = 0
      · rw [hzero, if_pos (.inr ⟨rfl, rfl⟩), if_pos rfl]
        exact Function.update_self 0 _ (q.bufs b.index).clearPlanes.planes
      · rw [if_neg hzero]
        change Function.update (_ : ℕ → StoredPlane) 0 _ k = _
        rw [Function.update_of_ne hzero]
        by_cases hk : k < (q.bufs b.index).numPlanes
        · rw [if_pos (.inl hk)]
          exact if_pos hk
        · rw [if_neg fun hc => hc.elim hk fun hc => hzero hc.2]
          exact if_neg hk

/-- A buffer that is prepared. -/
theorem unchanged_of_prepared (h : (q.core.bufs b.index).prepared = true) :
    Unchanged (q.bufs b.index) (behind d q b isPrepare) ↔
      (q.bufs b.index).flags = stamped d q b isPrepare (q.bufs b.index).flags := by
  obtain ⟨hplanes, hflags, hfield, hsequence, hrequest⟩ :=
    behind_of_copied d isPrepare (copied_of_prepared h)
  exact ⟨fun hun => hun.flags.symm.trans hflags,
    fun hsame => ⟨hplanes, hflags.trans hsame.symm, hfield, hsequence, hrequest⟩⟩

/-- A buffer whose copy is not accepted. -/
theorem unchanged_of_not_accepts (hprepared : (q.core.bufs b.index).prepared = false) (h : ¬ Accepts q b) :
    Unchanged (q.bufs b.index) (behind d q b isPrepare) ↔
      ∀ k < (q.bufs b.index).numPlanes, (q.bufs b.index).planes k = ⟨0, 0, 0, 0⟩ := by
  have hbehind : behind d q b isPrepare = (q.bufs b.index).clearPlanes := by
    unfold behind
    rw [copied_of_not_accepts hprepared h, if_neg fun hc => absurd hc.1 (show (-EINVAL : ℤ) ≠ 0 by decide)]
  rw [hbehind]
  constructor
  · intro hun k hk
    rw [← hun.planes]
    exact if_pos hk
  · intro hzero
    refine ⟨funext fun k => ?_, rfl, rfl, rfl, rfl⟩
    by_cases hk : k < (q.bufs b.index).numPlanes
    · rw [hzero k hk]
      exact if_pos hk
    · exact if_neg hk

/-- A buffer that is not prepared, and whose copy is accepted. -/
theorem unchanged_of_accepts (hprepared : (q.core.bufs b.index).prepared = false) (h : Accepts q b) :
    Unchanged (q.bufs b.index) (behind d q b isPrepare) ↔ Repeats d q b isPrepare := by
  obtain ⟨vb, hvb, hsequence, hrequest, hflags, hfield, hplanes⟩ := copied_of_accepts hprepared h
  obtain ⟨hplanes', hflags', hfield', hsequence', hrequest'⟩ :=
    behind_of_copied d isPrepare hvb
  rw [hsequence] at hsequence'
  rw [hrequest] at hrequest'
  rw [hflags] at hflags'
  rw [hfield] at hfield'
  constructor
  · intro hun
    refine ⟨hun.sequence.symm.trans hsequence', hun.requestFd.symm.trans hrequest', hun.flags.symm.trans hflags',
      fun hout => ?_, fun k hk => ?_⟩
    · rw [← hun.field, hfield', if_pos hout]
    · rw [← hun.planes, hplanes', hplanes, if_pos hk]
  · intro hrep
    refine ⟨funext fun k => ?_, hflags'.trans hrep.flags.symm, ?_, hsequence'.trans hrep.sequence.symm,
      hrequest'.trans hrep.requestFd.symm⟩
    · rw [hplanes', hplanes]
      split
      · next hk => exact (hrep.planes k hk).symm
      · rfl
    · rw [hfield']
      split
      · next hout => exact (hrep.field hout).symm
      · rfl

/-- **A call for a buffer that is busy leaves its planes, its flags, its field, its sequence number and its request as
they were if and only if it is harmless**; this holds of the calls that fail, and of the others too. -/
theorem unchanged_iff (hbusy : (q.core.bufs b.index).state ≠ .dequeued) :
    Unchanged (q.bufs b.index) ((vb2Call d find q b isPrepare).1.bufs b.index) ↔ Harmless d q b isPrepare := by
  unfold Harmless
  by_cases haway : TurnedAway q b
  · rw [bufs_of_turnedAway hbusy haway]
    exact ⟨fun _ => .inl haway, fun _ => ⟨rfl, rfl, rfl, rfl, rfl⟩⟩
  · rw [bufs_of_not_turnedAway haway, or_iff_right haway]
    cases hprepared : (q.core.bufs b.index).prepared with
    | true =>
      rw [unchanged_of_prepared hprepared]
      exact ⟨fun h => .inl ⟨rfl, h⟩, fun h => h.elim And.right fun h => h.elim (fun h => Bool.noConfusion h.1)
        fun h => Bool.noConfusion h.1⟩
    | false =>
      by_cases haccepts : Accepts q b
      · rw [unchanged_of_accepts hprepared haccepts]
        exact ⟨fun h => .inr (.inr ⟨rfl, haccepts, h⟩), fun h => h.elim (fun h => Bool.noConfusion h.1)
          fun h => h.elim (fun h => absurd haccepts h.2.1) fun h => h.2.2⟩
      · rw [unchanged_of_not_accepts hprepared haccepts]
        exact ⟨fun h => .inr (.inl ⟨rfl, haccepts, h⟩), fun h => h.elim (fun h => Bool.noConfusion h.1)
          fun h => h.elim (fun h => h.2.2) fun h => absurd h.2.1 haccepts⟩

/-- An output queue that supports requests, with one buffer: it was queued with 100 bytes and the request 5. -/
def oneBusyBuffer (state : BufferState) (prepared : Bool) : V4l2Queue where
  core := { oneBuffer false with isOutput := true, bufs := fun _ => ⟨state, prepared, false, 0, none, none⟩ }
  type := 2
  copyTimestamp := false
  allowZeroBytesused := false
  supportsRequests := true
  fileioActive := false
  hasLock := true
  hasBufRequestComplete := true
  hasBufOutValidate := true
  allocated := fun i => i = 0
  bufs := fun _ => ⟨1, fun _ => ⟨0, 4096, 0, 0⟩, 0, 0, 1, ⟨0, 0, 0, 0, 0, 0, []⟩, 0, 5, fun _ => ⟨100, 4096, 0, 0⟩⟩

/-- The argument of a call for the first buffer, with 50 bytes. -/
def firstBuffer : V4l2Buffer :=
  ⟨0, 2, 50, 0, 1, 0, ⟨0, 0, 0, 0, 0, 0, []⟩, .mmap, 0, none, 0, 0⟩

theorem unchanged_iff_prepared :
    Unchanged ((oneBusyBuffer .queued true).bufs 0)
      ((vb2Call (refusing 0) (fun _ => .error (-EINVAL)) (oneBusyBuffer .queued true) firstBuffer true).1.bufs 0) := by
  refine (unchanged_iff (q := oneBusyBuffer .queued true) (b := firstBuffer) (by decide)).mpr (.inr (.inl ?_))
  decide +kernel

/-- A buffer of a request, that is to be prepared. -/
theorem not_unchanged_prepareBuf :
    ((oneBusyBuffer .inRequest false).core.bufs 0).state ≠ .dequeued ∧
      (vb2Call (refusing 0) (fun _ => .error (-EINVAL)) (oneBusyBuffer .inRequest false) firstBuffer true).2 =
        -EINVAL ∧
      ((oneBusyBuffer .inRequest false).bufs 0).requestFd = 5 ∧
      ((vb2Call (refusing 0) (fun _ => .error (-EINVAL)) (oneBusyBuffer .inRequest false) firstBuffer true).1.bufs
        0).requestFd = -1 ∧
      (((oneBusyBuffer .inRequest false).bufs 0).planes 0).bytesused = 100 ∧
      (((vb2Call (refusing 0) (fun _ => .error (-EINVAL)) (oneBusyBuffer .inRequest false) firstBuffer true).1.bufs
        0).planes 0).bytesused = 50 := by
  decide +kernel

end Vb2
end TbsMedia
