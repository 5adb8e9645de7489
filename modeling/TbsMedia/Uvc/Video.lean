import Mathlib
import TbsMedia.Lib.Memory
import TbsMedia.Lib.Runs

/-!
# Decoding a UVC stream

`uvc_video.c` and `uvc_queue.c`, from the URBs of a capture stream to the buffers that are given back.
Frames come in payloads with a header, whose frame id bit changes from one frame to the next.  The
decoder looks at the headers and sets up copy operations, which a work item for each URB runs later.
Each operation has a reference on its buffer, and so has the queue.  The buffer is given back with the
last one.

A packet of an isochronous URB is one step, a bulk URB is one, and so is each copy operation.  In between
buffers are queued.  A buffer that is queued in the middle of a packet may as well be queued in front of
it, or behind it if the decoder has found the queue empty.

Six fields of the state have no counterpart in the source: `prevFid` and `frames` count how often the
frame id has changed from one payload to the next, `frame` is that count where a buffer became active,
`completed` are the buffers that the decoder is done with, and `given` are those given back.

* `decodeStart`, `decodeData`, `decodeEnd`: the three parts of decoding.
* `decodeIsocPacket`, `decodeBulk`: what is done with a packet, and with a bulk URB.
* `step`: what can happen.
-/

namespace TbsMedia
namespace Uvc

open Function Lib

def UVC_STREAM_FID : UInt8 := 1
def UVC_STREAM_EOF : UInt8 := 2
def UVC_STREAM_ERR : UInt8 := 64

/-- `enum uvc_buffer_state`. -/
inductive BufState where
  | idle | queued | active | ready | done | error
  deriving DecidableEq

/-- `struct uvc_buffer`. -/
structure UvcBuffer where
  state : BufState
  error : Bool
  mem : Mem UInt8
  length : ℕ
  bytesused : ℕ
  sequence : UInt32
  ref : ℕ
  frame : ℕ

/-- `struct uvc_copy_op`: the buffer, the offset in it, and the bytes. -/
structure CopyOp where
  buf : ℕ
  dst : ℕ
  bytes : List UInt8

/-- What the bulk completion handler keeps. -/
structure Bulk where
  header : List UInt8
  headerSize : ℕ
  skipPayload : Bool
  payloadSize : ℕ
  maxPayloadSize : ℕ

/-- A buffer that has been given back. -/
structure Given where
  frame : ℕ
  sequence : UInt32
  error : Bool
  bytes : List UInt8

/-- A stream with its queue and its buffers.  `isoc` says which function decodes it.  `buf` is the buffer of the URB that is decoded, `ops` are
its copy operations, and `works` are the work items of the URBs before it. -/
structure Stream where
  isoc : Bool
  dwMaxVideoFrameSize : ℕ
  compressed : Bool
  noFid : Bool
  dropCorrupted : Bool
  lastFid : UInt8
  sequence : UInt32
  bulk : Bulk
  irqqueue : List ℕ
  bufs : ℕ → UvcBuffer
  buf : Option ℕ
  ops : List CopyOp
  works : List (List CopyOp)
  prevFid : Option UInt8
  frames : ℕ
  completed : List ℕ
  given : List Given

/-- The stream as `uvc_video_start_streaming` leaves it: no buffer has been queued yet. -/
def Stream.init (isoc : Bool) (dwMaxVideoFrameSize maxPayloadSize : ℕ)
    (compressed noFid dropCorrupted : Bool) (bufs : ℕ → UvcBuffer) : Stream where
  isoc := isoc
  dwMaxVideoFrameSize := dwMaxVideoFrameSize
  compressed := compressed
  noFid := noFid
  dropCorrupted := dropCorrupted
  lastFid := -1
  sequence := -1
  bulk := ⟨[], 0, false, 0, maxPayloadSize⟩
  irqqueue := []
  bufs := fun a => { bufs a with state := .idle }
  buf := none
  ops := []
  works := []
  prevFid := none
  frames := 0
  completed := []
  given := []

/-- A buffer is written to. -/
def Stream.set (s : Stream) (a : ℕ) (b : UvcBuffer) : Stream := { s with bufs := update s.bufs a b }

/-! ## The queue -/

/-- `uvc_buffer_queue`. -/
def bufferQueue (s : Stream) (a : ℕ) : Stream :=
  { s.set a { s.bufs a with ref := 1 } with irqqueue := s.irqqueue ++ [a] }

/-- `uvc_queue_buffer_requeue`. -/
def queueBufferRequeue (s : Stream) (a : ℕ) : Stream :=
  bufferQueue (s.set a { s.bufs a with error := false, state := .queued, bytesused := 0 }) a

/-- `uvc_queue_buffer_complete`. -/
def queueBufferComplete (s : Stream) (a : ℕ) : Stream :=
  let b := s.bufs a
  if s.dropCorrupted && b.error then queueBufferRequeue s a
  else
    let s := s.set a { b with state := if b.error then .error else .done }
    { s with given := s.given ++ [⟨b.frame, b.sequence, b.error, b.mem.read 0 b.bytesused⟩] }

/-- `uvc_queue_buffer_release`. -/
def queueBufferRelease (s : Stream) (a : ℕ) : Stream :=
  let s := s.set a { s.bufs a with ref := (s.bufs a).ref - 1 }
  if (s.bufs a).ref = 0 then queueBufferComplete s a else s

/-- `uvc_queue_next_buffer`. -/
def queueNextBuffer (s : Stream) (a : ℕ) : Stream :=
  let irqqueue := s.irqqueue.erase a
  queueBufferRelease { s with irqqueue := irqqueue, buf := irqqueue.head? } a

/-- `uvc_buffer_prepare`, and `uvc_buffer_queue` behind it. -/
def prepareAndQueue (s : Stream) (a : ℕ) (mem : Mem UInt8) (length : ℕ) : Stream :=
  bufferQueue (s.set a
    { s.bufs a with state := .queued, error := false, mem := mem, length := length, bytesused := 0 }) a

/-! ## Payloads -/

/-- The byte at the front of a header, its length. -/
def headerLength (data : List UInt8) : ℕ := (data.getD 0 0).toNat

/-- The frame id of a payload. -/
def fid (data : List UInt8) : UInt8 := data.getD 1 0 &&& UVC_STREAM_FID

/-- One of the other bits of a header. -/
def bit (data : List UInt8) (mask : UInt8) : Bool := data.getD 1 0 &&& mask != 0

/-- The sanity checks of `uvc_video_decode_start`. -/
def Invalid (data : List UInt8) : Prop :=
  data.length < 2 ∨ headerLength data < 2 ∨ headerLength data > data.length

instance (data : List UInt8) : Decidable (Invalid data) := inferInstanceAs (Decidable (_ ∨ _ ∨ _))

/-- What `uvc_video_decode_start` returns: the length of the header, or an error. -/
inductive Start where
  | header (n : ℕ)
  | inval
  | nodata
  | again
  deriving DecidableEq

/-- A buffer becomes active. -/
def activate (s : Stream) (a : ℕ) : Stream :=
  s.set a { s.bufs a with sequence := s.sequence, state := .active, frame := s.frames }

/-- The part of `uvc_video_decode_start` that looks for the end of a frame, with an active buffer. -/
def detectEnd (s : Stream) (a : ℕ) (data : List UInt8) : Start × Stream :=
  if fid data ≠ s.lastFid ∧ (s.bufs a).bytesused ≠ 0 then
    (.again, s.set a { s.bufs a with state := .ready })
  else (.header (headerLength data), { s with lastFid := fid data })

/-- The error bit marks the buffer. -/
def markError (s : Stream) (a : ℕ) (data : List UInt8) : Stream :=
  if bit data UVC_STREAM_ERR then s.set a { s.bufs a with error := true } else s

/-- A device that does not toggle the frame id has ended a frame. -/
def invertFid (s : Stream) : Stream :=
  if s.noFid then { s with lastFid := s.lastFid ^^^ UVC_STREAM_FID } else s

/-- The part of `uvc_video_decode_start` that waits for the start of a frame, without an active buffer. -/
def awaitStart (s : Stream) (a : ℕ) (data : List UInt8) : Start × Stream :=
  if fid data = s.lastFid then (.nodata, if bit data UVC_STREAM_EOF then invertFid s else s)
  else detectEnd (activate s a) a data

/-- The part of `uvc_video_decode_start` with a buffer. -/
def synchronize (s : Stream) (a : ℕ) (data : List UInt8) : Start × Stream :=
  if (s.bufs a).state ≠ .active then awaitStart s a data else detectEnd s a data

/-- The sequence number counts the frames. -/
def advance (s : Stream) (data : List UInt8) : Stream :=
  if s.lastFid ≠ fid data then { s with sequence := s.sequence + 1 } else s

/-- `uvc_video_decode_start`. -/
def decodeStart (s : Stream) (data : List UInt8) : Start × Stream :=
  if Invalid data then (.inval, s)
  else
    let s := advance s data
    match s.buf with
    | none => (.nodata, { s with lastFid := fid data })
    | some a => synchronize (markError s a data) a data

/-- `uvc_video_decode_data`. -/
def decodeData (s : Stream) (a : ℕ) (data : List UInt8) : Stream :=
  if data.length = 0 then s
  else
    let b := s.bufs a
    let maxlen := b.length - b.bytesused
    let len := min data.length maxlen
    let op : CopyOp := ⟨a, b.bytesused, data.take len⟩
    let b := { b with ref := b.ref + 1, bytesused := b.bytesused + len }
    let b := if data.length > maxlen then { b with error := true, state := .ready } else b
    { s.set a b with ops := s.ops ++ [op] }

/-- `uvc_video_decode_end`. -/
def decodeEnd (s : Stream) (a : ℕ) (data : List UInt8) : Stream :=
  if bit data UVC_STREAM_EOF ∧ (s.bufs a).bytesused ≠ 0 then
    invertFid (s.set a { s.bufs a with state := .ready })
  else s

/-- `uvc_video_validate_buffer`. -/
def validateBuffer (s : Stream) (a : ℕ) : Stream :=
  if s.dwMaxVideoFrameSize ≠ (s.bufs a).bytesused ∧ ¬ s.compressed then
    s.set a { s.bufs a with error := true }
  else s

/-- `uvc_video_next_buffers`. -/
def nextBuffers (s : Stream) (a : ℕ) : Stream :=
  let s := validateBuffer s a
  queueNextBuffer { s with completed := s.completed ++ [(s.bufs a).frame] } a

/-! ## URBs -/

/-- How often the frame id has changed. -/
def countFrame (s : Stream) (data : List UInt8) : Stream :=
  if Invalid data ∨ s.prevFid = some (fid data) then s
  else { s with prevFid := some (fid data), frames := s.frames + 1 }

/-- The loop around `uvc_video_decode_start`, which goes on with the next buffer.  Buffers behind the
first one are empty, so it is never left for want of rounds. -/
def startLoop : ℕ → Stream → List UInt8 → Start × Stream
  | 0, s, _ => (.again, s)
  | rounds + 1, s, data =>
    match decodeStart s data, s.buf with
    | (.again, s), some a => startLoop rounds (nextBuffers s a) data
    | result, _ => result

/-- The header is decoded, and the buffer that is there behind it. -/
def start (s : Stream) (data : List UInt8) : Start × Stream :=
  startLoop (s.irqqueue.length + 1) (countFrame s data) data

/-- A buffer that is ready goes. -/
def nextIfReady (s : Stream) (a : ℕ) : Stream :=
  if (s.bufs a).state = .ready then nextBuffers s a else s

/-- Something is done with the buffer, if there is one. -/
def withBuf (s : Stream) (f : ℕ → Stream) : Stream := s.buf.elim s f

/-- The body of the loop of `uvc_video_decode_isoc`: a packet, which may have been lost. -/
def decodeIsocPacket (s : Stream) (lost : Bool) (data : List UInt8) : Stream :=
  if lost then withBuf s fun a => s.set a { s.bufs a with error := true }
  else
    match start s data with
    | (.header n, s) => withBuf s fun a => nextIfReady (decodeEnd (decodeData s a (data.drop n)) a data) a
    | (_, s) => s

/-- The first URB of a bulk payload: its header is decoded and saved.  Gives the data behind it. -/
def bulkStart (s : Stream) (data : List UInt8) : List UInt8 × Stream :=
  match start s data with
  | (.header n, s) =>
    if s.buf.isSome then (data.drop n, { s with bulk.header := data.take n, bulk.headerSize := n })
    else (data, { s with bulk.skipPayload := true })
  | (_, s) => (data, { s with bulk.skipPayload := true })

/-- The data of a bulk URB. -/
def bulkData (s : Stream) (data : List UInt8) : Stream :=
  if s.bulk.skipPayload then s else withBuf s fun a => decodeData s a data

/-- The header of a bulk payload is processed again at its end. -/
def bulkFinish (s : Stream) : Stream :=
  if s.bulk.skipPayload then s else withBuf s fun a => nextIfReady (decodeEnd s a s.bulk.header) a

/-- The end of a bulk payload. -/
def bulkEnd (s : Stream) : Stream :=
  { bulkFinish s with bulk.headerSize := 0, bulk.skipPayload := false, bulk.payloadSize := 0 }

/-- The part of `uvc_video_decode_bulk` behind the check for a URB that is not part of a frame. -/
def decodeUrb (s : Stream) (data : List UInt8) (transferLength : ℕ) : Stream :=
  let r := if s.bulk.headerSize = 0 ∧ ¬ s.bulk.skipPayload then bulkStart s data else (data, s)
  let s := bulkData r.2 r.1
  if data.length < transferLength ∨ s.bulk.payloadSize ≥ s.bulk.maxPayloadSize then bulkEnd s else s

/-- `uvc_video_decode_bulk`, for a URB of `transferLength` bytes of which `data` have come. -/
def decodeBulk (s : Stream) (data : List UInt8) (transferLength : ℕ) : Stream :=
  if data.length = 0 ∧ s.bulk.headerSize = 0 then s
  else
    decodeUrb { s with bulk.payloadSize := (s.bulk.payloadSize + data.length) % 2 ^ 32 } data transferLength

/-! ## What can happen -/

/-- One event. -/
inductive Event where
  /-- A buffer is queued, with its memory. -/
  | queue (a : ℕ) (mem : Mem UInt8) (length : ℕ)
  /-- `uvc_video_complete`: a URB has come, and the buffer for it is looked up. -/
  | complete
  /-- The next packet of an isochronous URB is decoded. -/
  | packet (lost : Bool) (data : List UInt8)
  /-- A bulk URB is decoded. -/
  | bulk (data : List UInt8) (transferLength : ℕ)
  /-- The work item of the URB is queued. -/
  | queueWork
  /-- One of the work items copies, and releases the buffer. -/
  | copy (k : ℕ)

/-- A buffer can be queued if it is not with the driver. -/
def UvcBuffer.free (b : UvcBuffer) : Bool := b.state == .idle || b.state == .done || b.state == .error

/-- `memcpy` for a copy operation, and the release of its buffer. -/
def runCopy (s : Stream) (op : CopyOp) : Stream :=
  queueBufferRelease
    (s.set op.buf { s.bufs op.buf with mem := (s.bufs op.buf).mem.write op.dst op.bytes }) op.buf

/-- One step.  It is `none` where a buffer is still with the driver, the work item of the URB before has not
been queued, the stream is of the other kind, or there is nothing to copy. -/
def step (s : Stream) : Event → Option Stream
  | .queue a mem length => if (s.bufs a).free then some (prepareAndQueue s a mem length) else none
  | .complete => if s.ops = [] then some { s with buf := s.irqqueue.head? } else none
  | .packet lost data => if s.isoc then some (decodeIsocPacket s lost data) else none
  | .bulk data transferLength => if s.isoc then none else some (decodeBulk s data transferLength)
  | .queueWork => some { s with works := if s.ops = [] then s.works else s.works ++ [s.ops], ops := [] }
  | .copy k =>
    match s.works[k]? with
    | some (op :: ops) => some (runCopy { s with works := s.works.set k ops } op)
    | _ => none

end Uvc
end TbsMedia
