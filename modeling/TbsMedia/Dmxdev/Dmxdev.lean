import TbsMedia.DvbDemux.Demux

/-!
# The demux device

`dmxdev.c`: the filters that the clients of a demux device open, and how they are put on the feeds
and section filters of the demux.  A filter is named by its index, as the feeds and section filters
of the demux are.  Section filters with the same PID share a feed.

What a call cannot foresee is an argument of it: whether memory is found, whether waiting for the
mutex of the demux is interrupted, and what `start_feed` of the driver answers.  What `stop_feed`
answers is looked at by nobody in this file, and is `0` here.

A function returns the error number of the source and the device afterwards, and `none` where the
source follows a null pointer.  The members `sec` and `ts` of the unions `params` and `feed` are
fields of their own.  Left out are `DMX_SET_BUFFER_SIZE`, the reading of the buffer, the memory that
is mapped into a client, and the mutexes of the device itself.
-/

namespace TbsMedia
namespace DemuxDev

open Function
open Demux

/-! ## Constants and data -/

def DMX_FILTER_SIZE : ℕ := 16

def ENOMEM : ℤ := 12

/-- `DMX_CHECK_CRC`: bit 0 of the flags of a section filter. -/
def checkCrcBit (flags : ℕ) : Bool := flags.testBit 0

/-- `DMX_IMMEDIATE_START`: bit 2 of the flags of a filter. -/
def immediateStartBit (flags : ℕ) : Bool := flags.testBit 2

/-- `enum dmxdev_type`. -/
inductive DmxdevType where
  | DMXDEV_TYPE_NONE
  | DMXDEV_TYPE_SEC
  | DMXDEV_TYPE_PES
  deriving DecidableEq

/-- `enum dmxdev_state`. -/
inductive DmxdevState where
  | DMXDEV_STATE_FREE
  | DMXDEV_STATE_ALLOCATED
  | DMXDEV_STATE_SET
  | DMXDEV_STATE_GO
  | DMXDEV_STATE_DONE
  | DMXDEV_STATE_TIMEDOUT
  deriving DecidableEq

/-- `state >= DMXDEV_STATE_SET`. -/
def DmxdevState.geSet : DmxdevState → Bool
  | .DMXDEV_STATE_FREE => false
  | .DMXDEV_STATE_ALLOCATED => false
  | _ => true

/-- `state >= DMXDEV_STATE_GO`. -/
def DmxdevState.geGo : DmxdevState → Bool
  | .DMXDEV_STATE_FREE => false
  | .DMXDEV_STATE_ALLOCATED => false
  | .DMXDEV_STATE_SET => false
  | _ => true

/-- `struct dmx_filter`. -/
structure DmxFilter where
  filter : Fin DMX_FILTER_SIZE → UInt8
  mask : Fin DMX_FILTER_SIZE → UInt8
  mode : Fin DMX_FILTER_SIZE → UInt8

/-- `struct dmx_sct_filter_params`. -/
structure DmxSctFilterParams where
  pid : ℕ
  filter : DmxFilter
  timeout : ℕ
  flags : ℕ

/-- `enum dmx_output`. -/
inductive DmxOutput where
  | DMX_OUT_DECODER
  | DMX_OUT_TAP
  | DMX_OUT_TS_TAP
  | DMX_OUT_TSDEMUX_TAP
  deriving DecidableEq

/-- `struct dmx_pes_filter_params`. -/
structure DmxPesFilterParams where
  pid : ℕ
  output : DmxOutput
  pesType : ℕ
  flags : ℕ

/-- `struct dmxdev_feed`. -/
structure DmxdevFeed where
  pid : ℕ
  ts : Option ℕ

/-- `struct dmxdev_filter`.  Of the buffer there are whether it has memory, whether it is in error,
and, as `written`, what has been given to `dvb_dmxdev_buffer_write` so far. -/
structure DmxdevFilter where
  filterSec : Option ℕ
  feedSec : Option ℕ
  feedTs : List DmxdevFeed
  sec : DmxSctFilterParams
  pes : DmxPesFilterParams
  type : DmxdevType
  state : DmxdevState
  bufferData : Bool
  bufferError : Bool
  timer : Bool
  written : List (List UInt8)

/-- `struct dmxdev`, with the `priv` of the section filters and of the TS feeds of its demux. -/
structure Dmxdev where
  filternum : ℕ
  filter : ℕ → DmxdevFilter
  demux : DvbDemux
  filterPriv : ℕ → Option ℕ
  feedPriv : ℕ → Option ℕ

/-- The device with another filter `k`. -/
def Dmxdev.setFilter (dev : Dmxdev) (k : ℕ) (filter : DmxdevFilter) : Dmxdev :=
  { dev with filter := update dev.filter k filter }

@[simp] theorem filter_setFilter_self (dev : Dmxdev) (k : ℕ) (filter : DmxdevFilter) :
    (dev.setFilter k filter).filter k = filter := update_self ..

/-- `dvb_dmxdev_filter_state_set`. -/
def dvbDmxdevFilterStateSet (dev : Dmxdev) (k : ℕ) (state : DmxdevState) : Dmxdev :=
  dev.setFilter k { dev.filter k with state }

/-- `dvb_ringbuffer_flush(&filter->buffer)`. -/
def flushBuffer (dev : Dmxdev) (k : ℕ) : Dmxdev :=
  dev.setFilter k { dev.filter k with bufferError := false }

/-! ## The callbacks -/

/-- The callback of the device answers `0` and leaves the flags alone. -/
def dmxdevOps (checkCrc32 : UInt32 → List UInt8 → UInt32) : DemuxOps where
  checkCrc32 := checkCrc32
  hasDecoder := false
  cbSecRet _ := 0
  cbSecFlags _ flags := flags
  cbTsFlags _ flags := flags

/-- Feed `i`, with a section of `len` bytes at address `a` of the memory `m`. -/
def Dmxdev.feedWith (dev : Dmxdev) (i : ℕ) (m : Lib.Mem UInt8) (a len : ℕ) : DvbDemuxFeed :=
  { dev.demux.feed i with
    sec.secbufBase := m, sec.secbuf := a, sec.seclen := len, sec.crcVal := 0xffffffff }

/-- `dvb_dmxdev_filter_timer`. -/
def dvbDmxdevFilterTimer (dev : Dmxdev) (k : ℕ) : Dmxdev :=
  dev.setFilter k { dev.filter k with timer := (dev.filter k).sec.timeout ≠ 0 }

/-! ## Starting and stopping feeds -/

/-- What a call of `start_filtering` meets. -/
structure StartAnswer where
  interrupted : Bool
  ret : ℤ

/-- `feed->ts->stop_filtering(feed->ts)` for all feeds of a PES filter. -/
def stopTsFeeds (dev : Dmxdev) : List DmxdevFeed → Option Dmxdev
  | [] => some dev
  | feed :: feeds =>
    match feed.ts with
    | none => none
    | some i =>
      stopTsFeeds { dev with demux := (dmxTsFeedStopFiltering dev.demux i 0).2 } feeds

/-- `dvb_dmxdev_feed_stop`. -/
def dvbDmxdevFeedStop (dev : Dmxdev) (k : ℕ) : Option (ℤ × Dmxdev) :=
  let dev := dvbDmxdevFilterStateSet dev k .DMXDEV_STATE_SET
  match (dev.filter k).type with
  | .DMXDEV_TYPE_SEC =>
    match (dev.filter k).feedSec with
    | none => none
    | some i =>
      let dev := dev.setFilter k { dev.filter k with timer := false }
      some (0, { dev with demux := (dmxSectionFeedStopFiltering dev.demux i 0).2 })
  | .DMXDEV_TYPE_PES => (stopTsFeeds dev (dev.filter k).feedTs).map fun dev => (0, dev)
  | .DMXDEV_TYPE_NONE => some (-EINVAL, dev)

/-- `feed->ts->start_filtering(feed->ts)` for all feeds of PES filter `k`, up to an error. -/
def startTsFeeds (ans : ℕ → StartAnswer) (dev : Dmxdev) (k : ℕ) :
    ℕ → List DmxdevFeed → Option (ℤ × Dmxdev)
  | _, [] => some (0, dev)
  | n, feed :: feeds =>
    match feed.ts with
    | none => none
    | some i =>
      let r := dmxTsFeedStartFiltering dev.demux i (ans n).interrupted (ans n).ret
      let dev := { dev with demux := r.2 }
      if r.1 < 0 then (dvbDmxdevFeedStop dev k).map fun s => (r.1, s.2)
      else startTsFeeds ans dev k (n + 1) feeds

/-- `dvb_dmxdev_feed_start`. -/
def dvbDmxdevFeedStart (ans : ℕ → StartAnswer) (dev : Dmxdev) (k : ℕ) : Option (ℤ × Dmxdev) :=
  let dev := dvbDmxdevFilterStateSet dev k .DMXDEV_STATE_GO
  match (dev.filter k).type with
  | .DMXDEV_TYPE_SEC =>
    match (dev.filter k).feedSec with
    | none => none
    | some i =>
      let r := dmxSectionFeedStartFiltering dev.demux i (ans 0).interrupted (ans 0).ret
      some (r.1, { dev with demux := r.2 })
  | .DMXDEV_TYPE_PES => startTsFeeds ans dev k 0 (dev.filter k).feedTs
  | .DMXDEV_TYPE_NONE => some (-EINVAL, dev)

/-- Filter `k` is an active section filter for `pid`. -/
def Active (dev : Dmxdev) (pid k : ℕ) : Prop :=
  (dev.filter k).state.geGo = true ∧ (dev.filter k).type = .DMXDEV_TYPE_SEC ∧
    (dev.filter k).sec.pid = pid

instance (dev : Dmxdev) (pid k : ℕ) : Decidable (Active dev pid k) :=
  inferInstanceAs (Decidable (_ ∧ _))

/-- The first active section filter for `pid`. -/
def findActive (dev : Dmxdev) (pid : ℕ) : Option ℕ :=
  (List.range dev.filternum).find? fun k => Active dev pid k

/-- `dvb_dmxdev_feed_restart`. -/
def dvbDmxdevFeedRestart (ans : ℕ → StartAnswer) (dev : Dmxdev) (k : ℕ) : Option Dmxdev :=
  match findActive dev (dev.filter k).sec.pid with
  | some k' => (dvbDmxdevFeedStart ans dev k').map Prod.snd
  | none =>
    match (dev.filter k).feedSec with
    | none => none
    | some i => some { dev with demux := (dvbdmxReleaseSectionFeed dev.demux i).2 }

/-- `demux->release_ts_feed` for all feeds of a PES filter. -/
def releaseTsFeeds (dev : Dmxdev) : List DmxdevFeed → Option Dmxdev
  | [] => some dev
  | feed :: feeds =>
    match feed.ts with
    | none => none
    | some i => releaseTsFeeds { dev with demux := (dvbdmxReleaseTsFeed dev.demux i).2 } feeds

/-- `release_filter` for the section filter that filter `k` has on feed `i`, if any. -/
def releaseSecFilter (dev : Dmxdev) (k i : ℕ) : Option Dmxdev :=
  match (dev.filter k).filterSec with
  | none => some dev
  | some j =>
    (dmxSectionFeedReleaseFilter dev.demux i j 0).map fun r => { dev with demux := r.2 }

/-- `dvb_dmxdev_filter_stop`.  `ans` is for the restart of a shared feed. -/
def dvbDmxdevFilterStop (ans : ℕ → StartAnswer) (dev : Dmxdev) (k : ℕ) : Option (ℤ × Dmxdev) :=
  if !(dev.filter k).state.geGo then some (0, dev)
  else
    match (dev.filter k).type with
    | .DMXDEV_TYPE_SEC =>
      match (dev.filter k).feedSec with
      | none => some (0, flushBuffer dev k)
      | some i => do
        let (_, dev) ← dvbDmxdevFeedStop dev k
        let dev ← releaseSecFilter dev k i
        let dev ← dvbDmxdevFeedRestart ans dev k
        let dev := dev.setFilter k { dev.filter k with feedSec := none }
        some (0, flushBuffer dev k)
    | .DMXDEV_TYPE_PES => do
      let (_, dev) ← dvbDmxdevFeedStop dev k
      let dev ← releaseTsFeeds dev (dev.filter k).feedTs
      let dev := dev.setFilter k { dev.filter k with
        feedTs := (dev.filter k).feedTs.map fun feed => { feed with ts := none } }
      some (0, flushBuffer dev k)
    | .DMXDEV_TYPE_NONE => some (-EINVAL, dev)

/-! ## Starting a filter -/

/-- What `dvb_dmxdev_start_feed` meets in the demux: whether it is interrupted in `allocate_ts_feed`
and in `set`, and what `start_filtering` meets. -/
structure TsAnswers where
  allocate : Bool
  overlay : DmxSectionFeed
  set : Bool
  start : StartAnswer

/-- What `dvb_dmxdev_filter_start` meets: in the stop of the filter, in its own `vmalloc`, in the
functions of the section feed (`again` is the second start after a filter could not be allocated),
and with each PID of a PES filter. -/
structure StartAnswers where
  stop : ℕ → StartAnswer
  vmalloc : Bool
  allocateFeed : Bool
  set : Bool
  allocateFilter : Bool
  restart : ℕ → StartAnswer
  again : StartAnswer
  start : StartAnswer
  ts : ℕ → TsAnswers

/-- The `ts_type` that `dvb_dmxdev_start_feed` asks for. -/
def tsTypeOf (para : DmxPesFilterParams) : ℕ :=
  (if para.pesType < DMX_PES_OTHER then 4 else 0) |||
    match para.output with
    | .DMX_OUT_TS_TAP => 1
    | .DMX_OUT_TSDEMUX_TAP => 1 ||| 8
    | .DMX_OUT_TAP => 1 ||| 8 ||| 2
    | .DMX_OUT_DECODER => 0

/-- `dvb_dmxdev_start_feed`: the error number, the feed, and the device.  The pointer to the new feed
and its `priv` are written as soon as there is a slot, also when the allocation fails behind that. -/
def dvbDmxdevStartFeed (ans : TsAnswers) (dev : Dmxdev) (k : ℕ) (feed : DmxdevFeed) :
    ℤ × DmxdevFeed × Dmxdev :=
  let para := (dev.filter k).pes
  let slot := if ans.allocate then none else (dvbDmxFeedAlloc dev.demux).map Prod.fst
  let r := dvbdmxAllocateTsFeed dev.demux ans.allocate ans.overlay
  match slot with
  | none => (r.1, { feed with ts := none }, { dev with demux := r.2 })
  | some i =>
    let feed := { feed with ts := some i }
    if r.1 < 0 then
      (r.1, feed, { dev with demux := r.2, feedPriv := update dev.feedPriv i none })
    else
      let dev := { dev with demux := r.2, feedPriv := update dev.feedPriv i (some k) }
      let s := dmxTsFeedSet dev.demux i ans.set feed.pid (tsTypeOf para) para.pesType
      if s.1 < 0 then (s.1, feed, { dev with demux := (dvbdmxReleaseTsFeed s.2 i).2 })
      else
        let t := dmxTsFeedStartFiltering s.2 i ans.start.interrupted ans.start.ret
        if t.1 < 0 then (t.1, feed, { dev with demux := (dvbdmxReleaseTsFeed t.2 i).2 })
        else (0, feed, { dev with demux := t.2 })

/-- The `DMXDEV_TYPE_PES` case of `dvb_dmxdev_filter_start`: the loop over the PIDs.  It returns the
error number, the feeds that it has come past, and the device. -/
def startPids (ans : ℕ → TsAnswers) (k : ℕ) :
    ℕ → List DmxdevFeed → Dmxdev → ℤ × List DmxdevFeed × Dmxdev
  | _, [], dev => (0, [], dev)
  | n, feed :: feeds, dev =>
    let r := dvbDmxdevStartFeed (ans n) dev k feed
    if r.1 < 0 then (r.1, r.2.1 :: feeds, r.2.2)
    else
      let s := startPids ans k (n + 1) feeds r.2.2
      (s.1, r.2.1 :: s.2.1, s.2.2)

/-- `old` with byte 0 of `para` at its place, and the others from byte 3 on. -/
def copyTo (para : Fin DMX_FILTER_SIZE → UInt8) (old : Fin DVB_DEMUX_MASK_MAX → UInt8)
    (i : Fin DVB_DEMUX_MASK_MAX) : UInt8 :=
  if i.val = 0 then para ⟨0, by decide⟩
  else if h : 3 ≤ i.val then
    para ⟨i.val - 2, by have := i.isLt; change i.val - 2 < 16; change i.val < 18 at this; omega⟩
  else old i

/-- What the client of a section filter asks for, as the demux has it.  Bytes 1 and 2 are masked
out. -/
def sectionFilterOf (para : DmxFilter) (old : DmxSectionFilter) : DmxSectionFilter where
  filterValue := copyTo para.filter old.filterValue
  filterMask := copyTo para.mask fun _ => 0
  filterMode := copyTo para.mode old.filterMode

/-- A section filter is put on feed `i`, and the feed started. -/
def addSecFilter (ans : StartAnswers) (dev : Dmxdev) (k i : ℕ) : Option (ℤ × Dmxdev) :=
  let para := (dev.filter k).sec
  let slot := if ans.allocateFilter then none else (dvbDmxFilterAlloc dev.demux).map Prod.fst
  let r := dmxSectionFeedAllocateFilter dev.demux i ans.allocateFilter
  match slot with
  | none => do
    let dev ← dvbDmxdevFeedRestart ans.restart { dev with demux := r.2 } k
    let s := dmxSectionFeedStartFiltering dev.demux i ans.again.interrupted ans.again.ret
    some (r.1, { dev with demux := s.2 })
  | some j =>
    let filter := sectionFilterOf para.filter (r.2.filterMem j).filter
    let dev := (dev.setFilter k { dev.filter k with filterSec := some j })
    let t := dmxSectionFeedStartFiltering (fillSectionFilter r.2 i j filter) i
      ans.start.interrupted ans.start.ret
    let dev := { dev with demux := t.2, filterPriv := update dev.filterPriv j (some k) }
    if t.1 < 0 then some (t.1, dev) else some (0, dvbDmxdevFilterTimer dev k)

/-- The `DMXDEV_TYPE_SEC` case of `dvb_dmxdev_filter_start`. -/
def startSection (ans : StartAnswers) (dev : Dmxdev) (k : ℕ) : Option (ℤ × Dmxdev) :=
  let para := (dev.filter k).sec
  -- an active filter with the same PID gives its feed
  match (findActive dev para.pid).bind fun k' => (dev.filter k').feedSec with
  | none =>
    let slot := if ans.allocateFeed then none else (dvbDmxFeedAlloc dev.demux).map Prod.fst
    let r := dvbdmxAllocateSectionFeed dev.demux ans.allocateFeed
    match slot with
    | none => some (r.1, { dev with demux := r.2 })
    | some i =>
      let dev := dev.setFilter k { dev.filter k with feedSec := some i }
      let s := dmxSectionFeedSet r.2 i ans.set para.pid (checkCrcBit para.flags)
      let dev := { dev with demux := s.2, feedPriv := update dev.feedPriv i none }
      if s.1 < 0 then (dvbDmxdevFeedRestart ans.restart dev k).map fun dev => (s.1, dev)
      else addSecFilter ans dev k i
  | some i => do
    let (_, dev) ← dvbDmxdevFeedStop (dev.setFilter k { dev.filter k with feedSec := some i }) k
    addSecFilter ans dev k i

/-- The stop at the start of `dvb_dmxdev_filter_start`. -/
def stopFirst (ans : StartAnswers) (dev : Dmxdev) (k : ℕ) : Option Dmxdev :=
  if (dev.filter k).state.geGo then (dvbDmxdevFilterStop ans.stop dev k).map Prod.snd else some dev

/-- What `dvb_dmxdev_filter_start` does with a filter that is set and not active. -/
def startStopped (ans : StartAnswers) (dev : Dmxdev) (k : ℕ) : Option (ℤ × Dmxdev) :=
  if !(dev.filter k).bufferData && !ans.vmalloc then some (-ENOMEM, dev)
  else
    let dev := dev.setFilter k { dev.filter k with bufferData := true, bufferError := false }
    match (dev.filter k).type with
    | .DMXDEV_TYPE_SEC => do
      let dev := dev.setFilter k { dev.filter k with filterSec := none, feedSec := none }
      let (ret, dev) ← startSection ans dev k
      if ret < 0 then some (ret, dev) else some (0, dvbDmxdevFilterStateSet dev k .DMXDEV_STATE_GO)
    | .DMXDEV_TYPE_PES =>
      let r := startPids ans.ts k 0 (dev.filter k).feedTs dev
      let dev := r.2.2.setFilter k { r.2.2.filter k with feedTs := r.2.1 }
      if r.1 < 0 then (dvbDmxdevFilterStop ans.stop dev k).map fun s => (r.1, s.2)
      else some (0, dvbDmxdevFilterStateSet dev k .DMXDEV_STATE_GO)
    | .DMXDEV_TYPE_NONE => some (-EINVAL, dev)

/-- `dvb_dmxdev_filter_start`. -/
def dvbDmxdevFilterStart (ans : StartAnswers) (dev : Dmxdev) (k : ℕ) : Option (ℤ × Dmxdev) :=
  if !(dev.filter k).state.geSet then some (-EINVAL, dev)
  else (stopFirst ans dev k).bind fun dev => startStopped ans dev k

/-! ## What the clients call -/

/-- `invert_mode`. -/
def invertMode (filter : DmxFilter) : DmxFilter :=
  { filter with mode := fun i => filter.mode i ^^^ 0xff }

/-- `dvb_dmxdev_filter_set`. -/
def dvbDmxdevFilterSet (ans : StartAnswers) (dev : Dmxdev) (k : ℕ) (params : DmxSctFilterParams) :
    Option (ℤ × Dmxdev) := do
  let (_, dev) ← dvbDmxdevFilterStop ans.stop dev k
  let dev := dev.setFilter k { dev.filter k with
    type := .DMXDEV_TYPE_SEC
    sec := { params with filter := invertMode params.filter }
    state := .DMXDEV_STATE_SET }
  if immediateStartBit params.flags then dvbDmxdevFilterStart ans dev k else some (0, dev)

end DemuxDev
end TbsMedia
