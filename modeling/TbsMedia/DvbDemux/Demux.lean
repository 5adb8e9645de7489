import Mathlib
import TbsMedia.DvbDemux.SectionFeed

/-!
# The demux

`struct dvb_demux` of `dvb_demux.c`: the pools of feeds and section filters, the list of the feeds
that take part in the distribution of packets, the operations of the feeds, and that distribution.

A feed is named by its slot, the index into the pool, and a filter likewise.  The slots come from
`vmalloc` and are never cleared, so `dvbDmxInit` leaves in them whatever was there.  A filter that
has been allocated lives in the `filter` list of its feed, and a free one in `filterMem`.

What a driver and a client decide is an argument of an operation: whether waiting for the mutex is
interrupted, and what `start_feed` and `stop_feed` answer.  Operations return the error number of
the source and the demux afterwards.
-/

namespace TbsMedia
namespace Demux

open Function

/-! ## Constants -/

def MAX_PID : ℕ := 0x1fff
def DMX_MAX_PID : ℕ := 0x2000
def DMX_PES_OTHER : ℕ := 20

def EINVAL : ℤ := 22
def EBUSY : ℤ := 16
def ENODEV : ℤ := 19
def ERESTARTSYS : ℤ := 512

/-- `TS_PACKET`: bit 0 of a `ts_type`. -/
def tsPacketBit (tsType : ℕ) : Bool := tsType.testBit 0

/-- `TS_PAYLOAD_ONLY`: bit 1 of a `ts_type`. -/
def tsPayloadOnlyBit (tsType : ℕ) : Bool := tsType.testBit 1

/-- `TS_DECODER`: bit 2 of a `ts_type`. -/
def tsDecoderBit (tsType : ℕ) : Bool := tsType.testBit 2

/-- `TS_DEMUX`: bit 3 of a `ts_type`. -/
def tsDemuxBit (tsType : ℕ) : Bool := tsType.testBit 3

/-! ## Data -/

/-- `struct dvb_demux`.  `filterState` and `filterFeed` are the `state` and the `feed` of the filters
of the pool, `startFeed` and `stopFeed` whether the driver has set these functions. -/
structure DvbDemux where
  filternum : ℕ
  feednum : ℕ
  startFeed : Bool
  stopFeed : Bool
  filterMem : ℕ → DvbDemuxFilter
  filterState : ℕ → DvbDmxState
  filterFeed : ℕ → ℕ
  feed : ℕ → DvbDemuxFeed
  feedList : List ℕ
  pesfilter : ℕ → Option ℕ
  pids : ℕ → ℕ
  cntStorage : Option (ℕ → ℕ)

/-- The demux with another feed in slot `i`. -/
def DvbDemux.setFeed (demux : DvbDemux) (i : ℕ) (feed : DvbDemuxFeed) : DvbDemux :=
  { demux with feed := update demux.feed i feed }

@[simp] theorem feed_setFeed_self (demux : DvbDemux) (i : ℕ) (feed : DvbDemuxFeed) :
    (demux.setFeed i feed).feed i = feed := update_self ..

theorem feed_setFeed_of_ne {i k : ℕ} (h : i ≠ k) (demux : DvbDemux) (feed : DvbDemuxFeed) :
    (demux.setFeed k feed).feed i = demux.feed i := update_of_ne h ..

/-- `dvb_dmx_init`, on slots that hold `feed` and `filterMem` and with the counters in
`cntStorage`. -/
def dvbDmxInit (filternum feednum : ℕ) (startFeed stopFeed : Bool) (filterMem : ℕ → DvbDemuxFilter)
    (feed : ℕ → DvbDemuxFeed) (filterFeed : ℕ → ℕ) (cntStorage : Option (ℕ → ℕ)) : DvbDemux where
  filternum := filternum
  feednum := feednum
  startFeed := startFeed
  stopFeed := stopFeed
  filterMem := fun i => { filterMem i with index := i }
  filterState := fun _ => .DMX_STATE_FREE
  filterFeed := filterFeed
  feed := fun i => { feed i with state := .DMX_STATE_FREE }
  feedList := []
  pesfilter := fun _ => none
  pids := fun _ => 0xffff
  cntStorage := cntStorage

/-! ## Distribution of packets -/

variable (ops : DemuxOps)

/-- `feed->cb.ts(buf, …)`. -/
def cbTs (feed : DvbDemuxFeed) (buf : List UInt8) : DvbDemuxFeed :=
  let tsCalls := feed.tsCalls ++ [buf]
  { feed with tsCalls, bufferFlags := ops.cbTsFlags tsCalls feed.bufferFlags }

/-- `dvb_dmx_swfilter_payload`. -/
def dvbDmxSwfilterPayload (feed : DvbDemuxFeed) (buf : TsPacket) : DvbDemuxFeed :=
  let count := payload buf
  if count = 0 then feed
  else
    let ccok := (feed.cc + 1) % 16 = buf.cc
    let feed := { feed with cc := buf.cc }
    let feed := if ¬ ccok then setBufFlags feed DMX_BUFFER_FLAG_DISCONTINUITY_DETECTED else feed
    let feed := if buf.pusi then { feed with peslen := 0xfffa } else feed
    let feed := { feed with peslen := (feed.peslen + count) % 2 ^ 16 }
    cbTs ops feed (buf.slice (188 - count) count)

/-- The `DMX_TYPE_TS` case of `dvb_dmx_swfilter_packet_type`. -/
def tsPacketType (feed : DvbDemuxFeed) (buf : TsPacket) : DvbDemuxFeed :=
  if !feed.isFiltering then feed
  else
    let feed :=
      if tsPacketBit feed.tsType then
        if tsPayloadOnlyBit feed.tsType then dvbDmxSwfilterPayload ops feed buf
        else cbTs ops feed buf.bytes
      else feed
    if tsDecoderBit feed.tsType ∧ ops.hasDecoder then
      { feed with decoderCalls := feed.decoderCalls ++ [buf.bytes] }
    else feed

/-- `dvb_dmx_swfilter_packet_type`. -/
def dvbDmxSwfilterPacketType (feed : DvbDemuxFeed) (buf : TsPacket) : DvbDemuxFeed :=
  match feed.type with
  | .DMX_TYPE_TS => tsPacketType ops feed buf
  | .DMX_TYPE_SEC => sectionPacketType ops feed buf

/-- `DVR_FEED`: the feed is one for the dvr device. -/
def dvrFeed (feed : DvbDemuxFeed) : Bool :=
  feed.type = .DMX_TYPE_TS ∧ feed.isFiltering ∧ tsPacketBit feed.tsType ∧ ¬ tsDemuxBit feed.tsType

/-- `set_buf_flags` on the feeds of the list that a packet with this `pid` is for. -/
def flagFeeds (pid : ℕ) (flag : UInt32) (is : List ℕ) (demux : DvbDemux) : DvbDemux :=
  is.foldl (fun demux i =>
    if (demux.feed i).pid ≠ pid ∧ (demux.feed i).pid ≠ 0x2000 then demux
    else demux.setFeed i (setBufFlags (demux.feed i) flag)) demux

/-- The last loop of `dvb_dmx_swfilter_packet`.  Each client has its own callback, so `ops` depends
on the slot. -/
def distribute (ops : ℕ → DemuxOps) (pid : ℕ) (buf : TsPacket) :
    List ℕ → Bool → DvbDemux → DvbDemux
  | [], _, demux => demux
  | i :: is, dvrDone, demux =>
    let feed := demux.feed i
    if feed.pid ≠ pid ∧ feed.pid ≠ 0x2000 then distribute ops pid buf is dvrDone demux
    else if dvrFeed feed ∧ dvrDone then distribute ops pid buf is true demux
    else
      let dvrDone := dvrDone || dvrFeed feed
      if feed.pid = pid then
        distribute ops pid buf is dvrDone
          (demux.setFeed i (dvbDmxSwfilterPacketType (ops i) feed buf))
      else if feed.pid = 0x2000 then
        distribute ops pid buf is dvrDone (demux.setFeed i (cbTs (ops i) feed buf.bytes))
      else distribute ops pid buf is dvrDone demux

/-- The packet counter check of `dvb_dmx_swfilter_packet`. -/
def checkCounter (demux : DvbDemux) (buf : TsPacket) : DvbDemux :=
  match demux.cntStorage with
  | none => demux
  | some cnt =>
    let pid := tsPid buf
    if pid < MAX_PID then
      let expected := if buf 3 &&& 0x10 ≠ 0 then (cnt pid + 1) % 16 else cnt pid
      if buf.cc ≠ expected then
        let demux := flagFeeds pid DMX_BUFFER_PKT_COUNTER_MISMATCH demux.feedList demux
        { demux with cntStorage := some (update cnt pid buf.cc) }
      else { demux with cntStorage := some (update cnt pid expected) }
    else demux

/-- `buf[1] & 0x80`: the transport error indicator. -/
def TsPacket.tei (buf : TsPacket) : Prop := buf 1 &&& 0x80 ≠ 0

instance (buf : TsPacket) : Decidable buf.tei := inferInstanceAs (Decidable (_ ≠ _))

/-- `dvb_dmx_swfilter_packet`, with the module parameters `dvb_demux_tscheck` and
`dvb_demux_feed_err_pkts`. -/
def dvbDmxSwfilterPacket (ops : ℕ → DemuxOps) (tscheck feedErrPkts : Bool) (demux : DvbDemux)
    (buf : TsPacket) : DvbDemux :=
  let pid := tsPid buf
  if buf.tei then
    let demux := flagFeeds pid DMX_BUFFER_FLAG_TEI demux.feedList demux
    if !feedErrPkts then demux else distribute ops pid buf demux.feedList false demux
  else
    -- if the TEI bit is set, the pid may be wrong, so the counter is checked only here
    let demux := if tscheck then checkCounter demux buf else demux
    distribute ops pid buf demux.feedList false demux

/-! ## The pools and the list -/

/-- `dvb_dmx_filter_alloc`. -/
def dvbDmxFilterAlloc (demux : DvbDemux) : Option (ℕ × DvbDemux) :=
  match (List.range demux.filternum).find? fun i => demux.filterState i = .DMX_STATE_FREE with
  | none => none
  | some i =>
    some (i, { demux with filterState := update demux.filterState i .DMX_STATE_ALLOCATED })

/-- `dvb_dmx_feed_alloc`. -/
def dvbDmxFeedAlloc (demux : DvbDemux) : Option (ℕ × DvbDemux) :=
  match (List.range demux.feednum).find? fun i => (demux.feed i).state = .DMX_STATE_FREE with
  | none => none
  | some i => some (i, demux.setFeed i { demux.feed i with state := .DMX_STATE_ALLOCATED })

/-- `dvb_demux_feed_add`. -/
def dvbDemuxFeedAdd (demux : DvbDemux) (i : ℕ) : DvbDemux :=
  if i ∈ demux.feedList then demux else { demux with feedList := i :: demux.feedList }

/-- `dvb_demux_feed_del`. -/
def dvbDemuxFeedDel (demux : DvbDemux) (i : ℕ) : DvbDemux :=
  { demux with feedList := demux.feedList.erase i }

/-! ## TS feeds -/

/-- `dvbdmx_allocate_ts_feed`.  The two arms of the union `feed.feed` share their memory: `overlay`
is what the section arm reads as once the TS arm has been written. -/
def dvbdmxAllocateTsFeed (demux : DvbDemux) (interrupted : Bool) (overlay : DmxSectionFeed) :
    ℤ × DvbDemux :=
  if interrupted then (-ERESTARTSYS, demux)
  else
    match dvbDmxFeedAlloc demux with
    | none => (-EBUSY, demux)
    | some (i, demux) =>
      let feed :=
        { demux.feed i with
          type := .DMX_TYPE_TS, pid := 0xffff, peslen := 0xfffa, bufferFlags := 0
          isFiltering := false, sec := overlay }
      match dvbDmxFilterAlloc demux with
      | none => (-EBUSY, demux.setFeed i { feed with filter := [], state := .DMX_STATE_FREE })
      | some (j, demux) =>
        let demux := demux.setFeed i { feed with filter := [demux.filterMem j] }
        (0, { demux with
          filterFeed := update demux.filterFeed j i
          filterState := update demux.filterState j .DMX_STATE_READY })

/-- `dmx_ts_feed_set`. -/
def dmxTsFeedSet (demux : DvbDemux) (i : ℕ) (interrupted : Bool) (pid tsType pesType : ℕ) :
    ℤ × DvbDemux :=
  if pid > DMX_MAX_PID then (-EINVAL, demux)
  else if interrupted then (-ERESTARTSYS, demux)
  else if tsDecoderBit tsType ∧ pesType ≥ DMX_PES_OTHER then (-EINVAL, demux)
  else if tsDecoderBit tsType ∧ (demux.pesfilter pesType).any (· ≠ i) then (-EINVAL, demux)
  else
    let demux :=
      if tsDecoderBit tsType then
        { demux with
          pesfilter := update demux.pesfilter pesType (some i)
          pids := update demux.pids pesType pid }
      else demux
    let demux := dvbDemuxFeedAdd demux i
    (0, demux.setFeed i { demux.feed i with pid, tsType, pesType, state := .DMX_STATE_READY })

/-- `dmx_ts_feed_start_filtering`, when `start_feed` answers `ret`. -/
def dmxTsFeedStartFiltering (demux : DvbDemux) (i : ℕ) (interrupted : Bool) (ret : ℤ) :
    ℤ × DvbDemux :=
  let feed := demux.feed i
  if interrupted then (-ERESTARTSYS, demux)
  else if feed.state ≠ .DMX_STATE_READY ∨ feed.type ≠ .DMX_TYPE_TS then (-EINVAL, demux)
  else if !demux.startFeed then (-ENODEV, demux)
  else if ret < 0 then (ret, demux)
  else (0, demux.setFeed i { feed with isFiltering := true, state := .DMX_STATE_GO })

/-- `dmx_ts_feed_stop_filtering`, when `stop_feed` answers `ret`. -/
def dmxTsFeedStopFiltering (demux : DvbDemux) (i : ℕ) (ret : ℤ) : ℤ × DvbDemux :=
  let feed := demux.feed i
  if feed.state ≠ .DMX_STATE_GO then (-EINVAL, demux)
  else if !demux.stopFeed then (-ENODEV, demux)
  else (ret, demux.setFeed i { feed with isFiltering := false, state := .DMX_STATE_ALLOCATED })

/-- `feed->filter->state = DMX_STATE_FREE`, in `dvbdmx_release_ts_feed`. -/
def freeTsFilter (demux : DvbDemux) (feed : DvbDemuxFeed) : DvbDemux :=
  match feed.filter with
  | [] => demux
  | f :: _ =>
    { demux with
      filterMem := update demux.filterMem f.index f
      filterState := update demux.filterState f.index .DMX_STATE_FREE }

/-- `dvbdmx_release_ts_feed`. -/
def dvbdmxReleaseTsFeed (demux : DvbDemux) (i : ℕ) : ℤ × DvbDemux :=
  let feed := demux.feed i
  if feed.state = .DMX_STATE_FREE then (-EINVAL, demux)
  else
    let demux := dvbDemuxFeedDel (freeTsFilter demux feed) i
    let demux := demux.setFeed i { feed with state := .DMX_STATE_FREE, pid := 0xffff }
    if tsDecoderBit feed.tsType ∧ feed.pesType < DMX_PES_OTHER then
      (0, { demux with pesfilter := update demux.pesfilter feed.pesType none })
    else (0, demux)

/-! ## Section feeds -/

/-- `dvbdmx_allocate_section_feed`. -/
def dvbdmxAllocateSectionFeed (demux : DvbDemux) (interrupted : Bool) : ℤ × DvbDemux :=
  if interrupted then (-ERESTARTSYS, demux)
  else
    match dvbDmxFeedAlloc demux with
    | none => (-EBUSY, demux)
    | some (i, demux) =>
      let feed := demux.feed i
      (0, demux.setFeed i
        { feed with
          type := .DMX_TYPE_SEC, pid := 0xffff, bufferFlags := 0, filter := []
          sec.secbuf := 0, sec.secbufp := 0, sec.seclen := 0, sec.tsfeedp := 0
          isFiltering := false })

/-- `dmx_section_feed_allocate_filter`. -/
def dmxSectionFeedAllocateFilter (demux : DvbDemux) (i : ℕ) (interrupted : Bool) : ℤ × DvbDemux :=
  if interrupted then (-ERESTARTSYS, demux)
  else
    match dvbDmxFilterAlloc demux with
    | none => (-EBUSY, demux)
    | some (j, demux) =>
      let feed := demux.feed i
      let demux := demux.setFeed i { feed with filter := demux.filterMem j :: feed.filter }
      (0, { demux with
        filterFeed := update demux.filterFeed j i
        filterState := update demux.filterState j .DMX_STATE_READY })

/-- The client of feed `i` fills in its filter `j`. -/
def fillSectionFilter (demux : DvbDemux) (i j : ℕ) (filter : DmxSectionFilter) : DvbDemux :=
  let feed := demux.feed i
  demux.setFeed i { feed with
    filter := feed.filter.map fun f => if f.index = j then { f with filter } else f }

/-- `dmx_section_feed_set`. -/
def dmxSectionFeedSet (demux : DvbDemux) (i : ℕ) (interrupted : Bool) (pid : ℕ) (checkCrc : Bool) :
    ℤ × DvbDemux :=
  if pid > 0x1fff then (-EINVAL, demux)
  else if interrupted then (-ERESTARTSYS, demux)
  else
    let demux := dvbDemuxFeedAdd demux i
    (0, demux.setFeed i { demux.feed i with pid, sec.checkCrc := checkCrc, state := .DMX_STATE_READY })

/-- `dmx_section_feed_start_filtering`, when `start_feed` answers `ret`. -/
def dmxSectionFeedStartFiltering (demux : DvbDemux) (i : ℕ) (interrupted : Bool) (ret : ℤ) :
    ℤ × DvbDemux :=
  let feed := demux.feed i
  if interrupted then (-ERESTARTSYS, demux)
  else if feed.isFiltering then (-EBUSY, demux)
  else if feed.filter = [] then (-EINVAL, demux)
  else
    let feed := { feed with sec.tsfeedp := 0, sec.secbuf := 0, sec.secbufp := 0, sec.seclen := 0 }
    if !demux.startFeed then (-ENODEV, demux.setFeed i feed)
    else if ret < 0 then (ret, demux.setFeed i (prepareSecfilters feed))
    else (0, demux.setFeed i (startSectionFeed feed))

/-- `dmx_section_feed_stop_filtering`, when `stop_feed` answers `ret`. -/
def dmxSectionFeedStopFiltering (demux : DvbDemux) (i : ℕ) (ret : ℤ) : ℤ × DvbDemux :=
  if !demux.stopFeed then (-ENODEV, demux)
  else
    (ret, demux.setFeed i
      { demux.feed i with state := .DMX_STATE_READY, isFiltering := false })

/-- `dmx_section_feed_release_filter`, when `stop_feed` answers `ret`.  The source looks for the
filter without an end to its search; `none` is the oops when it is not there. -/
def dmxSectionFeedReleaseFilter (demux : DvbDemux) (i j : ℕ) (ret : ℤ) : Option (ℤ × DvbDemux) :=
  if demux.filterFeed j ≠ i then some (-EINVAL, demux)
  else
    let demux :=
      if (demux.feed i).isFiltering then (dmxSectionFeedStopFiltering demux i ret).2 else demux
    let feed := demux.feed i
    match feed.filter.find? fun f => f.index = j with
    | none => none
    | some f =>
      let demux := demux.setFeed i { feed with filter := feed.filter.eraseP fun f => f.index = j }
      some (0, { demux with
        filterMem := update demux.filterMem j f
        filterState := update demux.filterState j .DMX_STATE_FREE })

/-- `dvbdmx_release_section_feed`. -/
def dvbdmxReleaseSectionFeed (demux : DvbDemux) (i : ℕ) : ℤ × DvbDemux :=
  let feed := demux.feed i
  if feed.state = .DMX_STATE_FREE then (-EINVAL, demux)
  else
    let demux := dvbDemuxFeedDel demux i
    (0, demux.setFeed i { feed with state := .DMX_STATE_FREE, pid := 0xffff })

end Demux
end TbsMedia
