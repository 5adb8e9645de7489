import TbsMedia.Lib.Memory
import TbsMedia.DvbDemux.TsPacket

/-!
# The section feed

`dvb_demux.c`: the software section filter of one `dvb_demux_feed`, from the payload of a transport
packet to the section callback.  The accumulator of a feed is `secbuf_base`, of which

    secbuf_base[0 .. secbufp)        has been parsed into sections,
    secbuf_base[secbufp .. tsfeedp)  is waiting for the rest of its section,

and `secbuf` points to the first byte that is not parsed.  It is modelled as a memory whose cells
from `DMX_MAX_SECFEED_SIZE` on are the bytes of the feed structure behind the buffer: a read past
the buffer sees them, and a copy past it would change them.

Four fields of the feed have no counterpart in the source.  `calls` and `tsCalls` are what the feed
has handed to its callback so far, `decoderCalls` what it has handed to the decoder, and `copies` the
destination and length of every `memcopy` into the buffer.  The return values that no caller looks at (of `section_feed` and `section_copy_dump`) are
left out, and so are the texts of the debug messages.
-/

namespace TbsMedia
namespace Demux

open Lib

/-! ## Constants -/

def DVB_DEMUX_MASK_MAX : ℕ := 18
def DMX_MAX_SECTION_SIZE : ℕ := 4096
def DMX_MAX_SECFEED_SIZE : ℕ := DMX_MAX_SECTION_SIZE + 188

def DMX_BUFFER_FLAG_HAD_CRC32_DISCARD : UInt32 := 1
def DMX_BUFFER_FLAG_TEI : UInt32 := 2
def DMX_BUFFER_PKT_COUNTER_MISMATCH : UInt32 := 4
def DMX_BUFFER_FLAG_DISCONTINUITY_DETECTED : UInt32 := 8
def DMX_BUFFER_FLAG_DISCONTINUITY_INDICATOR : UInt32 := 16

/-! ## Data -/

/-- `enum dvb_dmx_filter_type`. -/
inductive DvbDmxFilterType where
  | DMX_TYPE_TS
  | DMX_TYPE_SEC
  deriving DecidableEq

/-- `enum dvb_dmx_state`. -/
inductive DvbDmxState where
  | DMX_STATE_FREE
  | DMX_STATE_ALLOCATED
  | DMX_STATE_READY
  | DMX_STATE_GO
  deriving DecidableEq

/-- `struct dmx_section_filter`: what the client asks for. -/
structure DmxSectionFilter where
  filterValue : Fin DVB_DEMUX_MASK_MAX → UInt8
  filterMask : Fin DVB_DEMUX_MASK_MAX → UInt8
  filterMode : Fin DVB_DEMUX_MASK_MAX → UInt8

/-- `struct dvb_demux_filter`: a section filter with the masks `prepare_secfilters` derives. -/
structure DvbDemuxFilter where
  filter : DmxSectionFilter
  maskandmode : Fin DVB_DEMUX_MASK_MAX → UInt8
  maskandnotmode : Fin DVB_DEMUX_MASK_MAX → UInt8
  doneq : Bool
  index : ℕ

/-- `struct dmx_section_feed`, the part `dvb_demux.c` works on.  `secbuf` is the offset of the
pointer into `secbuf_base`. -/
structure DmxSectionFeed where
  checkCrc : Bool
  crcVal : UInt32
  secbuf : ℕ
  secbufBase : Mem UInt8
  secbufp : ℕ
  seclen : ℕ
  tsfeedp : ℕ

/-- One call of the section callback: the bytes handed up and the filter they are for. -/
structure SectionCall where
  buffer1 : List UInt8
  source : ℕ
  deriving DecidableEq

/-- `struct dvb_demux_feed`.  `isFiltering` is the first member of both arms of the union
`feed.feed`, `filter` the list that `filter->next` chains, newest filter first. -/
structure DvbDemuxFeed where
  type : DvbDmxFilterType
  state : DvbDmxState
  pid : ℕ
  isFiltering : Bool
  sec : DmxSectionFeed
  filter : List DvbDemuxFilter
  bufferFlags : UInt32
  tsType : ℕ
  pesType : ℕ
  cc : ℕ
  pusiSeen : Bool
  peslen : ℕ
  calls : List SectionCall
  tsCalls : List (List UInt8)
  decoderCalls : List (List UInt8)
  copies : List (ℕ × ℕ)

/-- What a feed takes from its demux and from its client: the CRC routine, whether there is a
decoder, and the callbacks.  A callback may answer by everything it has been handed so far, and it
may change the buffer flags it gets the address of. -/
structure DemuxOps where
  checkCrc32 : UInt32 → List UInt8 → UInt32
  hasDecoder : Bool
  cbSecRet : List SectionCall → ℤ
  cbSecFlags : List SectionCall → UInt32 → UInt32
  cbTsFlags : List (List UInt8) → UInt32 → UInt32

/-- `set_buf_flags`. -/
def setBufFlags (feed : DvbDemuxFeed) (flag : UInt32) : DvbDemuxFeed :=
  { feed with bufferFlags := feed.bufferFlags ||| flag }

/-! ## Delivering one section -/

variable (ops : DemuxOps)

/-- `feed->cb.sec(secbuf, seclen, NULL, 0, &f->filter, &buffer_flags)`. -/
def cbSec (feed : DvbDemuxFeed) (f : DvbDemuxFilter) : ℤ × DvbDemuxFeed :=
  let call : SectionCall := ⟨feed.sec.secbufBase.read feed.sec.secbuf feed.sec.seclen, f.index⟩
  let calls := feed.calls ++ [call]
  (ops.cbSecRet calls, { feed with calls, bufferFlags := ops.cbSecFlags calls feed.bufferFlags })

/-- The loop of `dvb_dmx_swfilter_sectionfilter`: `none` when a byte under `maskandmode` differs,
else the bits under `maskandnotmode` that differ. -/
def sectionfilterScan (f : DvbDemuxFilter) (secbuf : ℕ → UInt8) :
    List (Fin DVB_DEMUX_MASK_MAX) → UInt8 → Option UInt8
  | [], neq => some neq
  | i :: is, neq =>
    let xor := f.filter.filterValue i ^^^ secbuf i
    if f.maskandmode i &&& xor ≠ 0 then none
    else sectionfilterScan f secbuf is (neq ||| (f.maskandnotmode i &&& xor))

/-- The verdict of `dvb_dmx_swfilter_sectionfilter` on the bytes at `secbuf`. -/
def sectionfilterAccepts (f : DvbDemuxFilter) (secbuf : ℕ → UInt8) : Bool :=
  match sectionfilterScan f secbuf (List.finRange DVB_DEMUX_MASK_MAX) 0 with
  | none => false
  | some neq => !(f.doneq && neq == 0)

/-- `dvb_dmx_swfilter_sectionfilter`. -/
def dvbDmxSwfilterSectionfilter (feed : DvbDemuxFeed) (f : DvbDemuxFilter) : ℤ × DvbDemuxFeed :=
  if sectionfilterAccepts f (fun i => feed.sec.secbufBase (feed.sec.secbuf + i)) then
    cbSec ops feed f
  else (0, feed)

/-- The `do … while` of `dvb_dmx_swfilter_section_feed` over the filters of the feed, and the
`sec->seclen = 0` behind it. -/
def sectionFeedFilters : List DvbDemuxFilter → DvbDemuxFeed → DvbDemuxFeed
  | [], feed => { feed with sec.seclen := 0 }
  | f :: fs, feed =>
    let r := dvbDmxSwfilterSectionfilter ops feed f
    if r.1 < 0 then r.2
    else if r.2.isFiltering then sectionFeedFilters fs r.2
    else { r.2 with sec.seclen := 0 }

/-- `dvb_dmx_swfilter_section_feed`. -/
def dvbDmxSwfilterSectionFeed (feed : DvbDemuxFeed) : DvbDemuxFeed :=
  if !feed.isFiltering then feed
  else if feed.filter = [] then feed
  else if feed.sec.checkCrc then
    let sectionSyntaxIndicator := feed.sec.secbufBase (feed.sec.secbuf + 1) &&& 0x80 ≠ 0
    let crc := ops.checkCrc32 feed.sec.crcVal
      (feed.sec.secbufBase.read feed.sec.secbuf feed.sec.seclen)
    if sectionSyntaxIndicator then
      let feed := { feed with sec.crcVal := crc }
      if crc ≠ 0 then setBufFlags feed DMX_BUFFER_FLAG_HAD_CRC32_DISCARD
      else sectionFeedFilters ops feed.filter feed
    else sectionFeedFilters ops feed.filter feed
  else sectionFeedFilters ops feed.filter feed

/-! ## The accumulator -/

/-- `dvb_dmx_swfilter_section_new`. -/
def dvbDmxSwfilterSectionNew (feed : DvbDemuxFeed) : DvbDemuxFeed :=
  let sec := feed.sec
  let feed :=
    if sec.secbufp < sec.tsfeedp then
      let n := sec.tsfeedp - sec.secbufp
      -- padding is checked on its first and last byte only
      if sec.secbufBase sec.secbuf ≠ 0xff ∨ sec.secbufBase (sec.secbuf + (n - 1)) ≠ 0xff then
        setBufFlags feed DMX_BUFFER_FLAG_DISCONTINUITY_DETECTED
      else feed
    else feed
  { feed with sec.tsfeedp := 0, sec.secbufp := 0, sec.seclen := 0, sec.secbuf := 0 }

/-- The `for` loop of `dvb_dmx_swfilter_section_copy_dump`.  Every section found is at least three
bytes long, so `limit` rounds are more than it can take. -/
def dumpSections (limit : ℕ) : ℕ → DvbDemuxFeed → DvbDemuxFeed
  | 0, feed => feed
  | fuel + 1, feed =>
    if feed.sec.secbufp + 2 < limit then
      let seclen := sectionLength (feed.sec.secbufBase (feed.sec.secbuf + 1))
        (feed.sec.secbufBase (feed.sec.secbuf + 2))
      if seclen = 0 ∨ seclen > DMX_MAX_SECTION_SIZE ∨ seclen + feed.sec.secbufp > limit then feed
      else
        let feed := { feed with sec.seclen := seclen, sec.crcVal := 0xffffffff }
        let feed :=
          if feed.pusiSeen then dvbDmxSwfilterSectionFeed ops feed
          else setBufFlags feed DMX_BUFFER_FLAG_DISCONTINUITY_DETECTED
        dumpSections limit fuel
          { feed with
            sec.secbufp := feed.sec.secbufp + seclen
            sec.secbuf := feed.sec.secbuf + seclen }
    else feed

/-- `dvb_dmx_swfilter_section_copy_dump`, on the `len` bytes `buf` points to. -/
def dvbDmxSwfilterSectionCopyDump (feed : DvbDemuxFeed) (buf : List UInt8) : DvbDemuxFeed :=
  let tsfeedp := feed.sec.tsfeedp
  if tsfeedp ≥ DMX_MAX_SECFEED_SIZE then feed
  else
    let full := tsfeedp + buf.length > DMX_MAX_SECFEED_SIZE
    let feed := if full then setBufFlags feed DMX_BUFFER_FLAG_DISCONTINUITY_DETECTED else feed
    let len := if full then DMX_MAX_SECFEED_SIZE - tsfeedp else buf.length
    if len = 0 then feed
    else
      let limit := tsfeedp + len
      let feed :=
        { feed with
          sec.secbufBase := feed.sec.secbufBase.write tsfeedp (buf.take len)
          sec.tsfeedp := limit
          copies := feed.copies ++ [(tsfeedp, len)] }
      if limit > DMX_MAX_SECFEED_SIZE then feed
      else
        -- to be sure always set secbuf
        dumpSections ops limit limit { feed with sec.secbuf := feed.sec.secbufp }

/-! ## One packet -/

/-- The discontinuity branch of `dvb_dmx_swfilter_section_packet`. -/
def sectionDiscontinuity (feed : DvbDemuxFeed) (buf : TsPacket) : DvbDemuxFeed :=
  let feed := setBufFlags feed
    (if buf.dcI then DMX_BUFFER_FLAG_DISCONTINUITY_INDICATOR
      else DMX_BUFFER_FLAG_DISCONTINUITY_DETECTED)
  dvbDmxSwfilterSectionNew { feed with pusiSeen := false }

/-- `dvb_dmx_swfilter_section_packet`: the return value, and the feed afterwards. -/
def dvbDmxSwfilterSectionPacket (feed : DvbDemuxFeed) (buf : TsPacket) : ℤ × DvbDemuxFeed :=
  let count := payload buf
  if count = 0 then (-1, feed)
  else
    let p := 188 - count
    let ccok := (feed.cc + 1) % 16 = buf.cc
    let feed := { feed with cc := buf.cc }
    let feed := if ¬ ccok ∨ buf.dcI then sectionDiscontinuity feed buf else feed
    if buf.pusi then
      if count > 1 ∧ (buf p).toNat < count then
        let beforeLen := (buf p).toNat
        let before := buf.slice (p + 1) beforeLen
        let afterLen := count - 1 - beforeLen
        let after := buf.slice (p + 1 + beforeLen) afterLen
        let feed := dvbDmxSwfilterSectionCopyDump ops feed before
        -- before start of new section, set pusi_seen
        let feed := dvbDmxSwfilterSectionNew { feed with pusiSeen := true }
        (0, dvbDmxSwfilterSectionCopyDump ops feed after)
      else (0, setBufFlags feed DMX_BUFFER_FLAG_DISCONTINUITY_DETECTED)
    else (0, dvbDmxSwfilterSectionCopyDump ops feed (buf.slice p count))

/-- The `DMX_TYPE_SEC` case of `dvb_dmx_swfilter_packet_type`. -/
def sectionPacketType (feed : DvbDemuxFeed) (buf : TsPacket) : DvbDemuxFeed :=
  if feed.isFiltering then
    let r := dvbDmxSwfilterSectionPacket ops feed buf
    if r.1 < 0 then { r.2 with sec.seclen := 0, sec.secbufp := 0 } else r.2
  else feed

/-! ## Starting a feed -/

/-- One round of the loop of `prepare_secfilters`. -/
def prepareSecfilter (f : DvbDemuxFilter) : DvbDemuxFilter :=
  { f with
    maskandmode := fun i => f.filter.filterMask i &&& f.filter.filterMode i
    maskandnotmode := fun i => f.filter.filterMask i &&& ~~~ f.filter.filterMode i
    doneq := (List.finRange DVB_DEMUX_MASK_MAX).any
      fun i => f.filter.filterMask i &&& ~~~ f.filter.filterMode i ≠ 0 }

/-- `prepare_secfilters`. -/
def prepareSecfilters (feed : DvbDemuxFeed) : DvbDemuxFeed :=
  { feed with filter := feed.filter.map prepareSecfilter }

/-- What a successful `dmx_section_feed_start_filtering` does to its feed. -/
def startSectionFeed (feed : DvbDemuxFeed) : DvbDemuxFeed :=
  let feed := { feed with sec.tsfeedp := 0, sec.secbuf := 0, sec.secbufp := 0, sec.seclen := 0 }
  { prepareSecfilters feed with isFiltering := true, state := .DMX_STATE_GO }

end Demux
end TbsMedia
