import Mathlib
import TbsMedia.DvbDemux.SectionMatch
import TbsMedia.DvbDemux.SectionTransparency

/-!
# Sections that are shorter than the filters

`dvb_dmx_swfilter_sectionfilter` compares `DVB_DEMUX_MASK_MAX` bytes, also of a section that has fewer.
Behind such a section it compares whatever the accumulator holds there, and so the bytes that were received
after the section, or before it, can decide to which filters the section passes.

* `Offered`: somewhere in a stream, `section_copy_dump` hands a section to `section_feed`.
* `Section.Decides`: the bytes of a section decide the match of a filter.
* `passedTo_iff_decides`: two streams that deliver a section always agree if and only if it is discarded or
  decides the match of every filter.
-/

namespace TbsMedia
namespace Demux

open Lib

variable (ops : DemuxOps)

/-! ## The sections that a stream offers -/

/-- The accumulator once `buf` has been copied, with the cursor where the parser loop starts. -/
def DvbDemuxFeed.loaded (feed : DvbDemuxFeed) (buf : List UInt8) : DvbDemuxFeed :=
  ((if feed.sec.tsfeedp + buf.length > DMX_MAX_SECFEED_SIZE then
    setBufFlags feed DMX_BUFFER_FLAG_DISCONTINUITY_DETECTED else feed).append (buf.take feed.room)).seek
      feed.sec.secbufp

/-- The feed with the section at its cursor taken: `seclen` and `crc_val` are set for it. -/
def DvbDemuxFeed.taken (feed : DvbDemuxFeed) : DvbDemuxFeed :=
  { feed with sec.seclen := seclenAt feed.sec.secbufBase feed.sec.secbuf, sec.crcVal := 0xffffffff }

/-- Round `n` of the parser loop hands `F` to `section_feed`. -/
def DumpOffers (limit n : ℕ) (feed F : DvbDemuxFeed) : Prop :=
  CompleteAt (dumpSections ops limit n feed).sec.secbufBase limit (dumpSections ops limit n feed).sec.secbuf ∧
    (dumpSections ops limit n feed).pusiSeen = true ∧ F = (dumpSections ops limit n feed).taken

/-- A call of `section_copy_dump` hands `F` to `section_feed`. -/
def CopyOffers (feed : DvbDemuxFeed) (buf : List UInt8) (F : DvbDemuxFeed) : Prop :=
  buf.take feed.room ≠ [] ∧ ∃ n, DumpOffers ops (feed.loaded buf).sec.tsfeedp n (feed.loaded buf) F

/-- The feed in front of the second copy of a packet in which a section starts. -/
def DvbDemuxFeed.restarted (feed : DvbDemuxFeed) (buf : TsPacket) : DvbDemuxFeed :=
  dvbDmxSwfilterSectionNew
    { dvbDmxSwfilterSectionCopyDump ops (feed.entered buf) buf.split.1 with pusiSeen := true }

/-- A packet makes the parser hand `F` to `section_feed`. -/
def PacketOffers (feed : DvbDemuxFeed) (buf : TsPacket) (F : DvbDemuxFeed) : Prop :=
  feed.isFiltering = true ∧ payload buf ≠ 0 ∧
    (CopyOffers ops (feed.entered buf) buf.split.1 F ∨
      ∃ after, buf.split.2 = some after ∧ CopyOffers ops (feed.restarted ops buf) after F)

/-- Somewhere in a stream, the parser hands `F` to `section_feed`. -/
def Offered (feed : DvbDemuxFeed) (pkts : List TsPacket) (F : DvbDemuxFeed) : Prop :=
  ∃ before buf after, pkts = before ++ buf :: after ∧ PacketOffers ops (runPackets ops feed before) buf F

/-- The calls for the section that the feed is at. -/
def sectionFeedCalls (feed : DvbDemuxFeed) : List SectionCall :=
  (dvbDmxSwfilterSectionFeed ops feed).calls.drop feed.calls.length

/-- The filters to which the section passes, by their places in the pool. -/
def passedTo (feed : DvbDemuxFeed) : List ℕ := (sectionFeedCalls ops feed).map SectionCall.source

variable {ops}

/-! ## The rounds of the parser loop -/

/-- The cursor is the same in both ways that the source keeps it. -/
def AtCursor (feed : DvbDemuxFeed) : Prop := feed.sec.secbuf = feed.sec.secbufp

variable (ops) in
/-- The feed behind a round of the parser loop. -/
def DvbDemuxFeed.next (feed : DvbDemuxFeed) : DvbDemuxFeed :=
  let seclen := seclenAt feed.sec.secbufBase feed.sec.secbuf
  let feed :=
    if feed.pusiSeen then dvbDmxSwfilterSectionFeed ops feed.taken
    else setBufFlags feed.taken DMX_BUFFER_FLAG_DISCONTINUITY_DETECTED
  { feed with sec.secbufp := feed.sec.secbufp + seclen, sec.secbuf := feed.sec.secbuf + seclen }

theorem dumpSections_succ {limit n : ℕ} {feed : DvbDemuxFeed} (hcursor : AtCursor feed)
    (h : CompleteAt feed.sec.secbufBase limit feed.sec.secbuf) :
    dumpSections ops limit (n + 1) feed = dumpSections ops limit n (feed.next ops) := by
  have hlen : 3 ≤ seclenAt feed.sec.secbufBase feed.sec.secbuf := sectionLength_pos _ _
  obtain ⟨h1, h2, h3⟩ := h
  rw [show feed.sec.secbuf = feed.sec.secbufp from hcursor] at h1
  change (if feed.sec.secbufp + 2 < limit then
    if seclenAt feed.sec.secbufBase feed.sec.secbuf = 0 ∨
      seclenAt feed.sec.secbufBase feed.sec.secbuf > DMX_MAX_SECTION_SIZE ∨
        seclenAt feed.sec.secbufBase feed.sec.secbuf + feed.sec.secbufp > limit then _ else _ else _) = _
  rw [if_pos h1, if_neg]
  · rfl
  · rw [show feed.sec.secbuf = feed.sec.secbufp from hcursor] at h2 h3 hlen ⊢
    omega

theorem dumpSections_succ_of_not {limit n : ℕ} {feed : DvbDemuxFeed} (hcursor : AtCursor feed)
    (h : ¬ CompleteAt feed.sec.secbufBase limit feed.sec.secbuf) : dumpSections ops limit (n + 1) feed = feed := by
  change (if feed.sec.secbufp + 2 < limit then
    if seclenAt feed.sec.secbufBase feed.sec.secbuf = 0 ∨
      seclenAt feed.sec.secbufBase feed.sec.secbuf > DMX_MAX_SECTION_SIZE ∨
        seclenAt feed.sec.secbufBase feed.sec.secbuf + feed.sec.secbufp > limit then _ else _ else _) = _
  rw [CompleteAt, show feed.sec.secbuf = feed.sec.secbufp from hcursor] at h
  split_ifs with h1 h2
  · rfl
  · rw [show feed.sec.secbuf = feed.sec.secbufp from hcursor] at h2
    omega
  · rfl

/-- A delivery changes only the calls, the flags and the scratch fields. -/
theorem sectionFeed_taken (feed : DvbDemuxFeed) :
    ∃ calls flags crc seclen, dvbDmxSwfilterSectionFeed ops feed.taken = feed.handed calls flags crc seclen := by
  obtain ⟨flags, crc, seclen, h⟩ := sectionFeed_eq ops feed.taken rfl
  exact ⟨_, flags, crc, seclen, h⟩

theorem next_eq (feed : DvbDemuxFeed) :
    ∃ calls flags crc seclen, feed.next ops =
      { feed.handed calls flags crc seclen with
        sec.secbufp := feed.sec.secbufp + seclenAt feed.sec.secbufBase feed.sec.secbuf
        sec.secbuf := feed.sec.secbuf + seclenAt feed.sec.secbufBase feed.sec.secbuf } := by
  unfold DvbDemuxFeed.next
  dsimp only
  split_ifs
  · obtain ⟨calls, flags, crc, seclen, h⟩ := @sectionFeed_taken ops feed
    rw [h]
    exact ⟨calls, flags, crc, seclen, rfl⟩
  · exact ⟨_, _, _, _, rfl⟩

theorem atCursor_next {feed : DvbDemuxFeed} (h : AtCursor feed) : AtCursor (feed.next ops) := by
  obtain ⟨calls, flags, crc, seclen, hnext⟩ := @next_eq ops feed
  rw [hnext]
  exact congrArg (· + seclenAt feed.sec.secbufBase feed.sec.secbuf) h

/-! ## Copies and packets -/

theorem copyDump_eq_dumpSections {feed : DvbDemuxFeed} {buf : List UInt8} (hne : buf.take feed.room ≠ []) :
    dvbDmxSwfilterSectionCopyDump ops feed buf =
      dumpSections ops (feed.loaded buf).sec.tsfeedp (feed.loaded buf).sec.tsfeedp (feed.loaded buf) := by
  have hpos := List.length_pos_of_ne_nil hne
  rw [List.length_take, DvbDemuxFeed.room] at hpos
  have hlimit : (feed.loaded buf).sec.tsfeedp =
      feed.sec.tsfeedp + min (DMX_MAX_SECFEED_SIZE - feed.sec.tsfeedp) buf.length := by
    rw [← DvbDemuxFeed.room, ← List.length_take]
    unfold DvbDemuxFeed.loaded
    split_ifs <;> rfl
  rw [hlimit, dvbDmxSwfilterSectionCopyDump]
  dsimp only
  rw [if_neg (by omega)]
  by_cases hfull : feed.sec.tsfeedp + buf.length > DMX_MAX_SECFEED_SIZE
  · have hlen : min (DMX_MAX_SECFEED_SIZE - feed.sec.tsfeedp) buf.length = DMX_MAX_SECFEED_SIZE - feed.sec.tsfeedp := by
      omega
    rw [if_pos hfull, if_pos hfull, if_neg (by omega), if_neg (by omega), hlen]
    unfold DvbDemuxFeed.loaded
    rw [if_pos hfull]
    have htake : (buf.take feed.room).length = DMX_MAX_SECFEED_SIZE - feed.sec.tsfeedp := by
      rw [List.length_take, DvbDemuxFeed.room, hlen]
    unfold DvbDemuxFeed.append
    rw [htake]
    rfl
  · have hlen : min (DMX_MAX_SECFEED_SIZE - feed.sec.tsfeedp) buf.length = buf.length := by
      omega
    rw [if_neg hfull, if_neg hfull, if_neg (by omega), if_neg (by omega), hlen]
    unfold DvbDemuxFeed.loaded
    rw [if_neg hfull]
    have htake : buf.take feed.room = buf := by
      rw [List.take_of_length_le]
      rw [DvbDemuxFeed.room]
      omega
    unfold DvbDemuxFeed.append
    rw [htake, List.take_length]
    rfl

/-- A packet in which a section starts: what belongs to the section before it, a reset, and the rest. -/
theorem packet_of_some {feed : DvbDemuxFeed} {buf : TsPacket} {after : List UInt8} (hfiltering : feed.isFiltering = true)
    (hp : payload buf ≠ 0) (hsplit : buf.split.2 = some after) :
    sectionPacketType ops feed buf = dvbDmxSwfilterSectionCopyDump ops (feed.restarted ops buf) after := by
  rw [sectionPacketType, if_pos hfiltering, sectionPacket_eq_entered ops feed hp]
  dsimp only
  rw [if_neg (by decide)]
  unfold DvbDemuxFeed.restarted
  unfold TsPacket.split at hsplit ⊢
  split_ifs at hsplit ⊢ with hpusi
  · rcases hbytes : buf.payloadBytes with - | ⟨ptr, body⟩
    · rw [hbytes] at hsplit
      exact absurd hsplit.symm (Option.some_ne_none _)
    · rw [hbytes] at hsplit
      dsimp only at hsplit ⊢
      by_cases hin : ptr.toNat ≤ body.length ∧ body ≠ []
      · rw [if_pos hin] at hsplit ⊢
        rw [if_pos ⟨Nat.lt_succ_of_le hin.1, hin.2⟩, ← Option.some.inj hsplit]
      · rw [if_neg hin] at hsplit
        exact absurd hsplit.symm (Option.some_ne_none _)

/-! ## What a stream leaves as it is -/

/-- The filters, and what else decides about a section, are still the same. -/
structure Kept (feed F : DvbDemuxFeed) : Prop where
  filter : F.filter = feed.filter
  isFiltering : F.isFiltering = feed.isFiltering
  checkCrc : F.sec.checkCrc = feed.sec.checkCrc

theorem Kept.trans {a b c : DvbDemuxFeed} (h : Kept a b) (h' : Kept b c) : Kept a c :=
  ⟨h'.filter.trans h.filter, h'.isFiltering.trans h.isFiltering, h'.checkCrc.trans h.checkCrc⟩

theorem kept_dumpSections {limit n : ℕ} {feed : DvbDemuxFeed} (hcursor : AtCursor feed) :
    Kept feed (dumpSections ops limit n feed) := by
  induction n generalizing feed with
  | zero => exact ⟨rfl, rfl, rfl⟩
  | succ n ih =>
    by_cases hcomplete : CompleteAt feed.sec.secbufBase limit feed.sec.secbuf
    · rw [dumpSections_succ hcursor hcomplete]
      have hnext := ih (@atCursor_next ops _ hcursor)
      obtain ⟨calls, flags, crc, seclen, heq⟩ := @next_eq ops feed
      rw [heq] at hnext ⊢
      exact ⟨hnext.filter, hnext.isFiltering, hnext.checkCrc⟩
    · rw [dumpSections_succ_of_not hcursor hcomplete]
      exact ⟨rfl, rfl, rfl⟩

theorem kept_loaded (feed : DvbDemuxFeed) (buf : List UInt8) : Kept feed (feed.loaded buf) := by
  unfold DvbDemuxFeed.loaded
  split_ifs
  · exact ⟨rfl, rfl, rfl⟩
  · exact ⟨rfl, rfl, rfl⟩

theorem kept_copyDump (feed : DvbDemuxFeed) (buf : List UInt8) :
    Kept feed (dvbDmxSwfilterSectionCopyDump ops feed buf) := by
  by_cases hne : buf.take feed.room = []
  · rw [copyDump_nil ops hne]
    exact ⟨rfl, rfl, rfl⟩
  · rw [copyDump_eq_dumpSections hne]
    exact (kept_loaded feed buf).trans (kept_dumpSections rfl)

theorem Entered.kept {feed feed' : DvbDemuxFeed} {buf : TsPacket} (h : Entered feed buf feed') : Kept feed feed' := by
  unfold Entered at h
  split_ifs at h
  · rw [h]
    exact ⟨rfl, rfl, rfl⟩
  · obtain ⟨flags, rfl⟩ := h
    exact ⟨rfl, rfl, rfl⟩

theorem kept_restarted (feed : DvbDemuxFeed) (buf : TsPacket) : Kept feed (feed.restarted ops buf) := by
  have hcopy := (entered_entered feed buf).kept.trans (@kept_copyDump ops (feed.entered buf) buf.split.1)
  unfold DvbDemuxFeed.restarted
  obtain ⟨flags, hnew⟩ := sectionNew_eq
    { dvbDmxSwfilterSectionCopyDump ops (feed.entered buf) buf.split.1 with pusiSeen := true }
  rw [hnew]
  exact ⟨hcopy.filter, hcopy.isFiltering, hcopy.checkCrc⟩

theorem kept_packet (feed : DvbDemuxFeed) (buf : TsPacket) : Kept feed (sectionPacketType ops feed buf) := by
  by_cases hfiltering : feed.isFiltering = true
  · by_cases hp : payload buf = 0
    · rw [sectionPacketType, if_pos hfiltering, sectionPacket_of_payload_eq_zero ops hp]
      exact ⟨rfl, rfl, rfl⟩
    · rcases hsplit : buf.split.2 with - | after
      · obtain ⟨feed', flags, he, hpacket⟩ := sectionPacket_split ops feed hp
        rw [sectionPacketType, if_pos hfiltering, hpacket, hsplit]
        have hcopy := he.kept.trans (@kept_copyDump ops feed' buf.split.1)
        exact ⟨hcopy.filter, hcopy.isFiltering, hcopy.checkCrc⟩
      · rw [packet_of_some hfiltering hp hsplit]
        exact (kept_restarted feed buf).trans (kept_copyDump _ after)
  · rw [sectionPacketType, if_neg hfiltering]
    exact ⟨rfl, rfl, rfl⟩

theorem kept_runPackets (feed : DvbDemuxFeed) (pkts : List TsPacket) : Kept feed (runPackets ops feed pkts) := by
  induction pkts generalizing feed with
  | nil => exact ⟨rfl, rfl, rfl⟩
  | cons buf pkts ih => exact (kept_packet feed buf).trans (ih _)

theorem CopyOffers.kept {feed F : DvbDemuxFeed} {buf : List UInt8} (h : CopyOffers ops feed buf F) :
    Kept feed F ∧ F.sec.crcVal = 0xffffffff := by
  obtain ⟨-, n, -, -, rfl⟩ := h
  have hdump := (kept_loaded feed buf).trans (@kept_dumpSections ops (feed.loaded buf).sec.tsfeedp n _ rfl)
  exact ⟨⟨hdump.filter, hdump.isFiltering, hdump.checkCrc⟩, rfl⟩

theorem Offered.kept {feed F : DvbDemuxFeed} {pkts : List TsPacket} (h : Offered ops feed pkts F) :
    Kept feed F ∧ F.sec.crcVal = 0xffffffff := by
  obtain ⟨before, buf, after, -, -, -, hoffers⟩ := h
  have hrun := @kept_runPackets ops feed before
  rcases hoffers with hoffers | ⟨rest, -, hoffers⟩
  · exact ⟨(hrun.trans (entered_entered _ buf).kept).trans hoffers.kept.1, hoffers.kept.2⟩
  · exact ⟨(hrun.trans (kept_restarted _ buf)).trans hoffers.kept.1, hoffers.kept.2⟩

/-! ## Streams that bring a section -/

variable (ops) in
/-- A feed with the filters `fs` is started, and a stream brings it the section `s`, at which it is `F`. -/
def Brings (fs : List DvbDemuxFilter) (checkCrc : Bool) (s : Section) (F : DvbDemuxFeed) : Prop :=
  ∃ slot pkts, slot.filter = fs ∧ slot.sec.checkCrc = checkCrc ∧ Offered ops (startSectionFeed slot) pkts F ∧
    F.sec.secbufBase.read F.sec.secbuf F.sec.seclen = s.bytes

variable (ops) in
/-- The section is discarded, as its CRC is checked and is wrong. -/
def Section.Discarded (s : Section) (checkCrc : Bool) : Prop :=
  checkCrc = true ∧ s.bytes.getD 1 0 &&& 0x80 ≠ 0 ∧ ops.checkCrc32 0xffffffff s.bytes ≠ 0

/-- The bytes of the section decide the match of the filter. -/
def Section.Decides (s : Section) (f : DvbDemuxFilter) : Prop :=
  (prepareSecfilter f).masks.Decided {i | i.val < s.bytes.length} fun i => s.bytes.getD i 0

/-- A section that has all the bytes that are compared decides the match. -/
theorem Section.decides_of_le {s : Section} (h : DVB_DEMUX_MASK_MAX ≤ s.bytes.length) (f : DvbDemuxFilter) :
    s.Decides f := MaskMatch.decided_of_forall fun i => i.isLt.trans_le h

/-- The bytes that the filters compare. -/
def DvbDemuxFeed.window (feed : DvbDemuxFeed) (i : Fin DVB_DEMUX_MASK_MAX) : UInt8 :=
  feed.sec.secbufBase (feed.sec.secbuf + i)

variable {fs : List DvbDemuxFilter} {checkCrc : Bool} {s : Section} {F F' : DvbDemuxFeed}

theorem getD_of_read_eq {m : Mem UInt8} {a n i : ℕ} {bs : List UInt8} (h : m.read a n = bs) (hi : i < bs.length) :
    m (a + i) = bs.getD i 0 := by
  have hn : bs.length = n := by rw [← h, Mem.length_read]
  rw [List.getD_eq_getElem _ _ hi, ← Mem.apply_of_read_eq h (by omega)]

/-- What `section_feed` finds of the section, the filters and the CRC check. -/
theorem Brings.found (h : Brings ops fs checkCrc s F) :
    F.filter = fs.map prepareSecfilter ∧ F.isFiltering = true ∧ F.sec.crcVal = 0xffffffff ∧
      (∀ i : Fin DVB_DEMUX_MASK_MAX, i.val < s.bytes.length → F.window i = s.bytes.getD i 0) ∧
      (crcDiscards ops F.view F.sec.secbuf F.sec.seclen ↔ s.Discarded ops checkCrc) := by
  obtain ⟨slot, pkts, rfl, rfl, hoffered, hread⟩ := h
  obtain ⟨hkept, hcrc⟩ := hoffered.kept
  refine ⟨hkept.filter, hkept.isFiltering, hcrc, fun i hi => getD_of_read_eq hread hi, ?_⟩
  have h3 := s.three_le
  unfold crcDiscards Section.Discarded
  refine and_congr (iff_of_eq (congrArg (· = true) hkept.checkCrc)) (and_congr ?_ ?_)
  · rw [← getD_of_read_eq hread (show 1 < s.bytes.length by omega)]
    rfl
  · rw [← hread]
    rfl

theorem mem_passedTo (hret : ∀ calls, 0 ≤ ops.cbSecRet calls) (hcrc : F.sec.crcVal = 0xffffffff) (i : ℕ) :
    i ∈ passedTo ops F ↔ ∃ f, Passed ops F f ∧ f.index = i := by
  obtain ⟨gs, hcalls, hpassed⟩ := calls_sectionFeed hret hcrc
  unfold passedTo sectionFeedCalls
  rw [hcalls, List.drop_left, List.map_map, List.mem_map]
  exact exists_congr fun f => and_congr_left fun _ => hpassed f

/-- **The filters to which a section passes**, by the bytes in the window. -/
theorem Brings.mem_passedTo (hret : ∀ calls, 0 ≤ ops.cbSecRet calls) (h : Brings ops fs checkCrc s F) (i : ℕ) :
    i ∈ passedTo ops F ↔
      ¬ s.Discarded ops checkCrc ∧ ∃ f ∈ fs, f.index = i ∧ (prepareSecfilter f).masks.Matches F.window := by
  obtain ⟨hfilter, hfiltering, hcrc, -, hdiscards⟩ := h.found
  rw [Demux.mem_passedTo hret hcrc]
  constructor
  · rintro ⟨g, ⟨hg, -, hnot, haccepts⟩, rfl⟩
    rw [hfilter, List.mem_map] at hg
    obtain ⟨f, hf, rfl⟩ := hg
    exact ⟨fun hdiscarded => hnot (hdiscards.mpr hdiscarded), f, hf, rfl, sectionfilterAccepts_iff.mp haccepts⟩
  · rintro ⟨hnot, f, hf, rfl, hmatches⟩
    refine ⟨prepareSecfilter f, ⟨?_, hfiltering, fun hd => hnot (hdiscards.mp hd), ?_⟩, rfl⟩
    · rw [hfilter]
      exact List.mem_map_of_mem hf
    · exact sectionfilterAccepts_iff.mpr hmatches

/-! ## A stream for every window -/

/-- A packet in which a section starts, with `body` behind the pointer field. -/
def startPacket (body : List UInt8) (h : body.length = 183) : TsPacket where
  bytes := [0x47, 0x40, 0, 0x10, 0] ++ body
  length_bytes := by rw [List.length_append, h]; rfl

theorem payload_startPacket {body : List UInt8} (h : body.length = 183) : payload (startPacket body h) = 184 := by
  have h3 : (startPacket body h) 3 = 0x10 := rfl
  unfold payload
  rw [h3, if_neg (by decide), if_neg (by decide)]

theorem split_startPacket {body : List UInt8} (h : body.length = 183) :
    (startPacket body h).split = ([], some body) := by
  have hne : body ≠ [] := by
    rintro rfl
    exact absurd h (by decide)
  have h1 : (startPacket body h) 1 = 0x40 := rfl
  have hpusi : (startPacket body h).pusi := by
    unfold TsPacket.pusi
    rw [h1]
    decide
  have hbytes : (startPacket body h).payloadBytes = 0 :: body := by
    unfold TsPacket.payloadBytes
    rw [payload_startPacket]
    rfl
  unfold TsPacket.split
  rw [if_pos hpusi, hbytes]
  dsimp only
  rw [if_pos ⟨Nat.zero_le _, hne⟩]
  rfl

theorem restarted_eq (feed : DvbDemuxFeed) (buf : TsPacket) :
    ∃ (G : DvbDemuxFeed) (flags : UInt32), feed.restarted ops buf = { G with pusiSeen := true }.emptied flags := by
  obtain ⟨flags, h⟩ := sectionNew_eq
    { dvbDmxSwfilterSectionCopyDump ops (feed.entered buf) buf.split.1 with pusiSeen := true }
  exact ⟨_, flags, h⟩

/-- Copied into an empty accumulator, a section is offered at once. -/
theorem copyOffers_emptied (G : DvbDemuxFeed) (flags : UInt32) (s : Section) {rest : List UInt8}
    (hlen : (s.bytes ++ rest).length = 183) :
    ∃ F, CopyOffers ops ({ G with pusiSeen := true }.emptied flags) (s.bytes ++ rest) F ∧
      F.sec.secbuf = 0 ∧ F.sec.seclen = s.bytes.length ∧ F.sec.secbufBase.read 0 183 = s.bytes ++ rest := by
  have hmax : (s.bytes ++ rest).length ≤ DMX_MAX_SECFEED_SIZE := by
    rw [hlen]
    decide
  have hroom : ({ G with pusiSeen := true }.emptied flags).room = DMX_MAX_SECFEED_SIZE := rfl
  have hloaded : ({ G with pusiSeen := true }.emptied flags).loaded (s.bytes ++ rest) =
      (({ G with pusiSeen := true }.emptied flags).append (s.bytes ++ rest)).seek 0 := by
    unfold DvbDemuxFeed.loaded
    rw [hroom, List.take_of_length_le hmax, if_neg]
    · rfl
    · exact not_lt.mpr ((Nat.zero_add _).le.trans hmax)
  have hread : (G.sec.secbufBase.write 0 (s.bytes ++ rest)).read 0 183 = s.bytes ++ rest := by
    rw [← hlen]
    exact Mem.read_write_self _ _ _
  have hcomplete : CompleteAt (G.sec.secbufBase.write 0 (s.bytes ++ rest)) 183 0 := by
    rw [completeAt_iff (Nat.zero_le _), Nat.sub_zero, hread]
    exact s.not_stuck_append rest
  have hseclen : seclenAt (G.sec.secbufBase.write 0 (s.bytes ++ rest)) 0 = s.bytes.length := by
    have h3 := s.three_le
    rw [@seclenAt_read _ _ 183 (by decide), hread, getD_append_of_lt _ (by omega), getD_append_of_lt _ (by omega),
      s.length_field]
  refine ⟨_, ⟨?_, 0, ?_, ?_, rfl⟩, ?_, ?_, ?_⟩
  · rw [hroom, List.take_of_length_le hmax]
    intro hnil
    rw [hnil] at hlen
    exact absurd hlen (by decide)
  · rw [hloaded]
    change CompleteAt (G.sec.secbufBase.write 0 (s.bytes ++ rest)) (0 + (s.bytes ++ rest).length) 0
    rw [hlen]
    exact hcomplete
  · rw [hloaded]
    rfl
  · rw [hloaded]
    rfl
  · rw [hloaded]
    exact hseclen
  · rw [hloaded]
    exact hread

/-- **Any bytes can follow a section.** -/
theorem exists_brings (fs : List DvbDemuxFilter) (checkCrc : Bool) (s : Section) {rest : List UInt8}
    (hlen : (s.bytes ++ rest).length = 183) :
    ∃ F, Brings ops fs checkCrc s F ∧ ∀ i, F.window i = (s.bytes ++ rest).getD i 0 := by
  obtain ⟨G, flags, hrestarted⟩ :=
    @restarted_eq ops (startSectionFeed { plainSlot checkCrc with filter := fs }) (startPacket (s.bytes ++ rest) hlen)
  obtain ⟨F, hoffers, hsecbuf, hseclen, hread⟩ := @copyOffers_emptied ops G flags s rest hlen
  rw [← hrestarted] at hoffers
  have hsplit := split_startPacket hlen
  refine ⟨F, ⟨{ plainSlot checkCrc with filter := fs }, [startPacket (s.bytes ++ rest) hlen], rfl, rfl, ?_, ?_⟩, fun i => ?_⟩
  · refine ⟨[], _, [], rfl, rfl, ?_, Or.inr ⟨s.bytes ++ rest, by rw [hsplit], hoffers⟩⟩
    rw [payload_startPacket]
    decide
  · rw [List.length_append] at hlen
    rw [hsecbuf, hseclen]
    exact ((Mem.read_eq_append_iff hlen.symm).mp hread).1
  · have hi : i.val < (s.bytes ++ rest).length := by
      rw [hlen]
      exact i.isLt.trans (by decide)
    unfold DvbDemuxFeed.window
    rw [hsecbuf]
    exact getD_of_read_eq hread hi

/-! ## The filter decision -/

/-- The two masks of a filter share no bit. -/
theorem masks_disjoint (f : DvbDemuxFilter) (i : Fin DVB_DEMUX_MASK_MAX) :
    (prepareSecfilter f).masks.positive i &&& (prepareSecfilter f).masks.negative i = 0 := by
  change f.filter.filterMask i &&& f.filter.filterMode i &&& (f.filter.filterMask i &&& ~~~ f.filter.filterMode i) = 0
  rw [byte_eq_zero_iff]
  intro b hb
  rw [UInt8.toBitVec_and, UInt8.toBitVec_and, UInt8.toBitVec_and, UInt8.toBitVec_not, BitVec.getLsbD_and,
    BitVec.getLsbD_and, BitVec.getLsbD_and, BitVec.getLsbD_not]
  cases (f.filter.filterMode i).toBitVec.getLsbD b <;> simp

/-- Every window that begins with a short section can be the one that is compared. -/
theorem exists_brings_window (fs : List DvbDemuxFilter) (checkCrc : Bool) {s : Section}
    (hshort : s.bytes.length < DVB_DEMUX_MASK_MAX) {x : Fin DVB_DEMUX_MASK_MAX → UInt8}
    (hx : ∀ i : Fin DVB_DEMUX_MASK_MAX, i.val < s.bytes.length → x i = s.bytes.getD i 0) :
    ∃ F, Brings ops fs checkCrc s F ∧ F.window = x := by
  have hdrop : ((List.ofFn x).drop s.bytes.length).length = DVB_DEMUX_MASK_MAX - s.bytes.length := by
    rw [List.length_drop, List.length_ofFn]
  have hlen : (s.bytes ++ ((List.ofFn x).drop s.bytes.length ++ List.replicate 165 0xff)).length = 183 := by
    rw [List.length_append, List.length_append, hdrop, List.length_replicate]
    change _ < 18 at hshort
    change _ + (18 - _ + 165) = 183
    omega
  obtain ⟨F, hbrings, hwindow⟩ := @exists_brings ops fs checkCrc s _ hlen
  refine ⟨F, hbrings, funext fun i => ?_⟩
  rw [hwindow]
  by_cases hi : i.val < s.bytes.length
  · rw [getD_append_of_lt _ hi, hx i hi]
  · have hlt : i.val - s.bytes.length < ((List.ofFn x).drop s.bytes.length).length := by
      rw [hdrop]
      have := i.isLt
      omega
    rw [List.getD_append_right _ _ _ _ (not_lt.mp hi), getD_append_of_lt _ hlt, List.getD_eq_getElem _ _ hlt,
      List.getElem_drop, List.getElem_ofFn]
    exact congrArg x (Fin.ext (Nat.add_sub_cancel' (not_lt.mp hi)))

/-- **Two streams that deliver a section always agree** on the filters to which it passes if and only if it is
discarded for its CRC or its own bytes decide the match of every filter. -/
theorem passedTo_iff_decides (hret : ∀ calls, 0 ≤ ops.cbSecRet calls) (hfs : (fs.map DvbDemuxFilter.index).Nodup) :
    (∀ F F', Brings ops fs checkCrc s F → Brings ops fs checkCrc s F' →
        ∀ i, i ∈ passedTo ops F ↔ i ∈ passedTo ops F') ↔
      s.Discarded ops checkCrc ∨ ∀ f ∈ fs, s.Decides f := by
  constructor
  · intro hsame
    by_cases hdiscarded : s.Discarded ops checkCrc
    · exact Or.inl hdiscarded
    refine Or.inr fun f hf => ?_
    by_contra hnot
    have hshort : s.bytes.length < DVB_DEMUX_MASK_MAX := by
      by_contra hlong
      exact hnot (s.decides_of_le (not_lt.mp hlong) f)
    -- one window that matches and one that does not
    obtain ⟨x, y, hx, hy, hmatches, hother⟩ := MaskMatch.exists_of_not_decided (masks_disjoint f) hnot
    obtain ⟨F, hF, rfl⟩ := @exists_brings_window ops fs checkCrc s hshort x hx
    obtain ⟨F', hF', rfl⟩ := @exists_brings_window ops fs checkCrc s hshort y hy
    have hpassed := (hF.mem_passedTo hret f.index).mpr ⟨hdiscarded, f, hf, rfl, hmatches⟩
    obtain ⟨-, g, hg, hindex, hmatches'⟩ := (hF'.mem_passedTo hret f.index).mp ((hsame F F' hF hF' f.index).mp hpassed)
    rw [List.inj_on_of_nodup_map hfs hg hf hindex] at hmatches'
    exact hother hmatches'
  · intro hcond F F' hF hF' i
    rw [hF.mem_passedTo hret, hF'.mem_passedTo hret]
    refine and_congr_right fun hnot => exists_congr fun f => and_congr_right fun hf => and_congr_right fun _ => ?_
    have hdecides := hcond.resolve_left hnot f hf
    obtain ⟨-, -, -, hwindow, -⟩ := hF.found
    obtain ⟨-, -, -, hwindow', -⟩ := hF'.found
    exact MaskMatch.matches_iff_of_decided hdecides hwindow hwindow'

/-- A filter that asks for a zero in the ninth byte. -/
def ninthByteFilter : DvbDemuxFilter where
  filter := ⟨fun _ => 0, fun i => if i.val = 8 then 0xff else 0, fun _ => 0xff⟩
  maskandmode _ := 0
  maskandnotmode _ := 0
  doneq := false
  index := 0

theorem passedTo_iff_decides_plain :
    (∀ F F', Brings plainOps [ninthByteFilter] true plainSection F →
        Brings plainOps [ninthByteFilter] true plainSection F' →
        ∀ i, i ∈ passedTo plainOps F ↔ i ∈ passedTo plainOps F') ↔
      plainSection.Discarded plainOps true ∨ ∀ f ∈ [ninthByteFilter], plainSection.Decides f :=
  passedTo_iff_decides (fun _ => le_refl _) (List.nodup_singleton _)

/-- A section of eight bytes passes to that filter, or does not, as the byte behind it happens to be. -/
theorem passedTo_depends_on_next_byte :
    ¬ ∀ (fs : List DvbDemuxFilter) (checkCrc : Bool) (s : Section) (F F' : DvbDemuxFeed),
      Brings plainOps fs checkCrc s F → Brings plainOps fs checkCrc s F' →
        ∀ i, i ∈ passedTo plainOps F ↔ i ∈ passedTo plainOps F' := by
  intro h
  have hret : ∀ calls, 0 ≤ plainOps.cbSecRet calls := fun _ => le_refl _
  obtain ⟨F, hF, hwindow⟩ := @exists_brings_window plainOps [ninthByteFilter] true plainSection (by decide)
    (fun i => plainSection.bytes.getD i 0) (fun _ _ => rfl)
  obtain ⟨F', hF', hwindow'⟩ := @exists_brings_window plainOps [ninthByteFilter] true plainSection (by decide)
    (fun i => plainSection.bytes.getD i 1) (by decide +kernel)
  have hmatches : (prepareSecfilter ninthByteFilter).masks.Matches F.window := by
    rw [hwindow]
    have haccepts : sectionfilterAccepts (prepareSecfilter ninthByteFilter)
      (fun i => plainSection.bytes.getD i 0) = true := by decide +kernel
    exact sectionfilterAccepts_iff.mp haccepts
  have hother : ¬ (prepareSecfilter ninthByteFilter).masks.Matches F'.window := by
    rw [hwindow']
    have hrejects : ¬ sectionfilterAccepts (prepareSecfilter ninthByteFilter)
      (fun i => plainSection.bytes.getD i 1) = true := by decide +kernel
    exact fun hmatches => hrejects (sectionfilterAccepts_iff.mpr hmatches)
  have hcrc : plainOps.checkCrc32 0xffffffff plainSection.bytes = 0 := by decide +kernel
  have hvalid : ¬ plainSection.Discarded plainOps true := by
    rintro ⟨-, -, hwrong⟩
    exact hwrong hcrc
  have hpassed := (hF.mem_passedTo hret 0).mpr ⟨hvalid, ninthByteFilter, List.mem_singleton_self _, rfl, hmatches⟩
  obtain ⟨-, f, hf, -, hmatches'⟩ := (hF'.mem_passedTo hret 0).mp ((h _ _ _ F F' hF hF' 0).mp hpassed)
  rw [List.mem_singleton.mp hf] at hmatches'
  exact hother hmatches'

end Demux
end TbsMedia
