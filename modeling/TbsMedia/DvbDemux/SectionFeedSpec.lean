import TbsMedia.DvbDemux.SectionFeed

/-!
# What the section feed routines do

One lemma for each routine of `SectionFeed`, so that later files never unfold them.

* `sectionFeed_eq`: delivering a section adds calls and touches only the scratch fields.
* `sectionNew_eq`: the reset empties the accumulator.
* `dumpSections_eq`: the parser loop is `dumpScan`, which walks over the complete sections.
* `copyDump_eq`: a copy appends what fits into the buffer and runs the parser loop over it.
* `copies_copyDump`: no copy leaves the buffer.
* `sectionPacket_cont`, `sectionPacket_start`, `sectionPacket_lost`: one packet.
-/

namespace TbsMedia
namespace Demux

open Lib

variable (ops : DemuxOps)

/-! ## Sections and what is not one -/

/-- A PSI/SI section: its length field counts its bytes, and it is not longer than a section may
be. -/
structure Section where
  bytes : List UInt8
  three_le : 3 ≤ bytes.length
  le_max : bytes.length ≤ DMX_MAX_SECTION_SIZE
  length_field : sectionLength (bytes.getD 1 0) (bytes.getD 2 0) = bytes.length

/-- The bytes `u` do not begin with a complete section: the parser waits for more. -/
def Stuck (u : List UInt8) : Prop :=
  u.length < 3 ∨ DMX_MAX_SECTION_SIZE < sectionLength (u.getD 1 0) (u.getD 2 0) ∨
    u.length < sectionLength (u.getD 1 0) (u.getD 2 0)

@[simp] theorem stuck_nil : Stuck [] := Or.inl (by decide)

/-- The header of a list is read from its first three bytes. -/
theorem getD_append_of_lt {l : List UInt8} (l' : List UInt8) {i : ℕ} (h : i < l.length) :
    (l ++ l').getD i 0 = l.getD i 0 := by
  rw [List.getD_eq_getElem?_getD, List.getElem?_append_left h, ← List.getD_eq_getElem?_getD]

/-- A proper prefix of a section is no section. -/
theorem Section.stuck_of_prefix (s : Section) {v w : List UInt8} (h : s.bytes = v ++ w)
    (hw : w ≠ []) : Stuck v := by
  rcases Nat.lt_or_ge v.length 3 with hv | hv
  · exact Or.inl hv
  · have hlen := s.length_field
    rw [h, getD_append_of_lt w (by omega), getD_append_of_lt w (by omega), List.length_append]
      at hlen
    have hpos := List.length_pos_of_ne_nil hw
    exact Or.inr (Or.inr (by omega))

/-- Padding is no section: its length field would be larger than a section may be. -/
theorem stuck_replicate (k : ℕ) : Stuck (List.replicate k 0xff) := by
  rcases Nat.lt_or_ge k 3 with hk | hk
  · exact Or.inl (by rwa [List.length_replicate])
  · refine Or.inr (Or.inl ?_)
    have h1 : (List.replicate k (0xff : UInt8)).getD 1 0 = 0xff := by
      rw [List.getD_eq_getElem?_getD, List.getElem?_replicate_of_lt (by omega), Option.getD_some]
    have h2 : (List.replicate k (0xff : UInt8)).getD 2 0 = 0xff := by
      rw [List.getD_eq_getElem?_getD, List.getElem?_replicate_of_lt (by omega), Option.getD_some]
    rw [h1, h2]
    decide

/-- What begins with a section is not stuck. -/
theorem Section.not_stuck_append (s : Section) (q : List UInt8) : ¬ Stuck (s.bytes ++ q) := by
  have h3 := s.three_le
  have hmax := s.le_max
  have hlen := s.length_field
  rw [Stuck, getD_append_of_lt q (by omega), getD_append_of_lt q (by omega), hlen,
    List.length_append]
  omega

/-- In front of a stuck list there is no complete section. -/
theorem eq_nil_of_stuck_flatten {secs : List Section} {q : List UInt8}
    (h : Stuck ((secs.map Section.bytes).flatten ++ q)) : secs = [] := by
  cases secs with
  | nil => rfl
  | cons s secs =>
    rw [List.map_cons, List.flatten_cons, List.append_assoc] at h
    exact absurd h (s.not_stuck_append _)

/-! ## Delivering one section -/

/-- The calls once the filters `fs` have seen the section of length `len` at `a`. -/
def filterCalls (m : Mem UInt8) (isFiltering : Bool) (a len : ℕ) :
    List DvbDemuxFilter → List SectionCall → List SectionCall
  | [], calls => calls
  | f :: fs, calls =>
    if sectionfilterAccepts f (fun i => m (a + i)) then
      let calls := calls ++ [⟨m.read a len, f.index⟩]
      if ops.cbSecRet calls < 0 then calls
      else if isFiltering then filterCalls m isFiltering a len fs calls else calls
    else if isFiltering then filterCalls m isFiltering a len fs calls else calls

/-- What a delivery reads of a feed. -/
structure SectionView where
  mem : Mem UInt8
  isFiltering : Bool
  checkCrc : Bool
  filter : List DvbDemuxFilter
  pusiSeen : Bool

/-- The view of a feed. -/
def DvbDemuxFeed.view (feed : DvbDemuxFeed) : SectionView :=
  ⟨feed.sec.secbufBase, feed.isFiltering, feed.sec.checkCrc, feed.filter, feed.pusiSeen⟩

/-- The section of length `len` at `a` is discarded: its CRC is to be checked and is wrong. -/
def crcDiscards (v : SectionView) (a len : ℕ) : Prop :=
  v.checkCrc = true ∧ v.mem (a + 1) &&& 0x80 ≠ 0 ∧ ops.checkCrc32 0xffffffff (v.mem.read a len) ≠ 0

instance (v : SectionView) (a len : ℕ) : Decidable (crcDiscards ops v a len) :=
  inferInstanceAs (Decidable (_ ∧ _))

/-- The calls once the section of length `len` at `a` has been delivered. -/
def sectionCalls (v : SectionView) (a len : ℕ) (calls : List SectionCall) : List SectionCall :=
  if v.isFiltering then
    if crcDiscards ops v a len then calls
    else filterCalls ops v.mem v.isFiltering a len v.filter calls
  else calls

/-- The feed after a delivery: the calls, the flags and the scratch fields are new. -/
def DvbDemuxFeed.handed (feed : DvbDemuxFeed) (calls : List SectionCall) (flags crc : UInt32)
    (seclen : ℕ) : DvbDemuxFeed :=
  { feed with calls, bufferFlags := flags, sec.crcVal := crc, sec.seclen := seclen }

theorem sectionFeedFilters_eq (fs : List DvbDemuxFilter) (feed : DvbDemuxFeed) :
    ∃ flags seclen, sectionFeedFilters ops fs feed =
      feed.handed (filterCalls ops feed.sec.secbufBase feed.isFiltering feed.sec.secbuf
        feed.sec.seclen fs feed.calls) flags feed.sec.crcVal seclen := by
  induction fs generalizing feed with
  | nil => exact ⟨feed.bufferFlags, 0, rfl⟩
  | cons f fs ih =>
    by_cases hacc : sectionfilterAccepts f fun i => feed.sec.secbufBase (feed.sec.secbuf + i)
    · simp only [sectionFeedFilters, dvbDmxSwfilterSectionfilter, filterCalls, hacc, if_true, cbSec]
      split_ifs
      · exact ⟨_, feed.sec.seclen, rfl⟩
      · exact ih (cbSec ops feed f).2
      · exact ⟨_, 0, rfl⟩
    · simp only [sectionFeedFilters, dvbDmxSwfilterSectionfilter, filterCalls, hacc,
        Bool.false_eq_true, if_false, Int.lt_irrefl]
      split_ifs
      · exact ih feed
      · exact ⟨feed.bufferFlags, 0, rfl⟩

/-- `section_feed` makes the calls of `sectionCalls` and touches only the flags and the scratch
fields. -/
theorem sectionFeed_eq (feed : DvbDemuxFeed) (hcrc : feed.sec.crcVal = 0xffffffff) :
    ∃ flags crc seclen, dvbDmxSwfilterSectionFeed ops feed =
      feed.handed (sectionCalls ops feed.view feed.sec.secbuf feed.sec.seclen feed.calls) flags crc
        seclen := by
  -- the filters see the feed with whatever the CRC routine has left in `crc_val`
  have hfilters : ∀ crc, ∃ flags crc' seclen,
      sectionFeedFilters ops feed.filter { feed with sec.crcVal := crc } =
        feed.handed (filterCalls ops feed.sec.secbufBase feed.isFiltering feed.sec.secbuf
          feed.sec.seclen feed.filter feed.calls) flags crc' seclen := by
    intro crc
    obtain ⟨fl, sl, h⟩ := sectionFeedFilters_eq ops feed.filter { feed with sec.crcVal := crc }
    exact ⟨fl, crc, sl, h⟩
  have hview : feed.view.isFiltering = feed.isFiltering := rfl
  by_cases hfil : feed.isFiltering = true
  · rw [dvbDmxSwfilterSectionFeed, if_neg (by simp [hfil]), sectionCalls, if_pos (hview.trans hfil),
      hcrc]
    by_cases hnil : feed.filter = []
    · have hcalls : filterCalls ops feed.view.mem feed.view.isFiltering feed.sec.secbuf
          feed.sec.seclen feed.view.filter feed.calls = feed.calls := by
        rw [show feed.view.filter = [] from hnil, filterCalls]
      rw [if_pos hnil, hcalls, ite_self]
      exact ⟨feed.bufferFlags, feed.sec.crcVal, feed.sec.seclen, rfl⟩
    · rw [if_neg hnil]
      by_cases hchk : feed.sec.checkCrc = true
      · rw [if_pos hchk]
        by_cases hsyn : feed.sec.secbufBase (feed.sec.secbuf + 1) &&& 0x80 ≠ 0
        · by_cases hbad : ops.checkCrc32 0xffffffff
              (feed.sec.secbufBase.read feed.sec.secbuf feed.sec.seclen) ≠ 0
          · rw [if_pos (show crcDiscards ops feed.view _ _ from ⟨hchk, hsyn, hbad⟩)]
            dsimp only
            rw [if_pos hsyn, if_pos hbad]
            exact ⟨_, _, _, rfl⟩
          · rw [if_neg (show ¬ crcDiscards ops feed.view _ _ from fun h => hbad h.2.2)]
            dsimp only
            rw [if_pos hsyn, if_neg hbad]
            exact hfilters _
        · rw [if_neg (show ¬ crcDiscards ops feed.view _ _ from fun h => hsyn h.2.1)]
          dsimp only
          rw [if_neg hsyn]
          exact hfilters feed.sec.crcVal
      · rw [if_neg hchk, if_neg (show ¬ crcDiscards ops feed.view _ _ from fun h => hchk h.1)]
        exact hfilters feed.sec.crcVal
  · rw [dvbDmxSwfilterSectionFeed, if_pos (by simp [hfil]), sectionCalls,
      if_neg (fun h => hfil (hview.symm.trans h))]
    exact ⟨feed.bufferFlags, feed.sec.crcVal, feed.sec.seclen, rfl⟩

/-! ## The parser loop -/

/-- The `seclen` of the section at `pos`. -/
def seclenAt (m : Mem UInt8) (pos : ℕ) : ℕ := sectionLength (m (pos + 1)) (m (pos + 2))

/-- A complete section lies at `pos`, in front of `limit`. -/
def CompleteAt (m : Mem UInt8) (limit pos : ℕ) : Prop :=
  pos + 2 < limit ∧ seclenAt m pos ≤ DMX_MAX_SECTION_SIZE ∧ seclenAt m pos + pos ≤ limit

instance (m : Mem UInt8) (limit pos : ℕ) : Decidable (CompleteAt m limit pos) :=
  inferInstanceAs (Decidable (_ ∧ _))

/-- The parser loop on its own: where its cursor ends, and the calls by then. -/
def dumpScan (v : SectionView) (limit : ℕ) :
    ℕ → ℕ → List SectionCall → ℕ × List SectionCall
  | 0, pos, calls => (pos, calls)
  | fuel + 1, pos, calls =>
    if CompleteAt v.mem limit pos then
      dumpScan v limit fuel (pos + seclenAt v.mem pos)
        (if v.pusiSeen then sectionCalls ops v pos (seclenAt v.mem pos) calls else calls)
    else (pos, calls)

/-- The feed with its parser cursor at `pos`. -/
def DvbDemuxFeed.seek (feed : DvbDemuxFeed) (pos : ℕ) : DvbDemuxFeed :=
  { feed with sec.secbufp := pos, sec.secbuf := pos }

/-- The loop stops where no complete section lies. -/
theorem dumpSections_stop {limit fuel pos : ℕ} {feed : DvbDemuxFeed}
    (h : ¬ CompleteAt feed.view.mem limit pos) :
    dumpSections ops limit (fuel + 1) (feed.seek pos) = feed.seek pos := by
  have hlen := sectionLength_pos (feed.view.mem (pos + 1)) (feed.view.mem (pos + 2))
  change (if pos + 2 < limit then
    if seclenAt feed.view.mem pos = 0 ∨ seclenAt feed.view.mem pos > DMX_MAX_SECTION_SIZE ∨
      seclenAt feed.view.mem pos + pos > limit then _ else _ else _) = _
  rw [CompleteAt] at h
  split_ifs with h1 h2
  · rfl
  · omega
  · rfl

/-- The loop delivers the complete section at its cursor and goes on behind it. -/
theorem dumpSections_go (fuel : ℕ) {limit pos : ℕ} {feed : DvbDemuxFeed}
    (h : CompleteAt feed.view.mem limit pos) :
    ∃ flags crc seclen, dumpSections ops limit (fuel + 1) (feed.seek pos) =
      dumpSections ops limit fuel
        ((feed.handed (if feed.view.pusiSeen then
            sectionCalls ops feed.view pos (seclenAt feed.view.mem pos) feed.calls
          else feed.calls) flags crc seclen).seek (pos + seclenAt feed.view.mem pos)) := by
  have hlen : 3 ≤ seclenAt feed.view.mem pos := sectionLength_pos _ _
  obtain ⟨h1, h2, h3⟩ := h
  generalize hn : seclenAt feed.view.mem pos = n at *
  -- the feed behind the delivery
  obtain ⟨F, hF⟩ : ∃ F, F = if feed.pusiSeen then dvbDmxSwfilterSectionFeed ops
      ((feed.seek pos).handed feed.calls feed.bufferFlags 0xffffffff n)
    else (feed.seek pos).handed feed.calls (feed.bufferFlags |||
      DMX_BUFFER_FLAG_DISCONTINUITY_DETECTED) 0xffffffff n := ⟨_, rfl⟩
  have hgo : dumpSections ops limit (fuel + 1) (feed.seek pos) = dumpSections ops limit fuel
      { F with sec.secbufp := F.sec.secbufp + n, sec.secbuf := F.sec.secbuf + n } := by
    subst hF hn
    change (if pos + 2 < limit then
      if seclenAt feed.view.mem pos = 0 ∨ seclenAt feed.view.mem pos > DMX_MAX_SECTION_SIZE ∨
        seclenAt feed.view.mem pos + pos > limit then _ else _ else _) = _
    rw [if_pos h1, if_neg (by omega)]
    rfl
  rw [hgo, hF]
  by_cases hpusi : feed.pusiSeen = true
  · obtain ⟨fl, crc, sl, h⟩ := sectionFeed_eq ops
      ((feed.seek pos).handed feed.calls feed.bufferFlags 0xffffffff n) rfl
    rw [if_pos hpusi, if_pos (show feed.view.pusiSeen = true from hpusi), h]
    exact ⟨fl, crc, sl, rfl⟩
  · rw [if_neg hpusi, if_neg (show ¬ feed.view.pusiSeen = true from hpusi)]
    exact ⟨_, _, _, rfl⟩

/-- **The parser loop**: it moves the cursor and makes the calls of `dumpScan`. -/
theorem dumpSections_eq (limit fuel pos : ℕ) (feed : DvbDemuxFeed) :
    ∃ flags crc seclen, dumpSections ops limit fuel (feed.seek pos) =
      (feed.seek (dumpScan ops feed.view limit fuel pos feed.calls).1).handed
        (dumpScan ops feed.view limit fuel pos feed.calls).2 flags crc seclen := by
  induction fuel generalizing feed pos with
  | zero => exact ⟨feed.bufferFlags, feed.sec.crcVal, feed.sec.seclen, rfl⟩
  | succ fuel ih =>
    rw [dumpScan]
    by_cases h : CompleteAt feed.view.mem limit pos
    · obtain ⟨fl, crc, sl, hgo⟩ := dumpSections_go ops fuel h
      rw [hgo, if_pos h]
      exact ih _ (feed.handed _ fl crc sl)
    · rw [dumpSections_stop ops h, if_neg h]
      exact ⟨feed.bufferFlags, feed.sec.crcVal, feed.sec.seclen, rfl⟩

/-! ## The accumulator -/

/-- How many bytes still fit into the buffer. -/
def DvbDemuxFeed.room (feed : DvbDemuxFeed) : ℕ := DMX_MAX_SECFEED_SIZE - feed.sec.tsfeedp

/-- The feed with `bs` copied behind the data it has. -/
def DvbDemuxFeed.append (feed : DvbDemuxFeed) (bs : List UInt8) : DvbDemuxFeed :=
  { feed with
    sec.secbufBase := feed.sec.secbufBase.write feed.sec.tsfeedp bs
    sec.tsfeedp := feed.sec.tsfeedp + bs.length
    copies := feed.copies ++ [(feed.sec.tsfeedp, bs.length)] }

/-- The feed with an empty accumulator. -/
def DvbDemuxFeed.emptied (feed : DvbDemuxFeed) (flags : UInt32) : DvbDemuxFeed :=
  { feed with
    bufferFlags := flags, sec.tsfeedp := 0, sec.secbufp := 0, sec.seclen := 0, sec.secbuf := 0 }

theorem sectionNew_eq (feed : DvbDemuxFeed) :
    ∃ flags, dvbDmxSwfilterSectionNew feed = feed.emptied flags := by
  simp only [dvbDmxSwfilterSectionNew]
  split_ifs
  · exact ⟨_, rfl⟩
  · exact ⟨feed.bufferFlags, rfl⟩
  · exact ⟨feed.bufferFlags, rfl⟩

/-- A copy of nothing, or into a full buffer, does nothing. -/
theorem copyDump_nil {feed : DvbDemuxFeed} {buf : List UInt8} (h : buf.take feed.room = []) :
    dvbDmxSwfilterSectionCopyDump ops feed buf = feed := by
  rw [dvbDmxSwfilterSectionCopyDump]
  by_cases hfull : feed.sec.tsfeedp ≥ DMX_MAX_SECFEED_SIZE
  · exact if_pos hfull
  · have hlen := congrArg List.length h
    rw [List.length_take, DvbDemuxFeed.room, List.length_nil] at hlen
    have hbuf : buf.length = 0 := by omega
    simp only [if_neg hfull, hbuf, Nat.add_zero, if_neg (show ¬ feed.sec.tsfeedp >
      DMX_MAX_SECFEED_SIZE by omega), if_true]

/-- **A copy** appends what fits into the buffer and runs the parser loop over it. -/
theorem copyDump_eq {feed : DvbDemuxFeed} {buf bs : List UInt8} (hbs : buf.take feed.room = bs)
    (hne : bs ≠ []) :
    ∃ flags crc seclen, dvbDmxSwfilterSectionCopyDump ops feed buf =
      let limit := feed.sec.tsfeedp + bs.length
      let scan := dumpScan ops (feed.append bs).view limit limit feed.sec.secbufp feed.calls
      ((feed.append bs).seek scan.1).handed scan.2 flags crc seclen := by
  have hpos := List.length_pos_of_ne_nil hne
  have hlen : bs.length = min (DMX_MAX_SECFEED_SIZE - feed.sec.tsfeedp) buf.length := by
    rw [← hbs, List.length_take, DvbDemuxFeed.room]
  have htake : buf.take bs.length = bs := by
    rw [← hbs, List.length_take, List.take_eq_take_iff]
    omega
  obtain ⟨fl, hfl⟩ : ∃ fl, (if feed.sec.tsfeedp + buf.length > DMX_MAX_SECFEED_SIZE then
      setBufFlags feed DMX_BUFFER_FLAG_DISCONTINUITY_DETECTED else feed) =
        { feed with bufferFlags := fl } := by
    split_ifs
    · exact ⟨_, rfl⟩
    · exact ⟨feed.bufferFlags, rfl⟩
  have hcut : (if feed.sec.tsfeedp + buf.length > DMX_MAX_SECFEED_SIZE then
      DMX_MAX_SECFEED_SIZE - feed.sec.tsfeedp else buf.length) = bs.length := by
    split_ifs <;> omega
  rw [dvbDmxSwfilterSectionCopyDump]
  simp only [hfl, hcut, htake]
  rw [if_neg (by omega), if_neg (by omega), if_neg (by omega)]
  exact dumpSections_eq ops _ _ _ ({ feed with bufferFlags := fl }.append bs)

/-- No copy leaves the buffer. -/
theorem copies_copyDump (feed : DvbDemuxFeed) (buf : List UInt8) :
    ∃ extra, (dvbDmxSwfilterSectionCopyDump ops feed buf).copies = feed.copies ++ extra ∧
      ∀ c ∈ extra, c.1 + c.2 ≤ DMX_MAX_SECFEED_SIZE := by
  by_cases hne : buf.take feed.room = []
  · refine ⟨[], ?_, by simp⟩
    rw [copyDump_nil ops hne, List.append_nil]
  · obtain ⟨fl, crc, sl, h⟩ := copyDump_eq ops rfl hne
    refine ⟨[(feed.sec.tsfeedp, (buf.take feed.room).length)], by rw [h]; rfl, ?_⟩
    have hpos := List.length_pos_of_ne_nil hne
    rw [List.length_take, DvbDemuxFeed.room] at hpos
    intro c hc
    rw [List.mem_singleton.mp hc, List.length_take, DvbDemuxFeed.room]
    omega

/-! ## One packet -/

/-- The feed behind the continuity check of a packet. -/
def Entered (feed : DvbDemuxFeed) (buf : TsPacket) (feed' : DvbDemuxFeed) : Prop :=
  if (feed.cc + 1) % 16 = buf.cc ∧ ¬ buf.dcI then feed' = { feed with cc := buf.cc }
  else ∃ flags, feed' = { feed with cc := buf.cc, pusiSeen := false }.emptied flags

/-- The continuity check of a packet. -/
def DvbDemuxFeed.entered (feed : DvbDemuxFeed) (buf : TsPacket) : DvbDemuxFeed :=
  if ¬ (feed.cc + 1) % 16 = buf.cc ∨ buf.dcI then sectionDiscontinuity { feed with cc := buf.cc } buf
  else { feed with cc := buf.cc }

theorem entered_entered (feed : DvbDemuxFeed) (buf : TsPacket) : Entered feed buf (feed.entered buf) := by
  rw [Entered, DvbDemuxFeed.entered]
  by_cases hok : (feed.cc + 1) % 16 = buf.cc ∧ ¬ buf.dcI
  · rw [if_pos hok, if_neg (by tauto)]
  · rw [if_neg hok, if_pos (by tauto)]
    exact sectionNew_eq _

theorem sectionPacket_of_payload_eq_zero {feed : DvbDemuxFeed} {buf : TsPacket}
    (h : payload buf = 0) : dvbDmxSwfilterSectionPacket ops feed buf = (-1, feed) := if_pos h

/-- **One packet**: the continuity check, and then the copies its start indicator asks for. -/
theorem sectionPacket_eq_entered (feed : DvbDemuxFeed) {buf : TsPacket} (h : payload buf ≠ 0) :
    dvbDmxSwfilterSectionPacket ops feed buf =
      (0, if buf.pusi then
        match buf.payloadBytes with
        | [] => feed.entered buf
        | ptr :: body =>
          if ptr.toNat < body.length + 1 ∧ body ≠ [] then
            dvbDmxSwfilterSectionCopyDump ops
              (dvbDmxSwfilterSectionNew { dvbDmxSwfilterSectionCopyDump ops (feed.entered buf)
                (body.take ptr.toNat) with pusiSeen := true })
              (body.drop ptr.toNat)
          else setBufFlags (feed.entered buf) DMX_BUFFER_FLAG_DISCONTINUITY_DETECTED
      else dvbDmxSwfilterSectionCopyDump ops (feed.entered buf) buf.payloadBytes) := by
  rw [dvbDmxSwfilterSectionPacket, if_neg h]
  dsimp only
  rw [show (if ¬ (feed.cc + 1) % 16 = buf.cc ∨ buf.dcI then
    sectionDiscontinuity { feed with cc := buf.cc } buf else { feed with cc := buf.cc }) =
      feed.entered buf from rfl]
  generalize feed.entered buf = feed'
  by_cases hpusi : buf.pusi
  · rw [if_pos hpusi, if_pos hpusi]
    rcases hbytes : buf.payloadBytes with _ | ⟨ptr, body⟩
    · exact absurd ((length_payloadBytes buf).symm.trans (congrArg List.length hbytes)) h
    · have hcount : payload buf = body.length + 1 := by
        rw [← length_payloadBytes, hbytes, List.length_cons]
      have hptr : buf (188 - payload buf) = ptr := apply_payload_start buf hbytes
      have hbefore := slice_after_first buf hbytes 0 ptr.toNat
      have hafter := slice_after_first buf hbytes ptr.toNat (payload buf - 1 - ptr.toNat)
      rw [Nat.add_zero, List.drop_zero] at hbefore
      rw [List.take_of_length_le (by rw [List.length_drop]; omega)] at hafter
      have hcond : (payload buf > 1 ∧ ptr.toNat < payload buf) ↔
          (ptr.toNat < body.length + 1 ∧ body ≠ []) := by
        rw [hcount, ← List.length_pos_iff]
        omega
      simp only [hptr, hbefore, hafter, hcond]
      split_ifs <;> rfl
  · rw [if_neg hpusi, if_neg hpusi, slice_payload]

/-- A packet, of the feed behind the continuity check. -/
theorem sectionPacket_eq (feed : DvbDemuxFeed) {buf : TsPacket} (h : payload buf ≠ 0) :
    ∃ feed', Entered feed buf feed' ∧ dvbDmxSwfilterSectionPacket ops feed buf =
      (0, if buf.pusi then
        match buf.payloadBytes with
        | [] => feed'
        | ptr :: body =>
          if ptr.toNat < body.length + 1 ∧ body ≠ [] then
            dvbDmxSwfilterSectionCopyDump ops
              (dvbDmxSwfilterSectionNew { dvbDmxSwfilterSectionCopyDump ops feed'
                (body.take ptr.toNat) with pusiSeen := true })
              (body.drop ptr.toNat)
          else setBufFlags feed' DMX_BUFFER_FLAG_DISCONTINUITY_DETECTED
      else dvbDmxSwfilterSectionCopyDump ops feed' buf.payloadBytes) :=
  ⟨feed.entered buf, entered_entered feed buf, sectionPacket_eq_entered ops feed h⟩

/-- A packet without a start indicator is copied. -/
theorem sectionPacket_cont (feed : DvbDemuxFeed) {buf : TsPacket} (h : payload buf ≠ 0)
    (hpusi : ¬ buf.pusi) :
    ∃ feed', Entered feed buf feed' ∧ dvbDmxSwfilterSectionPacket ops feed buf =
      (0, dvbDmxSwfilterSectionCopyDump ops feed' buf.payloadBytes) := by
  obtain ⟨feed', he, hpkt⟩ := sectionPacket_eq ops feed h
  rw [if_neg hpusi] at hpkt
  exact ⟨feed', he, hpkt⟩

/-- A packet with a start indicator is copied up to the place its pointer field names, and from
there on into an empty accumulator. -/
theorem sectionPacket_start (feed : DvbDemuxFeed) {buf : TsPacket} (hpusi : buf.pusi) {ptr : UInt8}
    {body : List UInt8} (hbytes : buf.payloadBytes = ptr :: body) (hptr : ptr.toNat ≤ body.length)
    (hne : body ≠ []) :
    ∃ feed' flags, Entered feed buf feed' ∧ dvbDmxSwfilterSectionPacket ops feed buf =
      (0, dvbDmxSwfilterSectionCopyDump ops
        ({ dvbDmxSwfilterSectionCopyDump ops feed' (body.take ptr.toNat) with
          pusiSeen := true }.emptied flags)
        (body.drop ptr.toNat)) := by
  have h : payload buf ≠ 0 := by
    rw [← length_payloadBytes, hbytes]
    exact Nat.succ_ne_zero _
  obtain ⟨feed', he, hpkt⟩ := sectionPacket_eq ops feed h
  obtain ⟨fl, hnew⟩ := sectionNew_eq { dvbDmxSwfilterSectionCopyDump ops feed'
    (body.take ptr.toNat) with pusiSeen := true }
  rw [if_pos hpusi, hbytes] at hpkt
  dsimp only at hpkt
  rw [if_pos ⟨Nat.lt_succ_of_le hptr, hne⟩, hnew] at hpkt
  exact ⟨feed', fl, he, hpkt⟩

/-- A packet with a start indicator whose pointer field leaves no room for a section only raises a
flag. -/
theorem sectionPacket_lost (feed : DvbDemuxFeed) {buf : TsPacket} (hpusi : buf.pusi) {ptr : UInt8}
    {body : List UInt8} (hbytes : buf.payloadBytes = ptr :: body)
    (hlost : ¬ (ptr.toNat ≤ body.length ∧ body ≠ [])) :
    ∃ feed', Entered feed buf feed' ∧ dvbDmxSwfilterSectionPacket ops feed buf =
      (0, setBufFlags feed' DMX_BUFFER_FLAG_DISCONTINUITY_DETECTED) := by
  have h : payload buf ≠ 0 := by
    rw [← length_payloadBytes, hbytes]
    exact Nat.succ_ne_zero _
  obtain ⟨feed', he, hpkt⟩ := sectionPacket_eq ops feed h
  rw [if_pos hpusi, hbytes] at hpkt
  dsimp only at hpkt
  rw [if_neg (by rwa [Nat.lt_succ_iff])] at hpkt
  exact ⟨feed', he, hpkt⟩

end Demux
end TbsMedia
