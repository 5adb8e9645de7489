import Mathlib
import TbsMedia.DvbDemux.SectionReassembly

/-!
# Packets without payload

A packet that carries only an adaptation field says nothing about sections, and a section feed
should not notice it.  But `dvb_dmx_swfilter_section_packet` answers such a packet with an error,
and on an error `dvb_dmx_swfilter_packet_type` sets `secbufp` back to zero and leaves `tsfeedp`
alone: the next byte that is copied makes the parser loop walk once more over the sections that the
accumulator has held since its last reset.

Two runs are compared here, one with such packets inserted and one without.  `Settles` says of a
feed and of the packets still to come that the second walk hands nothing up, because the accumulator
is reset first, or because no section on the way passes to a filter.  `Replays` relates the two runs
while the second walk is still outstanding, and `transparent_of_harmless` is the result for whole
streams.
-/

namespace TbsMedia
namespace Demux

open Lib Relation

variable (ops : DemuxOps)

/-! ## Walks over complete sections -/

/-- The parser loop goes from `a` to `b` over one complete section. -/
def NextSection (m : Mem UInt8) (limit a b : ℕ) : Prop :=
  CompleteAt m limit a ∧ b = a + seclenAt m a

/-- The parser loop goes from `a` to `b` over complete sections. -/
abbrev Walk (m : Mem UInt8) (limit : ℕ) : ℕ → ℕ → Prop := ReflTransGen (NextSection m limit)

/-- A longer accumulator with the same beginning has the same complete sections. -/
theorem NextSection.mono {m m' : Mem UInt8} {limit limit' a b : ℕ} (hm : ∀ i < limit, m' i = m i)
    (hle : limit ≤ limit') (h : NextSection m limit a b) : NextSection m' limit' a b := by
  obtain ⟨⟨h1, h2, h3⟩, hb⟩ := h
  have hlen : seclenAt m' a = seclenAt m a := by
    rw [seclenAt, seclenAt, hm _ (by omega), hm _ h1]
  rw [NextSection, CompleteAt, hlen]
  exact ⟨⟨by omega, h2, by omega⟩, hb⟩

theorem Walk.mono {m m' : Mem UInt8} {limit limit' a b : ℕ} (hm : ∀ i < limit, m' i = m i)
    (hle : limit ≤ limit') (h : Walk m limit a b) : Walk m' limit' a b :=
  ReflTransGen.mono (fun _ _ => NextSection.mono hm hle) a b h

theorem Walk.le {m : Mem UInt8} {limit a b : ℕ} (h : Walk m limit a b) : a ≤ b := by
  induction h with
  | refl => exact Nat.le_refl _
  | tail _ hstep ih =>
    obtain ⟨_, rfl⟩ := hstep
    exact Nat.le_trans ih (Nat.le_add_right _ _)

/-- The rounds that the parser loop is given do not matter once there are enough of them. -/
theorem dumpScan_fuel (v : SectionView) (limit : ℕ) (fuel fuel' pos : ℕ) (calls : List SectionCall)
    (h : limit - pos ≤ fuel) (h' : limit - pos ≤ fuel') :
    dumpScan ops v limit fuel pos calls = dumpScan ops v limit fuel' pos calls := by
  induction fuel generalizing fuel' pos calls with
  | zero =>
    have hstop : ¬ CompleteAt v.mem limit pos := fun hc => by
      have := hc.1
      omega
    cases fuel' with
    | zero => rfl
    | succ fuel' => rw [dumpScan, dumpScan, if_neg hstop]
  | succ fuel ih =>
    by_cases hc : CompleteAt v.mem limit pos
    · have hpos := hc.1
      have hlen : 3 ≤ seclenAt v.mem pos := sectionLength_pos _ _
      obtain ⟨k, rfl⟩ : ∃ k, fuel' = k + 1 := ⟨fuel' - 1, by omega⟩
      rw [dumpScan, dumpScan, if_pos hc, if_pos hc]
      exact ih _ _ _ (by omega) (by omega)
    · cases fuel' with
      | zero => rw [dumpScan, dumpScan, if_neg hc]
      | succ fuel' => rw [dumpScan, dumpScan, if_neg hc, if_neg hc]

/-- The parser loop ends on a walk. -/
theorem dumpScan_walk (v : SectionView) (limit fuel pos : ℕ) (calls : List SectionCall) :
    Walk v.mem limit pos (dumpScan ops v limit fuel pos calls).1 := by
  induction fuel generalizing pos calls with
  | zero => exact .refl
  | succ fuel ih =>
    rw [dumpScan]
    by_cases hc : CompleteAt v.mem limit pos
    · rw [if_pos hc]
      exact .head ⟨hc, rfl⟩ (ih _ _)
    · rw [if_neg hc]

/-! ## Sections that nobody hears of -/

/-- The section at `a` is handed to a filter. -/
def Delivers (v : SectionView) (a : ℕ) : Prop :=
  v.pusiSeen = true ∧ v.isFiltering = true ∧ ¬ crcDiscards ops v a (seclenAt v.mem a) ∧
    ∃ f ∈ v.filter, sectionfilterAccepts f fun i => v.mem (a + i)

/-- The sections in front of `b` are handed to no filter. -/
def Quiet (v : SectionView) (limit b : ℕ) : Prop :=
  ∀ a, Walk v.mem limit 0 a → a < b → ¬ Delivers ops v a

theorem filterCalls_of_rejected {m : Mem UInt8} {isFiltering : Bool} {a len : ℕ}
    {fs : List DvbDemuxFilter} (h : ∀ f ∈ fs, ¬ sectionfilterAccepts f fun i => m (a + i))
    (calls : List SectionCall) : filterCalls ops m isFiltering a len fs calls = calls := by
  induction fs with
  | nil => rfl
  | cons f fs ih =>
    rw [filterCalls, if_neg (h f (List.mem_cons_self ..)),
      ih fun g hg => h g (List.mem_cons_of_mem _ hg), ite_self]

theorem sectionCalls_of_not_delivers {v : SectionView} {a : ℕ} (h : ¬ Delivers ops v a)
    (calls : List SectionCall) :
    (if v.pusiSeen then sectionCalls ops v a (seclenAt v.mem a) calls else calls) = calls := by
  by_cases hpusi : v.pusiSeen = true
  · rw [if_pos hpusi, sectionCalls]
    split_ifs with hfil hcrc
    · rfl
    · exact filterCalls_of_rejected ops (fun f hf hacc => h ⟨hpusi, hfil, hcrc, f, hf, hacc⟩) calls
    · rfl
  · exact if_neg hpusi

/-- A walk over sections that nobody hears of leads the parser loop nowhere else. -/
theorem dumpScan_skip {v : SectionView} {limit a b : ℕ} (hwalk : Walk v.mem limit a b)
    (hquiet : ∀ c, Walk v.mem limit a c → c < b → ¬ Delivers ops v c) (calls : List SectionCall) :
    dumpScan ops v limit limit a calls = dumpScan ops v limit limit b calls := by
  induction hwalk using ReflTransGen.head_induction_on with
  | refl => rfl
  | @head a _ hstep hwalk ih =>
    obtain ⟨hc, rfl⟩ := hstep
    have hlen : 3 ≤ seclenAt v.mem a := sectionLength_pos _ _
    have hle : a + seclenAt v.mem a ≤ b := Walk.le hwalk
    rw [dumpScan_fuel ops v limit limit (limit + 1) a calls (by omega) (by omega), dumpScan,
      if_pos hc, sectionCalls_of_not_delivers ops (hquiet a .refl (by omega))]
    exact ih fun d hd => hquiet d (.head ⟨hc, rfl⟩ hd)

/-! ## What the next packets do to the accumulator -/

/-- The payload of a packet, split where the section that its pointer field names starts. -/
def TsPacket.split (buf : TsPacket) : List UInt8 × Option (List UInt8) :=
  if buf.pusi then
    match buf.payloadBytes with
    | [] => ([], none)
    | ptr :: body =>
      if ptr.toNat ≤ body.length ∧ body ≠ [] then
        (body.take ptr.toNat, some (body.drop ptr.toNat))
      else ([], none)
  else (buf.payloadBytes, none)

/-- One packet with payload, by the way its payload is split. -/
theorem sectionPacket_split (feed : DvbDemuxFeed) {buf : TsPacket} (h : payload buf ≠ 0) :
    ∃ feed' flags, Entered feed buf feed' ∧ dvbDmxSwfilterSectionPacket ops feed buf =
      (0, match buf.split.2 with
      | none => { dvbDmxSwfilterSectionCopyDump ops feed' buf.split.1 with bufferFlags := flags }
      | some after => dvbDmxSwfilterSectionCopyDump ops
          ({ dvbDmxSwfilterSectionCopyDump ops feed' buf.split.1 with
            pusiSeen := true }.emptied flags) after) := by
  by_cases hpusi : buf.pusi
  · obtain ⟨ptr, body, hbytes⟩ := List.exists_cons_of_ne_nil
      (show buf.payloadBytes ≠ [] from fun hnil => h ((length_payloadBytes buf).symm.trans
        (congrArg List.length hnil)))
    by_cases hin : ptr.toNat ≤ body.length ∧ body ≠ []
    · obtain ⟨feed', fl, he, hpkt⟩ := sectionPacket_start ops feed hpusi hbytes hin.1 hin.2
      refine ⟨feed', fl, he, ?_⟩
      rw [hpkt, TsPacket.split, if_pos hpusi, hbytes]
      dsimp only
      rw [if_pos hin]
    · obtain ⟨feed', he, hpkt⟩ := sectionPacket_lost ops feed hpusi hbytes hin
      refine ⟨feed', feed'.bufferFlags ||| DMX_BUFFER_FLAG_DISCONTINUITY_DETECTED, he, ?_⟩
      rw [hpkt, TsPacket.split, if_pos hpusi, hbytes]
      dsimp only
      rw [if_neg hin, copyDump_nil ops List.take_nil]
      rfl
  · obtain ⟨feed', he, hpkt⟩ := sectionPacket_cont ops feed h hpusi
    refine ⟨feed', (dvbDmxSwfilterSectionCopyDump ops feed' buf.payloadBytes).bufferFlags, he, ?_⟩
    rw [hpkt, TsPacket.split, if_neg hpusi]

/-- A second walk over the sections in front of `secbufp` would hand nothing up, as the packets to
come arrive: before a byte is copied the accumulator is reset, or the sections on the way, seen with
the copied bytes behind them, are handed to no filter. -/
def Settles (v : SectionView) (tsfeedp secbufp : ℕ) : ℕ → List TsPacket → Prop
  | _, [] => True
  | cc, buf :: pkts =>
    payload buf ≠ 0 → (cc + 1) % 16 = buf.cc → ¬ buf.dcI →
      let bs := buf.split.1.take (DMX_MAX_SECFEED_SIZE - tsfeedp)
      if bs = [] then buf.split.2 = none → Settles v tsfeedp secbufp buf.cc pkts
      else Quiet ops { v with mem := v.mem.write tsfeedp bs } (tsfeedp + bs.length) secbufp

/-- `Settles`, for the sections that `feed` has parsed. -/
def DvbDemuxFeed.Settles (feed : DvbDemuxFeed) (pkts : List TsPacket) : Prop :=
  Demux.Settles ops feed.view feed.sec.tsfeedp feed.sec.secbufp feed.cc pkts

/-! ## The two runs -/

/-- What decides about the calls of a feed, its parser cursor apart. -/
def DvbDemuxFeed.core (feed : DvbDemuxFeed) : DvbDemuxFeed :=
  { feed.seek 0 with bufferFlags := 0, sec.crcVal := 0, sec.seclen := 0 }

/-- Everything in front of the cursor has been parsed. -/
def Parsed (feed : DvbDemuxFeed) : Prop :=
  Walk feed.sec.secbufBase feed.sec.tsfeedp 0 feed.sec.secbufp

theorem parsed_emptied (feed : DvbDemuxFeed) (flags : UInt32) : Parsed (feed.emptied flags) :=
  ReflTransGen.refl

/-- The feed `F` may have its cursor back at the start where `G` has not. -/
structure Replays (F G : DvbDemuxFeed) (pkts : List TsPacket) : Prop where
  core : F.core = G.core
  isFiltering : G.isFiltering = true
  parsed : Parsed G
  cursor : F.sec.secbufp = G.sec.secbufp ∨ F.sec.secbufp = 0 ∧ G.Settles ops pkts

/-- The core of a feed behind a copy. -/
theorem core_copyDump {feed : DvbDemuxFeed} {buf bs : List UInt8} (hbs : buf.take feed.room = bs)
    (hne : bs ≠ []) :
    let limit := feed.sec.tsfeedp + bs.length
    let scan := dumpScan ops (feed.core.append bs).view limit limit feed.sec.secbufp feed.core.calls
    let feed' := dvbDmxSwfilterSectionCopyDump ops feed buf
    feed'.core = { feed.core.append bs with calls := scan.2 } ∧ feed'.sec.secbufp = scan.1 := by
  obtain ⟨fl, crc, sl, h⟩ := copyDump_eq ops hbs hne
  rw [h]
  exact ⟨rfl, rfl⟩

/-- A copy leaves everything in front of the cursor parsed. -/
theorem parsed_copyDump {feed : DvbDemuxFeed} (h : Parsed feed) (buf : List UInt8) :
    Parsed (dvbDmxSwfilterSectionCopyDump ops feed buf) := by
  by_cases hne : buf.take feed.room = []
  · rwa [copyDump_nil ops hne]
  · obtain ⟨hcore, hpos⟩ := core_copyDump ops rfl hne
    change Walk (dvbDmxSwfilterSectionCopyDump ops feed buf).core.sec.secbufBase
      (dvbDmxSwfilterSectionCopyDump ops feed buf).core.sec.tsfeedp 0 _
    rw [hpos, hcore]
    refine (Walk.mono (fun i hi => ?_) (Nat.le_add_right _ _) h).trans
      (dumpScan_walk ops (feed.core.append (buf.take feed.room)).view _ _ _ _)
    exact Mem.write_apply_of_lt _ _ hi

/-- A copy brings the two cursors together, if the second walk hands nothing up. -/
theorem copyDump_replays {F G : DvbDemuxFeed} (hcore : F.core = G.core) (hparsed : Parsed G)
    {buf bs : List UInt8} (hbs : buf.take G.room = bs) (hne : bs ≠ [])
    (hcursor : F.sec.secbufp = G.sec.secbufp ∨ F.sec.secbufp = 0 ∧
      Quiet ops (G.append bs).view (G.append bs).sec.tsfeedp G.sec.secbufp) :
    (dvbDmxSwfilterSectionCopyDump ops F buf).core =
        (dvbDmxSwfilterSectionCopyDump ops G buf).core ∧
      (dvbDmxSwfilterSectionCopyDump ops F buf).sec.secbufp =
        (dvbDmxSwfilterSectionCopyDump ops G buf).sec.secbufp := by
  have hts : F.sec.tsfeedp = G.sec.tsfeedp := by
    change F.core.sec.tsfeedp = G.core.sec.tsfeedp
    rw [hcore]
  obtain ⟨hF, hFpos⟩ := core_copyDump ops
    (show buf.take F.room = bs by rw [DvbDemuxFeed.room, hts]; exact hbs) hne
  obtain ⟨hG, hGpos⟩ := core_copyDump ops hbs hne
  suffices hscan : ∀ limit calls,
      limit = G.sec.tsfeedp + bs.length →
      dumpScan ops (G.core.append bs).view limit limit F.sec.secbufp calls =
        dumpScan ops (G.core.append bs).view limit limit G.sec.secbufp calls by
    rw [hF, hG, hFpos, hGpos, hcore, hts, hscan _ _ rfl]
    exact ⟨rfl, rfl⟩
  rintro limit calls rfl
  rcases hcursor with heq | ⟨hzero, hquiet⟩
  · rw [heq]
  · rw [hzero]
    refine dumpScan_skip ops (Walk.mono (fun i hi => ?_) (Nat.le_add_right _ _) hparsed) hquiet
      calls
    exact Mem.write_apply_of_lt _ _ hi

theorem isFiltering_copyDump (feed : DvbDemuxFeed) (buf : List UInt8) :
    (dvbDmxSwfilterSectionCopyDump ops feed buf).isFiltering = feed.isFiltering := by
  by_cases hne : buf.take feed.room = []
  · rw [copyDump_nil ops hne]
  · obtain ⟨fl, crc, sl, h⟩ := copyDump_eq ops rfl hne
    rw [h]
    rfl

/-- Where the cursors agree, a copy keeps the two feeds together. -/
theorem copyDump_together {F G : DvbDemuxFeed} (hcore : F.core = G.core)
    (hfil : G.isFiltering = true) (hparsed : Parsed G) (hpos : F.sec.secbufp = G.sec.secbufp)
    (buf : List UInt8) (pkts : List TsPacket) :
    Replays ops (dvbDmxSwfilterSectionCopyDump ops F buf)
      (dvbDmxSwfilterSectionCopyDump ops G buf) pkts := by
  have hroom : F.room = G.room := by
    change F.core.room = G.core.room
    rw [hcore]
  by_cases hne : buf.take G.room = []
  · rw [copyDump_nil ops hne, copyDump_nil ops (show buf.take F.room = [] by rwa [hroom])]
    exact ⟨hcore, hfil, hparsed, Or.inl hpos⟩
  · obtain ⟨hcore', hpos'⟩ := copyDump_replays ops hcore hparsed rfl hne (Or.inl hpos)
    exact ⟨hcore', (isFiltering_copyDump ops _ _).trans hfil, parsed_copyDump ops hparsed buf,
      Or.inl hpos'⟩

/-- Behind a reset there is nothing left that the two feeds could differ in. -/
theorem restart_replays {F G : DvbDemuxFeed} (hcore : F.core = G.core)
    (hfil : G.isFiltering = true) (fl fl' : UInt32) (buf : List UInt8) (pkts : List TsPacket) :
    Replays ops (dvbDmxSwfilterSectionCopyDump ops ({ F with pusiSeen := true }.emptied fl) buf)
      (dvbDmxSwfilterSectionCopyDump ops ({ G with pusiSeen := true }.emptied fl') buf) pkts := by
  have hcore' : ({ F with pusiSeen := true }.emptied fl).core =
      ({ G with pusiSeen := true }.emptied fl').core := by
    change { F.core with pusiSeen := true }.emptied 0 = { G.core with pusiSeen := true }.emptied 0
    rw [hcore]
  exact copyDump_together ops hcore' hfil (parsed_emptied _ _) rfl buf pkts

/-- The continuity check keeps the two feeds together. -/
theorem entered_replays {F G F' G' : DvbDemuxFeed} {buf : TsPacket} {pkts : List TsPacket}
    (h : Replays ops F G (buf :: pkts)) (hp : payload buf ≠ 0) (hF : Entered F buf F')
    (hG : Entered G buf G') :
    F'.core = G'.core ∧ G'.isFiltering = true ∧ Parsed G' ∧
      (F'.sec.secbufp = G'.sec.secbufp ∨ F'.sec.secbufp = 0 ∧
        let bs := buf.split.1.take G'.room
        if bs = [] then buf.split.2 = none → G'.Settles ops pkts
        else Quiet ops (G'.append bs).view (G'.append bs).sec.tsfeedp G'.sec.secbufp) := by
  have hcc : F.cc = G.cc := by
    change F.core.cc = G.core.cc
    rw [h.core]
  rw [Entered] at hF hG
  rw [hcc] at hF
  split_ifs at hF hG with hok
  · subst hF hG
    refine ⟨?_, h.isFiltering, h.parsed, ?_⟩
    · change { F.core with cc := buf.cc } = { G.core with cc := buf.cc }
      rw [h.core]
    · rcases h.cursor with heq | ⟨hzero, hset⟩
      · exact Or.inl heq
      · exact Or.inr ⟨hzero, hset hp hok.1 hok.2⟩
  · obtain ⟨fl, rfl⟩ := hF
    obtain ⟨fl', rfl⟩ := hG
    refine ⟨?_, h.isFiltering, parsed_emptied _ _, Or.inl rfl⟩
    change { F.core with cc := buf.cc, pusiSeen := false }.emptied 0 =
      { G.core with cc := buf.cc, pusiSeen := false }.emptied 0
    rw [h.core]

/-- **One packet of the stream** keeps the two runs together. -/
theorem packet_replays {F G : DvbDemuxFeed} {buf : TsPacket} {pkts : List TsPacket}
    (h : Replays ops F G (buf :: pkts)) :
    Replays ops (sectionPacketType ops F buf) (sectionPacketType ops G buf) pkts := by
  have hfilF : F.isFiltering = true := by
    change F.core.isFiltering = true
    rw [h.core]
    exact h.isFiltering
  rw [sectionPacketType, sectionPacketType, if_pos hfilF, if_pos h.isFiltering]
  by_cases hp : payload buf = 0
  · rw [sectionPacket_of_payload_eq_zero ops hp, sectionPacket_of_payload_eq_zero ops hp]
    exact ⟨h.core, h.isFiltering, ReflTransGen.refl, Or.inl rfl⟩
  · obtain ⟨F', fl, hF, hpktF⟩ := sectionPacket_split ops F hp
    obtain ⟨G', fl', hG, hpktG⟩ := sectionPacket_split ops G hp
    obtain ⟨hcore, hfil, hparsed, hcursor⟩ := entered_replays ops h hp hF hG
    have hroom : F'.room = G'.room := by
      change F'.core.room = G'.core.room
      rw [hcore]
    rw [hpktF, hpktG]
    dsimp only
    rw [if_neg (Int.lt_irrefl 0), if_neg (Int.lt_irrefl 0)]
    by_cases hnil : buf.split.1.take G'.room = []
    · -- nothing is copied in front of the boundary
      rw [copyDump_nil ops hnil, copyDump_nil ops (show buf.split.1.take F'.room = [] by rwa [hroom])]
      dsimp only at hcursor
      rw [if_pos hnil] at hcursor
      rcases hsplit : buf.split.2 with _ | after
      · exact ⟨hcore, hfil, hparsed, hcursor.imp_right fun h => ⟨h.1, h.2 hsplit⟩⟩
      · exact restart_replays ops hcore hfil fl fl' after pkts
    · dsimp only at hcursor
      rw [if_neg hnil] at hcursor
      obtain ⟨hcore', hpos⟩ := copyDump_replays ops hcore hparsed rfl hnil hcursor
      have hfil' := (isFiltering_copyDump ops G' buf.split.1).trans hfil
      rcases hsplit : buf.split.2 with _ | after
      · exact ⟨hcore', hfil', parsed_copyDump ops hparsed _, Or.inl hpos⟩
      · exact restart_replays ops hcore' hfil' fl fl' after pkts

/-! ## Streams with inserted packets -/

/-- A packet of the stream proper, or one that has been inserted. -/
inductive StreamPacket where
  | own (buf : TsPacket)
  | inserted (buf : TsPacket)

/-- The packet, wherever it comes from. -/
def StreamPacket.buf : StreamPacket → TsPacket
  | .own buf => buf
  | .inserted buf => buf

/-- The stream without what has been inserted. -/
def ownPackets : List StreamPacket → List TsPacket
  | [] => []
  | .own buf :: stream => buf :: ownPackets stream
  | .inserted _ :: stream => ownPackets stream

/-- What has been inserted carries no payload. -/
def Payloadless (stream : List StreamPacket) : Prop :=
  ∀ buf, .inserted buf ∈ stream → buf 3 &&& 0x10 = 0

/-- The packets of the feed's PID, as `dvb_dmx_swfilter_packet_type` gets them. -/
def runPackets (feed : DvbDemuxFeed) (pkts : List TsPacket) : DvbDemuxFeed :=
  pkts.foldl (sectionPacketType ops) feed

/-- Every inserted packet arrives where a second walk over the parsed sections does no harm. -/
def Harmless (feed : DvbDemuxFeed) : List StreamPacket → Prop
  | [] => True
  | .own buf :: stream => Harmless (sectionPacketType ops feed buf) stream
  | .inserted buf :: stream => feed.Settles ops (ownPackets stream) ∧
      Harmless (sectionPacketType ops feed buf) stream

/-- Without parsed sections there is nothing to walk over. -/
theorem settles_of_secbufp_eq_zero {feed : DvbDemuxFeed} (h : feed.sec.secbufp = 0)
    (pkts : List TsPacket) : feed.Settles ops pkts := by
  rw [DvbDemuxFeed.Settles, h]
  generalize feed.cc = cc
  induction pkts generalizing cc with
  | nil => trivial
  | cons buf pkts ih =>
    intro _ _ _
    dsimp only
    split_ifs
    · exact fun _ => ih buf.cc
    · exact fun a _ ha => absurd ha (Nat.not_lt_zero a)

/-- An inserted packet sets the cursor back and changes nothing else. -/
theorem inserted_replays {F G : DvbDemuxFeed} {buf : TsPacket} {pkts : List TsPacket}
    (h : Replays ops F G pkts) (hbuf : buf 3 &&& 0x10 = 0) (hset : F.Settles ops pkts) :
    Replays ops (sectionPacketType ops F buf) G pkts := by
  have hfil : F.isFiltering = true := by
    change F.core.isFiltering = true
    rw [h.core]
    exact h.isFiltering
  have hp : payload buf = 0 := if_pos hbuf
  rw [sectionPacketType, if_pos hfil, sectionPacket_of_payload_eq_zero ops hp]
  refine ⟨h.core, h.isFiltering, h.parsed, Or.inr ⟨rfl, ?_⟩⟩
  rcases h.cursor with heq | ⟨_, hG⟩
  · change Settles ops F.core.view F.core.sec.tsfeedp F.sec.secbufp F.core.cc pkts at hset
    rw [h.core, heq] at hset
    exact hset
  · exact hG

theorem runPackets_replays (stream : List StreamPacket) (F G : DvbDemuxFeed)
    (h : Replays ops F G (ownPackets stream)) (hno : Payloadless stream)
    (hharm : Harmless ops F stream) :
    (runPackets ops F (stream.map StreamPacket.buf)).core =
      (runPackets ops G (ownPackets stream)).core := by
  induction stream generalizing F G with
  | nil => exact h.core
  | cons p stream ih =>
    have hno' : Payloadless stream := fun buf hbuf => hno buf (List.mem_cons_of_mem _ hbuf)
    cases p with
    | own buf => exact ih _ _ (packet_replays ops h) hno' hharm
    | inserted buf =>
      have hbuf := hno buf (List.mem_cons_self ..)
      exact ih _ G (inserted_replays ops h hbuf hharm.1) hno' hharm.2

/-- **Packets without payload are transparent where they do no harm**: with them and without them
the same sections are handed up. -/
theorem transparent_of_harmless (feed : DvbDemuxFeed) (stream : List StreamPacket)
    (hno : Payloadless stream) (hharm : Harmless ops (startSectionFeed feed) stream) :
    (runPackets ops (startSectionFeed feed) (stream.map StreamPacket.buf)).calls =
      (runPackets ops (startSectionFeed feed) (ownPackets stream)).calls := by
  have hparsed : Parsed (startSectionFeed feed) := ReflTransGen.refl
  have hcore := runPackets_replays ops stream _ _ ⟨rfl, rfl, hparsed, Or.inl rfl⟩ hno hharm
  change (runPackets ops _ _).core.calls = (runPackets ops _ _).core.calls
  rw [hcore]

/-- A packet with an adaptation field and nothing else. -/
def fillPacket (cc : ℕ) : TsPacket := .stuffed 0x11 false false cc []

/-- An inserted packet within a section. -/
def fillWithin : List StreamPacket :=
  [.own (.stuffed 0x11 true false 5 [0, 0x42] plainHead_le), .inserted (fillPacket 5),
    .own (.stuffed 0x11 false false 6 [0xb0, 0x05, 0x07, 0xe9, 0xbe, 0xce, 0x97, 0xff, 0xff] plainRest_le)]

theorem transparent_fillWithin :
    (runPackets plainOps (startSectionFeed (plainSlot true))
        (fillWithin.map StreamPacket.buf)).calls = [⟨plainSection.bytes, 0⟩] := by
  refine (transparent_of_harmless plainOps (plainSlot true) fillWithin ?_
    ⟨settles_of_secbufp_eq_zero plainOps (by decide +kernel) _, trivial⟩).trans
    (by decide +kernel)
  rintro buf hbuf
  simp only [fillWithin, List.mem_cons, reduceCtorEq, StreamPacket.inserted.injEq, List.not_mem_nil,
    or_false, false_or] at hbuf
  rw [hbuf]
  decide +kernel

/-- An inserted packet behind a section that has been handed up, and in front of the rest of the
next one. -/
def fillBehind : List StreamPacket :=
  [.own (.stuffed 0x11 true false 5 [0, 0x42, 0xb0, 0x05, 0x07, 0xe9, 0xbe, 0xce, 0x97, 0x42]),
    .inserted (fillPacket 5),
    .own (.stuffed 0x11 false false 6 [0xb0, 0x05, 0x07, 0xe9, 0xbe, 0xce, 0x97, 0xff, 0xff] plainRest_le)]

/-- **An inserted packet can make a section be handed up twice.**  Of the two sections of
`fillBehind`, the first comes again when the packet that ends the second is copied. -/
theorem twice_on_fillBehind :
    ¬ ∀ (feed : DvbDemuxFeed) (stream : List StreamPacket), Payloadless stream →
      (runPackets plainOps (startSectionFeed feed) (stream.map StreamPacket.buf)).calls =
        (runPackets plainOps (startSectionFeed feed) (ownPackets stream)).calls := by
  intro h
  have hno : Payloadless fillBehind := by
    rintro buf hbuf
    simp only [fillBehind, List.mem_cons, reduceCtorEq, StreamPacket.inserted.injEq,
      List.not_mem_nil, or_false, false_or] at hbuf
    rw [hbuf]
    decide +kernel
  have hthree : (runPackets plainOps (startSectionFeed (plainSlot true))
      (fillBehind.map StreamPacket.buf)).calls.length = 3 := by decide +kernel
  have htwo : (runPackets plainOps (startSectionFeed (plainSlot true))
      (ownPackets fillBehind)).calls.length = 2 := by decide +kernel
  have hall := congrArg List.length (h (plainSlot true) fillBehind hno)
  rw [hthree, htwo] at hall
  exact absurd hall (by decide)

end Demux
end TbsMedia
