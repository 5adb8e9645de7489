import TbsMedia.DvbDemux.SectionFeedSpec
import TbsMedia.Lib.Crc32
import TbsMedia.Lib.Packing
import Mathlib.Data.List.Chain

/-!
# Section reassembly

A sender packs PSI/SI sections into the packets of one PID; a section feed with one match-all
filter hands them to its callback again, each once and unchanged.

The invariant is `Awaits`: between two packets the accumulator holds, behind its parser cursor,
either padding or the part of the current section that has arrived, and the packing still owes the
rest of it.  `awaits_copy` is what one copy does to it, `awaits_packet` what one packet does, and
`reassembly_exact` follows by induction over the packing.
-/

namespace TbsMedia
namespace Demux

open Lib

variable (ops : DemuxOps)

/-! ## The sender -/

/-- The content of a packet: its pointer field, if a section starts in it, and the payload behind
it. -/
def TsPacket.cell (buf : TsPacket) : Option ℕ × List UInt8 :=
  if buf.pusi then (some (buf.payloadBytes.headD 0).toNat, buf.payloadBytes.tail)
  else (none, buf.payloadBytes)

/-- A legal packetisation of `secs`.  The packets carry payload and count continuously, the pointer
fields are right, and a packet is filled with `0xff` behind its last section.  The packets that
`breaks` marks stand only where no section is in progress. -/
structure Packetises (breaks : TsPacket → Prop) (secs : List Section) (pkts : List TsPacket) :
    Prop where
  packs : Packs 1 0xff TsPacket.cell breaks [] (secs.map Section.bytes) pkts
  payload_ne : ∀ p ∈ pkts, payload p ≠ 0
  continuous : pkts.IsChain fun p q => q.cc = (p.cc + 1) % 16

/-- The CRC of a section is right, if it has one. -/
def Section.CrcValid (s : Section) : Prop :=
  s.bytes.getD 1 0 &&& 0x80 ≠ 0 → ops.checkCrc32 0xffffffff s.bytes = 0

/-! ## The match-all filter -/

/-- No byte of a section is looked at. -/
structure MatchAll (f : DvbDemuxFilter) : Prop where
  maskandmode : ∀ i, f.maskandmode i = 0
  maskandnotmode : ∀ i, f.maskandnotmode i = 0
  doneq : f.doneq = false

theorem matchAll_prepareSecfilter {f : DvbDemuxFilter} (h : ∀ i, f.filter.filterMask i = 0) :
    MatchAll (prepareSecfilter f) := by
  refine ⟨fun i => ?_, fun i => ?_, ?_⟩ <;> simp [prepareSecfilter, h]

theorem sectionfilterScan_matchAll {f : DvbDemuxFilter} (h : MatchAll f) (secbuf : ℕ → UInt8)
    (is : List (Fin DVB_DEMUX_MASK_MAX)) (neq : UInt8) :
    sectionfilterScan f secbuf is neq = some neq := by
  induction is generalizing neq with
  | nil => rfl
  | cons i is ih =>
    rw [sectionfilterScan, h.maskandmode, h.maskandnotmode, UInt8.zero_and, if_neg (by simp), ih,
      UInt8.or_zero]

theorem sectionfilterAccepts_matchAll {f : DvbDemuxFilter} (h : MatchAll f) (secbuf : ℕ → UInt8) :
    sectionfilterAccepts f secbuf = true := by
  rw [sectionfilterAccepts, sectionfilterScan_matchAll h]
  simp [h.doneq]

/-- The feed filters, through `f` alone, and a CRC is looked at when `chk` says so. -/
structure Listens (f : DvbDemuxFilter) (chk : Bool) (feed : DvbDemuxFeed) : Prop where
  isFiltering : feed.isFiltering = true
  filter : feed.filter = [f]
  checkCrc : feed.sec.checkCrc = chk

/-- A section in front of the cursor is handed up, once. -/
theorem sectionCalls_matchAll {f : DvbDemuxFilter} (hf : MatchAll f) {v : SectionView} {a : ℕ}
    {s : Section} (hfil : v.isFiltering = true) (hfilter : v.filter = [f])
    (hread : v.mem.read a s.bytes.length = s.bytes) (hcrc : v.checkCrc = true → s.CrcValid ops)
    (calls : List SectionCall) :
    sectionCalls ops v a s.bytes.length calls = calls ++ [⟨s.bytes, f.index⟩] := by
  have h3 := s.three_le
  have hgood : ¬ crcDiscards ops v a s.bytes.length := by
    rintro ⟨hchk, hsyn, hbad⟩
    have h1 : v.mem (a + 1) = s.bytes.getD 1 0 := by
      rw [Mem.apply_of_read_eq hread (by omega), List.getD_eq_getElem?_getD,
        List.getElem?_eq_getElem (by omega), Option.getD_some]
    rw [h1] at hsyn
    rw [hread] at hbad
    exact hbad (hcrc hchk hsyn)
  rw [sectionCalls, if_pos hfil, if_neg hgood, hfilter, filterCalls,
    if_pos (sectionfilterAccepts_matchAll hf _), hread]
  dsimp only [filterCalls]
  rw [hfil, if_pos rfl, ite_self]

/-! ## What the parser loop delivers -/

theorem seclenAt_read {m : Mem UInt8} {pos n : ℕ} (h : 3 ≤ n) :
    seclenAt m pos = sectionLength ((m.read pos n).getD 1 0) ((m.read pos n).getD 2 0) := by
  rw [List.getD_eq_getElem?_getD, List.getD_eq_getElem?_getD, Mem.getElem?_read _ _ _ _ (by omega),
    Mem.getElem?_read _ _ _ _ (by omega)]
  rfl

/-- The loop stops exactly in front of what does not begin with a complete section. -/
theorem completeAt_iff {m : Mem UInt8} {limit pos : ℕ} (h : pos ≤ limit) :
    CompleteAt m limit pos ↔ ¬ Stuck (m.read pos (limit - pos)) := by
  rw [CompleteAt, Stuck, Mem.length_read]
  rcases Nat.lt_or_ge (limit - pos) 3 with h3 | h3
  · exact ⟨fun hc => absurd hc.1 (by omega), fun hs => absurd (Or.inl h3) hs⟩
  · rw [seclenAt_read h3]
    omega

/-- **The loop delivers the complete sections at its cursor, in order**, and stops in front of the
first thing that is none. -/
theorem dumpScan_sections {f : DvbDemuxFilter} (hf : MatchAll f) {v : SectionView}
    (hfil : v.isFiltering = true) (hfilter : v.filter = [f]) {q : List UInt8} (hq : Stuck q)
    {limit : ℕ} : ∀ (secs : List Section) (fuel pos : ℕ) (calls : List SectionCall),
      (secs ≠ [] → v.pusiSeen = true) → (∀ s ∈ secs, v.checkCrc = true → s.CrcValid ops) →
      pos ≤ limit → limit - pos ≤ fuel →
      v.mem.read pos (limit - pos) = (secs.map Section.bytes).flatten ++ q →
      dumpScan ops v limit fuel pos calls =
        (pos + (secs.map Section.bytes).flatten.length,
          calls ++ secs.map fun s => ⟨s.bytes, f.index⟩)
  | [], fuel, pos, calls => by
    intro _ _ hle _ hread
    have hstop : ¬ CompleteAt v.mem limit pos := by
      rw [completeAt_iff hle, hread, List.map_nil, List.flatten_nil, List.nil_append, not_not]
      exact hq
    cases fuel with
    | zero => simp [dumpScan]
    | succ fuel => simp [dumpScan, hstop]
  | s :: secs, fuel, pos, calls => by
    intro hpusi hcrc hle hfuel hread
    have h3 := s.three_le
    rw [List.map_cons, List.flatten_cons, List.append_assoc] at hread
    have hlen := congrArg List.length hread
    rw [Mem.length_read, List.length_append] at hlen
    have hgo : CompleteAt v.mem limit pos := by
      rw [completeAt_iff hle, hread]
      exact s.not_stuck_append _
    have hseclen : seclenAt v.mem pos = s.bytes.length := by
      rw [seclenAt_read (n := limit - pos) (by omega), hread,
        getD_append_of_lt _ (by omega), getD_append_of_lt _ (by omega), s.length_field]
    obtain ⟨hs, hrest⟩ := (Mem.read_eq_append_iff (by omega)).mp hread
    obtain ⟨fuel, rfl⟩ : ∃ k, fuel = k + 1 := ⟨fuel - 1, by omega⟩
    rw [dumpScan, if_pos hgo, hseclen, if_pos (hpusi (List.cons_ne_nil _ _)),
      sectionCalls_matchAll ops hf hfil hfilter hs (hcrc s (List.mem_cons_self ..)),
      dumpScan_sections hf hfil hfilter hq secs fuel _ _
        (fun _ => hpusi (List.cons_ne_nil _ _)) (fun t ht => hcrc t (List.mem_cons_of_mem _ ht))
        (by omega) (by omega) (by rw [← hrest]; congr 1; omega)]
    simp only [List.map_cons, List.flatten_cons, List.length_append, List.append_assoc,
      List.singleton_append, Nat.add_assoc]

/-! ## The invariant -/

/-- Behind the parser cursor the accumulator holds `u`. -/
structure Holds (feed : DvbDemuxFeed) (u : List UInt8) : Prop where
  tsfeedp : feed.sec.secbufp + u.length = feed.sec.tsfeedp
  le_max : feed.sec.tsfeedp ≤ DMX_MAX_SECFEED_SIZE
  read : feed.sec.secbufBase.read feed.sec.secbufp u.length = u

/-- What the accumulator holds between two packets when `rest` is still to come of the section
begun last.  `pend` is that section, if there is one. -/
inductive Awaits (feed : DvbDemuxFeed) : List Section → List UInt8 → Prop where
  /-- No section is in progress: the accumulator holds padding. -/
  | idle (k : ℕ) : Holds feed (List.replicate k 0xff) → Awaits feed [] []
  /-- The first part `v` of a section has arrived. -/
  | within (s : Section) (v rest : List UInt8) : s.bytes = v ++ rest → rest ≠ [] → Holds feed v →
      feed.sec.secbufp ≤ 182 → feed.pusiSeen = true → Awaits feed [s] rest

/-- Copying `bs`, all of which fits, hands up the sections that it completes. -/
theorem holds_copyDump {f : DvbDemuxFilter} (hf : MatchAll f) {chk : Bool} {feed : DvbDemuxFeed}
    (hl : Listens f chk feed) {u buf bs q : List UInt8} (hu : Holds feed u) (hstuck : Stuck u)
    (hbs : buf.take feed.room = bs) (secs : List Section)
    (hpusi : secs ≠ [] → feed.pusiSeen = true) (hcrc : ∀ s ∈ secs, chk = true → s.CrcValid ops)
    (hsplit : u ++ bs = (secs.map Section.bytes).flatten ++ q) (hq : Stuck q) :
    let feed' := dvbDmxSwfilterSectionCopyDump ops feed buf
    Holds feed' q ∧ Listens f chk feed' ∧ feed'.pusiSeen = feed.pusiSeen ∧ feed'.cc = feed.cc ∧
      feed'.sec.secbufp = feed.sec.secbufp + (secs.map Section.bytes).flatten.length ∧
      feed'.calls = feed.calls ++ secs.map fun s => ⟨s.bytes, f.index⟩ := by
  intro feed'
  by_cases hne : bs = []
  · have hfeed' : feed' = feed := copyDump_nil ops (hbs.trans hne)
    rw [hne, List.append_nil] at hsplit
    have hnil : secs = [] := eq_nil_of_stuck_flatten (hsplit ▸ hstuck)
    subst hnil
    rw [List.map_nil, List.flatten_nil, List.nil_append] at hsplit
    rw [hfeed', ← hsplit]
    exact ⟨hu, hl, rfl, rfl, rfl, (List.append_nil _).symm⟩
  · obtain ⟨fl, crc, sl, h⟩ := copyDump_eq ops hbs hne
    have hlen : bs.length ≤ feed.room := by
      rw [← hbs, List.length_take]
      omega
    have hts := hu.tsfeedp
    have hmax := hu.le_max
    rw [DvbDemuxFeed.room] at hlen
    have hread : (feed.append bs).view.mem.read feed.sec.secbufp
        (feed.sec.tsfeedp + bs.length - feed.sec.secbufp) =
          (secs.map Section.bytes).flatten ++ q := by
      rw [← hsplit, show feed.sec.tsfeedp + bs.length - feed.sec.secbufp = u.length + bs.length by
        omega]
      exact (Mem.read_write_append _ bs hts).trans (by rw [hu.read])
    have hscan := dumpScan_sections ops hf (v := (feed.append bs).view) hl.isFiltering hl.filter hq
      secs (feed.sec.tsfeedp + bs.length) feed.sec.secbufp feed.calls hpusi
      (fun s hs hchk => hcrc s hs (hl.checkCrc.symm.trans hchk)) (by omega) (by omega) hread
    have hqlen := congrArg List.length hsplit
    rw [List.length_append, List.length_append] at hqlen
    obtain ⟨-, hq'⟩ := (Mem.read_eq_append_iff (by omega)).mp hread
    have hfeed' : feed' = _ := h
    simp only [hscan] at hfeed'
    rw [hfeed']
    refine ⟨⟨?_, ?_, hq'⟩, ⟨hl.isFiltering, hl.filter, hl.checkCrc⟩, rfl, rfl, rfl, rfl⟩
    · show feed.sec.secbufp + _ + q.length = feed.sec.tsfeedp + bs.length
      omega
    · show feed.sec.tsfeedp + bs.length ≤ DMX_MAX_SECFEED_SIZE
      omega

/-! ## What one packet does to the invariant -/

/-- The step from `feed` to `feed'` hands up `done`. -/
structure HandsUp (f : DvbDemuxFilter) (chk : Bool) (feed feed' : DvbDemuxFeed)
    (done : List Section) : Prop where
  listens : Listens f chk feed'
  cc : feed'.cc = feed.cc
  calls : feed'.calls = feed.calls ++ done.map fun s => ⟨s.bytes, f.index⟩

/-- The continuity check keeps the invariant, if it passes or no section is in progress. -/
theorem awaits_entered {f : DvbDemuxFilter} {chk : Bool} {feed feed' : DvbDemuxFeed}
    {buf : TsPacket} {pend : List Section} {rest : List UInt8} (hl : Listens f chk feed)
    (ha : Awaits feed pend rest) (he : Entered feed buf feed')
    (hok : rest ≠ [] → (feed.cc + 1) % 16 = buf.cc ∧ ¬ buf.dcI) :
    Awaits feed' pend rest ∧ HandsUp f chk { feed with cc := buf.cc } feed' [] := by
  rw [Entered] at he
  split_ifs at he with h
  · subst he
    refine ⟨?_, ⟨hl.isFiltering, hl.filter, hl.checkCrc⟩, rfl, (List.append_nil _).symm⟩
    cases ha with
    | idle k hu => exact .idle k ⟨hu.tsfeedp, hu.le_max, hu.read⟩
    | within s v rest hs hne hu hp hpusi =>
      exact .within s v rest hs hne ⟨hu.tsfeedp, hu.le_max, hu.read⟩ hp hpusi
  · obtain ⟨fl, rfl⟩ := he
    refine ⟨?_, ⟨hl.isFiltering, hl.filter, hl.checkCrc⟩, rfl, (List.append_nil _).symm⟩
    cases ha with
    | idle k hu => exact .idle 0 ⟨rfl, Nat.zero_le _, rfl⟩
    | within s v rest hs hne hu hp hpusi => exact absurd (hok hne) h

/-- Copying a part of what is to come of a section. -/
theorem awaits_copy_split {f : DvbDemuxFilter} (hf : MatchAll f) {chk : Bool}
    {feed : DvbDemuxFeed} (hl : Listens f chk feed) {pend : List Section}
    {body rest : List UInt8} (ha : Awaits feed pend (body ++ rest)) (hne : rest ≠ []) :
    Awaits (dvbDmxSwfilterSectionCopyDump ops feed body) pend rest ∧
      HandsUp f chk feed (dvbDmxSwfilterSectionCopyDump ops feed body) [] := by
  generalize htail : body ++ rest = tail at ha
  cases ha with
  | idle k hu => exact absurd (List.append_eq_nil_iff.mp htail).2 hne
  | within s v tail hs _ hu hp hpusi =>
    subst htail
    rw [← List.append_assoc] at hs
    have hstuck : Stuck v := s.stuck_of_prefix (hs.trans (List.append_assoc ..)) (by simp [hne])
    have hmax := s.le_max
    have hts := hu.tsfeedp
    rw [hs, List.length_append, List.length_append] at hmax
    have hroom : body.take feed.room = body := by
      rw [List.take_of_length_le]
      simp only [DvbDemuxFeed.room, DMX_MAX_SECFEED_SIZE, DMX_MAX_SECTION_SIZE] at hmax ⊢
      omega
    obtain ⟨hu', hl', hpusi', hcc, hpos, hcalls⟩ := holds_copyDump ops hf hl hu hstuck hroom []
      (fun h => absurd rfl h) (by simp) (by simp) (s.stuck_of_prefix hs hne)
    refine ⟨.within s _ rest hs hne hu' ?_ (hpusi'.trans hpusi), hl', hcc, hcalls⟩
    rw [hpos]
    exact hp

/-- Copying all that is to come of a section, and padding behind it. -/
theorem awaits_copy_end {f : DvbDemuxFilter} (hf : MatchAll f) {chk : Bool}
    {feed : DvbDemuxFeed} (hl : Listens f chk feed) {pend : List Section}
    {rest : List UInt8} (ha : Awaits feed pend rest)
    (hcrc : ∀ s ∈ pend, chk = true → s.CrcValid ops) (m : ℕ) :
    let feed' := dvbDmxSwfilterSectionCopyDump ops feed (rest ++ List.replicate m 0xff)
    Awaits feed' [] [] ∧ HandsUp f chk feed feed' pend := by
  intro feed'
  cases ha with
  | idle k hu =>
    have hroom := take_append_replicate (m := m) (0xff : UInt8)
      (show ([] : List UInt8).length ≤ feed.room from Nat.zero_le _)
    obtain ⟨hu', hl', -, hcc, -, hcalls⟩ := holds_copyDump ops hf hl hu (stuck_replicate k) hroom []
      (fun h => absurd rfl h) (by simp) (by rw [List.nil_append, List.replicate_append_replicate]; rfl)
      (stuck_replicate _)
    exact ⟨.idle _ hu', hl', hcc, hcalls⟩
  | within s v rest hs hne hu hp hpusi =>
    have hmax := s.le_max
    have hts := hu.tsfeedp
    rw [hs, List.length_append] at hmax
    -- the section itself fits behind a cursor in the first packet; only padding may be cut
    have hfits : rest.length ≤ feed.room := by
      simp only [DvbDemuxFeed.room, DMX_MAX_SECFEED_SIZE, DMX_MAX_SECTION_SIZE] at hmax ⊢
      omega
    obtain ⟨hu', hl', -, hcc, -, hcalls⟩ := holds_copyDump ops hf hl hu
      (s.stuck_of_prefix hs hne) (take_append_replicate (m := m) 0xff hfits) [s] (fun _ => hpusi)
      hcrc (by rw [← List.append_assoc, ← hs]; simp; rfl) (stuck_replicate _)
    exact ⟨.idle _ hu', hl', hcc, hcalls⟩

/-- Copying sections and what follows them into an empty accumulator. -/
theorem holds_start {f : DvbDemuxFilter} (hf : MatchAll f) {chk : Bool} {feed : DvbDemuxFeed}
    (hl : Listens f chk feed) (fl : UInt32) (hpusi : feed.pusiSeen = true) (secs : List Section)
    {q : List UInt8} (hcrc : ∀ s ∈ secs, chk = true → s.CrcValid ops) (hq : Stuck q)
    (hlen : ((secs.map Section.bytes).flatten ++ q).length ≤ 183) :
    let feed' := dvbDmxSwfilterSectionCopyDump ops (feed.emptied fl)
      ((secs.map Section.bytes).flatten ++ q)
    Holds feed' q ∧ feed'.pusiSeen = true ∧
      feed'.sec.secbufp = (secs.map Section.bytes).flatten.length ∧
      HandsUp f chk feed feed' secs := by
  intro feed'
  have hempty : Holds (feed.emptied fl) [] := ⟨rfl, Nat.zero_le _, rfl⟩
  have hroom : (feed.emptied fl).room = 4284 := rfl
  obtain ⟨hu', hl', hpusi', hcc, hpos, hcalls⟩ := holds_copyDump ops hf
    (⟨hl.isFiltering, hl.filter, hl.checkCrc⟩ : Listens f chk (feed.emptied fl)) hempty stuck_nil
    (List.take_of_length_le (by omega)) secs (fun _ => hpusi) hcrc (List.nil_append _) hq
  exact ⟨hu', hpusi'.trans hpusi, hpos.trans (Nat.zero_add _), hl', hcc, hcalls⟩

theorem HandsUp.trans {f : DvbDemuxFilter} {chk : Bool} {a b c : DvbDemuxFeed}
    {done done' : List Section} (h : HandsUp f chk a b done) (h' : HandsUp f chk b c done') :
    HandsUp f chk a c (done ++ done') :=
  ⟨h'.listens, h'.cc.trans h.cc, by rw [h'.calls, h.calls, List.map_append, List.append_assoc]⟩

/-- A packet in which no section starts is copied. -/
theorem packet_cont {f : DvbDemuxFilter} {chk : Bool} {feed : DvbDemuxFeed} {buf : TsPacket}
    {pend : List Section} {rest body : List UInt8} (hl : Listens f chk feed)
    (ha : Awaits feed pend rest) (hp : payload buf ≠ 0) (hcell : buf.cell = (none, body))
    (hok : rest ≠ [] → (feed.cc + 1) % 16 = buf.cc ∧ ¬ buf.dcI) :
    ∃ feed', Awaits feed' pend rest ∧ HandsUp f chk { feed with cc := buf.cc } feed' [] ∧
      (dvbDmxSwfilterSectionPacket ops feed buf).2 =
        dvbDmxSwfilterSectionCopyDump ops feed' body := by
  rw [TsPacket.cell] at hcell
  split_ifs at hcell with hpusi
  · exact absurd (congrArg Prod.fst hcell) (Option.some_ne_none _)
  · obtain ⟨feed', he, hpkt⟩ := sectionPacket_cont ops feed hp hpusi
    obtain ⟨ha', hh⟩ := awaits_entered hl ha he hok
    obtain rfl : buf.payloadBytes = body := congrArg Prod.snd hcell
    exact ⟨feed', ha', hh, congrArg Prod.snd hpkt⟩

/-- A packet in which sections start: it ends the one in progress, if there is one, and hands up
those that end in it as well. -/
theorem packet_start {f : DvbDemuxFilter} (hf : MatchAll f) {chk : Bool} {feed : DvbDemuxFeed}
    {buf : TsPacket} {pend : List Section} {rest q : List UInt8} (us : List Section)
    (hl : Listens f chk feed) (ha : Awaits feed pend rest) (hp : payload buf ≠ 0)
    (hcell : buf.cell = (some rest.length, rest ++ (us.map Section.bytes).flatten ++ q))
    (hok : rest ≠ [] → (feed.cc + 1) % 16 = buf.cc ∧ ¬ buf.dcI)
    (hcrc : ∀ s ∈ pend ++ us, chk = true → s.CrcValid ops) (hq : Stuck q)
    (hne : (us.map Section.bytes).flatten ++ q ≠ []) :
    ∃ feed', feed' = (dvbDmxSwfilterSectionPacket ops feed buf).2 ∧ Holds feed' q ∧
      feed'.pusiSeen = true ∧ feed'.sec.secbufp + q.length ≤ 183 ∧
      HandsUp f chk { feed with cc := buf.cc } feed' (pend ++ us) := by
  rw [TsPacket.cell] at hcell
  split_ifs at hcell with hpusi
  · obtain ⟨ptr, body, hbytes⟩ := List.exists_cons_of_ne_nil
      (show buf.payloadBytes ≠ [] from fun h => hp ((length_payloadBytes buf).symm.trans
        (congrArg List.length h)))
    have hcount := congrArg List.length hbytes
    rw [length_payloadBytes, List.length_cons] at hcount
    rw [hbytes, List.headD_cons, List.tail_cons, Prod.mk.injEq, Option.some.injEq,
      List.append_assoc] at hcell
    obtain ⟨hptr, rfl⟩ := hcell
    rw [List.length_append] at hcount
    have hpay := payload_le buf
    obtain ⟨feed₁, fl, he, hpkt⟩ := sectionPacket_start ops feed hpusi hbytes
      (by rw [List.length_append]; omega) (by simp [hne])
    -- the bytes in front of the pointer are the end of the section in progress
    rw [hptr, List.take_left, List.drop_left] at hpkt
    obtain ⟨ha₁, hh₁⟩ := awaits_entered hl ha he hok
    obtain ⟨-, hh₂⟩ := awaits_copy_end ops hf hh₁.listens ha₁
      (fun s hs => hcrc s (List.mem_append_left _ hs)) 0
    rw [List.replicate_zero, List.append_nil] at hh₂
    generalize dvbDmxSwfilterSectionCopyDump ops feed₁ rest = feed₂ at hh₂ hpkt
    obtain ⟨hu, hpusi', hpos, hh₃⟩ := holds_start ops hf
      (⟨hh₂.listens.isFiltering, hh₂.listens.filter, hh₂.listens.checkCrc⟩ :
        Listens f chk { feed₂ with pusiSeen := true }) fl rfl us
      (fun s hs => hcrc s (List.mem_append_right _ hs)) hq (by omega)
    have hh₂' : HandsUp f chk { feed with cc := buf.cc } { feed₂ with pusiSeen := true } pend :=
      ⟨⟨hh₂.listens.isFiltering, hh₂.listens.filter, hh₂.listens.checkCrc⟩, hh₂.cc.trans hh₁.cc, by
        rw [← List.nil_append pend]; exact (hh₁.trans hh₂).calls⟩
    refine ⟨_, (congrArg Prod.snd hpkt).symm, hu, hpusi', ?_, hh₂'.trans hh₃⟩
    rw [List.length_append] at hcount
    rw [hpos]
    omega
  · exact absurd (congrArg Prod.fst hcell).symm (Option.some_ne_none _)

/-! ## A whole stream -/

/-- The packets of one PID, one after the other. -/
def feedPackets (feed : DvbDemuxFeed) (pkts : List TsPacket) : DvbDemuxFeed :=
  pkts.foldl (fun feed buf => (dvbDmxSwfilterSectionPacket ops feed buf).2) feed

@[simp] theorem feedPackets_nil (feed : DvbDemuxFeed) : feedPackets ops feed [] = feed := rfl

theorem feedPackets_cons (feed : DvbDemuxFeed) (buf : TsPacket) (pkts : List TsPacket) :
    feedPackets ops feed (buf :: pkts) =
      feedPackets ops (dvbDmxSwfilterSectionPacket ops feed buf).2 pkts := rfl

/-- What the packets still to come need: payload, and a continuous count unless no section is in
progress. -/
structure InOrder (feed : DvbDemuxFeed) (rest : List UInt8) (pkts : List TsPacket) : Prop where
  payload_ne : ∀ p ∈ pkts, payload p ≠ 0
  continuous : pkts.IsChain fun p q => q.cc = (p.cc + 1) % 16
  head : rest ≠ [] → ∀ p ∈ pkts.head?, (feed.cc + 1) % 16 = p.cc

theorem InOrder.tail {feed feed' : DvbDemuxFeed} {rest rest' : List UInt8} {buf : TsPacket}
    {pkts : List TsPacket} (h : InOrder feed rest (buf :: pkts)) (hcc : feed'.cc = buf.cc) :
    InOrder feed' rest' pkts := by
  refine ⟨fun p hp => h.payload_ne p (List.mem_cons_of_mem _ hp), h.continuous.tail,
    fun _ p hp => ?_⟩
  rw [hcc]
  cases pkts with
  | nil => cases hp
  | cons q pkts =>
    obtain rfl : q = p := Option.some.inj hp
    exact (List.isChain_cons_cons.mp h.continuous).1.symm

/-- The continuity check passes where a section is in progress. -/
theorem InOrder.entered {feed : DvbDemuxFeed} {rest : List UInt8} {buf : TsPacket}
    {pkts : List TsPacket} (h : InOrder feed rest (buf :: pkts)) (hbreaks : buf.dcI → rest = [])
    (hne : rest ≠ []) : (feed.cc + 1) % 16 = buf.cc ∧ ¬ buf.dcI :=
  ⟨h.head hne buf rfl, fun hd => hne (hbreaks hd)⟩

/-- **A whole packing** hands up the section in progress and the sections behind it. -/
theorem feedPackets_packs {f : DvbDemuxFilter} (hf : MatchAll f) {chk : Bool} {rest : List UInt8}
    {units : List (List UInt8)} {pkts : List TsPacket}
    (h : Packs 1 0xff TsPacket.cell TsPacket.dcI rest units pkts) :
    ∀ (feed : DvbDemuxFeed) (pend secs : List Section), secs.map Section.bytes = units →
      Listens f chk feed → Awaits feed pend rest → InOrder feed rest pkts →
      (∀ s ∈ pend ++ secs, chk = true → s.CrcValid ops) →
      (feedPackets ops feed pkts).calls =
        feed.calls ++ (pend ++ secs).map fun s => ⟨s.bytes, f.index⟩ := by
  induction h with
  | done =>
    intro feed pend secs hsecs _ ha _ _
    rw [List.map_eq_nil_iff] at hsecs
    subst hsecs
    generalize hrest : ([] : List UInt8) = rest at ha
    cases ha with
    | idle k _ => simp
    | within s v rest _ hne _ _ _ => exact absurd hrest.symm hne
  | @contSplit buf body rest _ pkts hcell hbreaks _ ih =>
    intro feed pend secs hsecs hl ha ho hcrc
    have hp := ho.payload_ne buf (List.mem_cons_self ..)
    obtain ⟨feed', ha', hh, hpkt⟩ := packet_cont ops hl ha hp hcell (ho.entered hbreaks)
    rw [feedPackets_cons, hpkt]
    by_cases hne : rest = []
    · -- the section ends with the cell
      subst hne
      obtain ⟨ha'', hh'⟩ := awaits_copy_end ops hf hh.listens ha'
        (fun s hs => hcrc s (List.mem_append_left _ hs)) 0
      simp only [List.replicate_zero, List.append_nil] at ha'' hh'
      have htr := hh.trans hh'
      rw [ih _ [] secs hsecs htr.listens ha'' (ho.tail htr.cc)
        (fun s hs => hcrc s (List.mem_append_right _ hs)), htr.calls]
      simp only [List.nil_append, List.map_append, List.append_assoc]
    · obtain ⟨ha'', hh'⟩ := awaits_copy_split ops hf hh.listens ha' hne
      have htr := hh.trans hh'
      rw [ih _ pend secs hsecs htr.listens ha'' (ho.tail htr.cc) hcrc, htr.calls]
      simp only [List.map_nil, List.append_nil]
  | @contPad buf rest m _ pkts hcell hbreaks _ ih =>
    intro feed pend secs hsecs hl ha ho hcrc
    have hp := ho.payload_ne buf (List.mem_cons_self ..)
    obtain ⟨feed', ha', hh, hpkt⟩ := packet_cont ops hl ha hp hcell (ho.entered hbreaks)
    rw [feedPackets_cons, hpkt]
    obtain ⟨ha'', hh'⟩ := awaits_copy_end ops hf hh.listens ha'
      (fun s hs => hcrc s (List.mem_append_left _ hs)) m
    have htr := hh.trans hh'
    rw [ih _ [] secs hsecs htr.listens ha'' (ho.tail htr.cc)
      (fun s hs => hcrc s (List.mem_append_right _ hs)), htr.calls]
    simp only [List.nil_append, List.map_append, List.append_assoc]
  | @startSplit buf rest us v rest' _ pkts hcell hbreaks hv _ ih =>
    intro feed pend secs hsecs hl ha ho hcrc
    obtain ⟨us, secs, rfl, rfl, hnext⟩ := List.map_eq_append_iff.mp hsecs
    obtain ⟨s, secs, rfl, hs, rfl⟩ := List.map_eq_cons_iff.mp hnext
    have hp := ho.payload_ne buf (List.mem_cons_self ..)
    have hvne : v ≠ [] := List.length_pos_iff.mp hv
    rw [feedPackets_cons]
    by_cases hne : rest' = []
    · -- the last section that starts in the cell ends with it
      subst hne
      rw [List.append_nil] at hs
      obtain ⟨feed', hpkt, hu, -, -, hh⟩ := packet_start ops hf (q := []) (us ++ [s]) hl ha hp
        (by rw [hcell]; simp [hs]) (ho.entered hbreaks)
        (fun t ht => hcrc t (by simp at ht ⊢; tauto)) stuck_nil (by simp [hs, hvne])
      rw [← hpkt, ih _ [] secs rfl hh.listens (.idle 0 hu) (ho.tail hh.cc)
        (fun t ht => hcrc t (by simp at ht ⊢; tauto)), hh.calls]
      simp
    · obtain ⟨feed', hpkt, hu, hpusi, hpos, hh⟩ := packet_start ops hf us hl ha hp hcell
        (ho.entered hbreaks) (fun t ht => hcrc t (by simp at ht ⊢; tauto))
        (s.stuck_of_prefix hs hne) (by simp [hvne])
      rw [← hpkt, ih _ [s] secs rfl hh.listens (.within s v rest' hs hne hu (by omega) hpusi)
        (ho.tail hh.cc) (fun t ht => hcrc t (by simp at ht ⊢; tauto)), hh.calls]
      simp
  | @startPad buf rest us m _ pkts hcell hbreaks husne _ ih =>
    intro feed pend secs hsecs hl ha ho hcrc
    obtain ⟨us, secs, rfl, rfl, rfl⟩ := List.map_eq_append_iff.mp hsecs
    have hp := ho.payload_ne buf (List.mem_cons_self ..)
    obtain ⟨s, us, rfl⟩ := List.exists_cons_of_ne_nil (fun h : us = [] => husne (by rw [h]; rfl))
    have hsne : s.bytes ≠ [] := List.length_pos_iff.mp (Nat.lt_of_lt_of_le (by decide) s.three_le)
    obtain ⟨feed', hpkt, hu, -, -, hh⟩ := packet_start ops hf (s :: us) hl ha hp hcell
      (ho.entered hbreaks) (fun t ht => hcrc t (by simp at ht ⊢; tauto)) (stuck_replicate m)
      (by simp [hsne])
    rw [feedPackets_cons, ← hpkt, ih _ [] secs rfl hh.listens (.idle m hu) (ho.tail hh.cc)
      (fun t ht => hcrc t (by simp at ht ⊢; tauto)), hh.calls]
    simp

/-- What has been written since `feed` stays inside the buffer. -/
def CopiesInside (feed feed' : DvbDemuxFeed) : Prop :=
  ∃ extra, feed'.copies = feed.copies ++ extra ∧ ∀ c ∈ extra, c.1 + c.2 ≤ DMX_MAX_SECFEED_SIZE

theorem CopiesInside.of_eq {feed feed' : DvbDemuxFeed} (h : feed'.copies = feed.copies) :
    CopiesInside feed feed' :=
  ⟨[], h.trans (List.append_nil _).symm, fun _ hc => nomatch hc⟩

theorem CopiesInside.trans {a b c : DvbDemuxFeed} (h : CopiesInside a b) (h' : CopiesInside b c) :
    CopiesInside a c := by
  obtain ⟨e, he, hin⟩ := h
  obtain ⟨e', he', hin'⟩ := h'
  refine ⟨e ++ e', by rw [he', he, List.append_assoc], fun c hc => ?_⟩
  exact (List.mem_append.mp hc).elim (hin c) (hin' c)

theorem copiesInside_packet (feed : DvbDemuxFeed) (buf : TsPacket) :
    CopiesInside feed (dvbDmxSwfilterSectionPacket ops feed buf).2 := by
  by_cases hp : payload buf = 0
  · exact .of_eq (by rw [sectionPacket_of_payload_eq_zero ops hp])
  have hentered : ∀ feed', Entered feed buf feed' → feed'.copies = feed.copies := by
    intro feed' he
    rw [Entered] at he
    split_ifs at he
    · rw [he]
    · obtain ⟨fl, rfl⟩ := he
      rfl
  by_cases hpusi : buf.pusi
  · obtain ⟨ptr, body, hbytes⟩ := List.exists_cons_of_ne_nil
      (show buf.payloadBytes ≠ [] from fun h => hp ((length_payloadBytes buf).symm.trans
        (congrArg List.length h)))
    by_cases hin : ptr.toNat ≤ body.length ∧ body ≠ []
    · obtain ⟨feed', fl, he, hpkt⟩ := sectionPacket_start ops feed hpusi hbytes hin.1 hin.2
      rw [hpkt]
      exact ((CopiesInside.of_eq (hentered feed' he)).trans (copies_copyDump ops feed' _)).trans
        (copies_copyDump ops _ _)
    · obtain ⟨feed', he, hpkt⟩ := sectionPacket_lost ops feed hpusi hbytes hin
      rw [hpkt]
      exact .of_eq (hentered feed' he)
  · obtain ⟨feed', he, hpkt⟩ := sectionPacket_cont ops feed hp hpusi
    rw [hpkt]
    exact (CopiesInside.of_eq (hentered feed' he)).trans (copies_copyDump ops feed' _)

theorem copiesInside_feedPackets (feed : DvbDemuxFeed) (pkts : List TsPacket) :
    CopiesInside feed (feedPackets ops feed pkts) := by
  induction pkts generalizing feed with
  | nil => exact .of_eq rfl
  | cons buf pkts ih => exact (copiesInside_packet ops feed buf).trans (ih _)

/-- **Section reassembly is exact.**  Whatever the feed's slot held before it was started, every
section is handed up once, in order and unchanged, and no copy leaves the buffer. -/
theorem reassembly_exact (feed : DvbDemuxFeed) (f : DvbDemuxFilter) (hfilter : feed.filter = [f])
    (hmask : ∀ i, f.filter.filterMask i = 0) (secs : List Section) (pkts : List TsPacket)
    (hpkts : Packetises TsPacket.dcI secs pkts)
    (hcrc : feed.sec.checkCrc = true → ∀ s ∈ secs, s.CrcValid ops) :
    (feedPackets ops (startSectionFeed feed) pkts).calls =
        feed.calls ++ secs.map (fun s => ⟨s.bytes, f.index⟩) ∧
      CopiesInside feed (feedPackets ops (startSectionFeed feed) pkts) := by
  have hlistens : Listens (prepareSecfilter f) feed.sec.checkCrc (startSectionFeed feed) :=
    ⟨rfl, by rw [startSectionFeed, prepareSecfilters, hfilter]; rfl, rfl⟩
  have hidle : Awaits (startSectionFeed feed) [] [] := .idle 0 ⟨rfl, Nat.zero_le _, rfl⟩
  refine ⟨?_, copiesInside_feedPackets ops _ pkts⟩
  exact feedPackets_packs ops (matchAll_prepareSecfilter hmask) hpkts.packs _ [] secs rfl hlistens
    hidle ⟨hpkts.payload_ne, hpkts.continuous, fun h => absurd rfl h⟩
    (fun s hs hchk => hcrc hchk s hs)

/-! ## On concrete packets -/

/-- The CRC routine of the kernel, and a callback that takes everything. -/
def plainOps : DemuxOps where
  checkCrc32 := Lib.crc32Be
  hasDecoder := false
  cbSecRet _ := 0
  cbSecFlags _ flags := flags
  cbTsFlags _ flags := flags

/-- The slot of a feed that has been given the match-all filter. -/
def plainSlot (checkCrc : Bool) : DvbDemuxFeed where
  type := .DMX_TYPE_SEC
  state := .DMX_STATE_READY
  pid := 0x11
  isFiltering := false
  sec := ⟨checkCrc, 0, 0, fun _ => 0, 0, 0, 0⟩
  filter := [⟨⟨fun _ => 0, fun _ => 0, fun _ => 0⟩, fun _ => 0, fun _ => 0, false, 0⟩]
  bufferFlags := 0
  tsType := 0
  pesType := 0
  cc := 0
  pusiSeen := false
  peslen := 0
  calls := []
  tsCalls := []
  decoderCalls := []
  copies := []

/-- A section of eight bytes, the last four of which are its CRC. -/
def plainSection : Section where
  bytes := [0x42, 0xb0, 0x05, 0x07, 0xe9, 0xbe, 0xce, 0x97]
  three_le := by decide
  le_max := by decide
  length_field := by decide

theorem plainHead_le : ([0, 0x42] : List UInt8).length ≤ 182 := by decide

theorem plainRest_le :
    ([0xb0, 0x05, 0x07, 0xe9, 0xbe, 0xce, 0x97, 0xff, 0xff] : List UInt8).length ≤ 182 := by decide

/-- `plainSection`, the first byte of it in one packet and the rest in another one. -/
def plainPackets (dcI : Bool) : List TsPacket :=
  [.stuffed 0x11 true false 5 [0, 0x42] plainHead_le,
    .stuffed 0x11 false dcI 6 [0xb0, 0x05, 0x07, 0xe9, 0xbe, 0xce, 0x97, 0xff, 0xff] plainRest_le]

theorem packetises_plain {breaks : TsPacket → Prop} (dcI : Bool)
    (h : ∀ p ∈ plainPackets dcI, ¬ breaks p) :
    Packetises breaks [plainSection] (plainPackets dcI) := by
  refine ⟨.startSplit [] [] [0x42] [0xb0, 0x05, 0x07, 0xe9, 0xbe, 0xce, 0x97] ?_ (fun _ => rfl)
    (by decide) (.contPad _ 2 ?_ (fun hb => absurd hb (h _ (by simp [plainPackets]))) .done), ?_, ?_⟩
  · decide +kernel
  · cases dcI <;> decide +kernel
  · cases dcI <;> decide +kernel
  · cases dcI <;> decide +kernel

theorem reassembly_exact_plain :
    (feedPackets plainOps (startSectionFeed (plainSlot true)) (plainPackets false)).calls =
      [⟨plainSection.bytes, 0⟩] :=
  (reassembly_exact plainOps (plainSlot true) _ rfl (fun _ => rfl) [plainSection]
    (plainPackets false) (packetises_plain false (by decide +kernel))
    (fun _ s hs => by
      obtain rfl := List.mem_singleton.mp hs
      exact fun _ => by decide +kernel)).1

/-- A discontinuity that is signalled within a section loses the section, although the packets count
on: of `plainPackets true` nothing is handed up. -/
theorem reassembly_loses_on_discontinuity :
    ¬ ∀ (feed : DvbDemuxFeed) (f : DvbDemuxFilter), feed.filter = [f] →
      (∀ i, f.filter.filterMask i = 0) → ∀ (secs : List Section) (pkts : List TsPacket),
        Packetises (fun _ => False) secs pkts →
        (feed.sec.checkCrc = true → ∀ s ∈ secs, s.CrcValid plainOps) →
        (feedPackets plainOps (startSectionFeed feed) pkts).calls =
          feed.calls ++ secs.map fun s => ⟨s.bytes, f.index⟩ := by
  intro h
  have hnone : (feedPackets plainOps (startSectionFeed (plainSlot false)) (plainPackets true)).calls =
      [] := by decide +kernel
  have hall := h (plainSlot false) _ rfl (fun _ => rfl) [plainSection] (plainPackets true)
    (packetises_plain true fun _ _ => not_false) (fun hchk => nomatch hchk)
  exact List.cons_ne_nil _ _ (hall.symm.trans hnone)

end Demux
end TbsMedia
