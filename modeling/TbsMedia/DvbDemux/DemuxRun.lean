import TbsMedia.DvbDemux.Demux
import TbsMedia.DvbDemux.SectionReassembly

/-!
# Runs of a demux, and the start of a section feed

An event is a call of a client or the arrival of a packet, and a run is a sequence of events.

A section feed that is started should hand nothing up before a section start has come by, or the
end of a section would be taken for a section.  `pusi_seen` is there for that: while it is not set
`dvb_dmx_swfilter_section_copy_dump` discards what it parses.  But starting a feed does not clear
it.  `quiet_until_pusi` says that a feed started with `pusi_seen` clear keeps silent as it should,
and `garbage_on_restart` that a feed started a second time need not.
-/

namespace TbsMedia
namespace Demux

/-! ## Events and runs -/

/-- What can happen to a demux: the calls of clients, with the answers of driver and mutex, and the
packets.  What the callbacks of the clients do is up to each packet. -/
inductive DemuxEvent where
  | allocateTsFeed (interrupted : Bool) (overlay : DmxSectionFeed)
  | tsFeedSet (i : ℕ) (interrupted : Bool) (pid tsType pesType : ℕ)
  | tsFeedStart (i : ℕ) (interrupted : Bool) (ret : ℤ)
  | tsFeedStop (i : ℕ) (ret : ℤ)
  | releaseTsFeed (i : ℕ)
  | allocateSectionFeed (interrupted : Bool)
  | allocateFilter (i : ℕ) (interrupted : Bool)
  | fillFilter (i j : ℕ) (filter : DmxSectionFilter)
  | sectionFeedSet (i : ℕ) (interrupted : Bool) (pid : ℕ) (checkCrc : Bool)
  | sectionFeedStart (i : ℕ) (interrupted : Bool) (ret : ℤ)
  | sectionFeedStop (i : ℕ) (ret : ℤ)
  | releaseFilter (i j : ℕ) (ret : ℤ)
  | releaseSectionFeed (i : ℕ)
  | packet (ops : ℕ → DemuxOps) (tscheck feedErrPkts : Bool) (buf : TsPacket)

/-- A client can call the functions of a feed only if the feed is one of their type. -/
def asType (demux : DvbDemux) (type : DvbDmxFilterType) (i : ℕ) (r : Option (ℤ × DvbDemux)) :
    Option (ℤ × DvbDemux) :=
  if i < demux.feednum ∧ (demux.feed i).type = type then r else none

/-- One event: the answer that the client gets, and the demux afterwards. -/
def step (demux : DvbDemux) : DemuxEvent → Option (ℤ × DvbDemux)
  | .allocateTsFeed interrupted overlay => some (dvbdmxAllocateTsFeed demux interrupted overlay)
  | .tsFeedSet i interrupted pid tsType pesType =>
    asType demux .DMX_TYPE_TS i (some (dmxTsFeedSet demux i interrupted pid tsType pesType))
  | .tsFeedStart i interrupted ret =>
    asType demux .DMX_TYPE_TS i (some (dmxTsFeedStartFiltering demux i interrupted ret))
  | .tsFeedStop i ret =>
    asType demux .DMX_TYPE_TS i (some (dmxTsFeedStopFiltering demux i ret))
  | .releaseTsFeed i => asType demux .DMX_TYPE_TS i (some (dvbdmxReleaseTsFeed demux i))
  | .allocateSectionFeed interrupted => some (dvbdmxAllocateSectionFeed demux interrupted)
  | .allocateFilter i interrupted =>
    asType demux .DMX_TYPE_SEC i (some (dmxSectionFeedAllocateFilter demux i interrupted))
  | .fillFilter i j filter =>
    asType demux .DMX_TYPE_SEC i (some (0, fillSectionFilter demux i j filter))
  | .sectionFeedSet i interrupted pid checkCrc =>
    asType demux .DMX_TYPE_SEC i (some (dmxSectionFeedSet demux i interrupted pid checkCrc))
  | .sectionFeedStart i interrupted ret =>
    asType demux .DMX_TYPE_SEC i (some (dmxSectionFeedStartFiltering demux i interrupted ret))
  | .sectionFeedStop i ret =>
    asType demux .DMX_TYPE_SEC i (some (dmxSectionFeedStopFiltering demux i ret))
  | .releaseFilter i j ret =>
    asType demux .DMX_TYPE_SEC i (dmxSectionFeedReleaseFilter demux i j ret)
  | .releaseSectionFeed i =>
    asType demux .DMX_TYPE_SEC i (some (dvbdmxReleaseSectionFeed demux i))
  | .packet ops tscheck feedErrPkts buf =>
    some (0, dvbDmxSwfilterPacket ops tscheck feedErrPkts demux buf)

/-- A run: the demux after the events, if all of them can happen. -/
def run (demux : DvbDemux) : List DemuxEvent → Option DvbDemux
  | [] => some demux
  | e :: es => (step demux e).bind fun r => run r.2 es

/-- The event hands feed `i` a packet of its PID in which a section starts. -/
def Hears (demux : DvbDemux) (i : ℕ) : DemuxEvent → Prop
  | .packet _ _ feedErrPkts buf =>
    (buf.tei → feedErrPkts = true) ∧ i ∈ demux.feedList ∧ (demux.feed i).isFiltering = true ∧
      (demux.feed i).pid = tsPid buf ∧ buf.pusi
  | _ => False

/-- In the run over `es`, feed `i` is handed no packet in which a section starts. -/
def Deaf (i : ℕ) : DvbDemux → List DemuxEvent → Prop
  | _, [] => True
  | demux, e :: es => ¬ Hears demux i e ∧ ∀ r, step demux e = some r → Deaf i r.2 es

/-! ## What the calls of clients leave alone -/

/-- What has been handed up, and whether a section start has come by. -/
def DvbDemuxFeed.marks (feed : DvbDemuxFeed) : Bool × List SectionCall := (feed.pusiSeen, feed.calls)

/-- Every feed keeps its marks. -/
def KeepsMarks (demux demux' : DvbDemux) : Prop :=
  ∀ i, (demux'.feed i).marks = (demux.feed i).marks

theorem KeepsMarks.refl (demux : DvbDemux) : KeepsMarks demux demux := fun _ => rfl

theorem KeepsMarks.trans {a b c : DvbDemux} (h : KeepsMarks a b) (h' : KeepsMarks b c) :
    KeepsMarks a c := fun i => (h' i).trans (h i)

/-- A change of one feed that keeps its marks keeps the marks of all. -/
theorem keepsMarks_setFeed {demux : DvbDemux} {k : ℕ} {feed : DvbDemuxFeed}
    (h : feed.marks = (demux.feed k).marks) : KeepsMarks demux (demux.setFeed k feed) := by
  intro i
  by_cases hik : i = k
  · subst hik
    rw [feed_setFeed_self, h]
  · rw [feed_setFeed_of_ne hik]

theorem keepsMarks_feedAlloc {demux demux' : DvbDemux} {k : ℕ}
    (h : dvbDmxFeedAlloc demux = some (k, demux')) : KeepsMarks demux demux' := by
  unfold dvbDmxFeedAlloc at h
  split at h
  · cases h
  · cases h
    exact keepsMarks_setFeed (by rfl)

theorem feed_filterAlloc {demux demux' : DvbDemux} {j : ℕ}
    (h : dvbDmxFilterAlloc demux = some (j, demux')) : demux'.feed = demux.feed := by
  unfold dvbDmxFilterAlloc at h
  split at h
  · cases h
  · cases h
    rfl

theorem feed_feedAdd (demux : DvbDemux) (i : ℕ) : (dvbDemuxFeedAdd demux i).feed = demux.feed := by
  unfold dvbDemuxFeedAdd
  split_ifs <;> rfl

theorem keepsMarks_allocateTsFeed (demux : DvbDemux) (interrupted : Bool)
    (overlay : DmxSectionFeed) :
    KeepsMarks demux (dvbdmxAllocateTsFeed demux interrupted overlay).2 := by
  unfold dvbdmxAllocateTsFeed
  split_ifs
  · exact .refl _
  · rcases hk : dvbDmxFeedAlloc demux with _ | ⟨k, demux₁⟩
    · exact .refl _
    · have h₁ := keepsMarks_feedAlloc hk
      dsimp only
      rcases hj : dvbDmxFilterAlloc demux₁ with _ | ⟨j, demux₂⟩
      · exact h₁.trans (keepsMarks_setFeed (by rfl))
      · have hfeed := feed_filterAlloc hj
        have h₂ : KeepsMarks demux₁ demux₂ := fun i => by rw [hfeed]
        exact (h₁.trans h₂).trans (keepsMarks_setFeed (by rw [hfeed]; rfl))

theorem keepsMarks_tsFeedSet (demux : DvbDemux) (i : ℕ) (interrupted : Bool)
    (pid tsType pesType : ℕ) :
    KeepsMarks demux (dmxTsFeedSet demux i interrupted pid tsType pesType).2 := by
  have hset : ∀ demux' : DvbDemux, demux'.feed = demux.feed → KeepsMarks demux
      ((dvbDemuxFeedAdd demux' i).setFeed i { (dvbDemuxFeedAdd demux' i).feed i with
        pid, tsType, pesType, state := .DMX_STATE_READY }) := by
    intro demux' h
    have hadd : KeepsMarks demux (dvbDemuxFeedAdd demux' i) := fun k => by rw [feed_feedAdd, h]
    exact hadd.trans (keepsMarks_setFeed (by rfl))
  unfold dmxTsFeedSet
  split_ifs
  · exact .refl _
  · exact .refl _
  · exact .refl _
  · exact .refl _
  · exact hset _ rfl
  · exact hset _ rfl

theorem feed_freeTsFilter (demux : DvbDemux) (feed : DvbDemuxFeed) :
    (freeTsFilter demux feed).feed = demux.feed := by
  unfold freeTsFilter
  split <;> rfl

theorem keepsMarks_releaseTsFeed (demux : DvbDemux) (i : ℕ) :
    KeepsMarks demux (dvbdmxReleaseTsFeed demux i).2 := by
  have hdel : KeepsMarks demux (dvbDemuxFeedDel (freeTsFilter demux (demux.feed i)) i) :=
    fun k => congrArg (fun f => (f k).marks) (feed_freeTsFilter demux (demux.feed i))
  have hset : KeepsMarks demux ((dvbDemuxFeedDel (freeTsFilter demux (demux.feed i)) i).setFeed i
      { demux.feed i with state := .DMX_STATE_FREE, pid := 0xffff }) :=
    hdel.trans (keepsMarks_setFeed (hdel i).symm)
  unfold dvbdmxReleaseTsFeed
  dsimp only
  split_ifs
  · exact .refl _
  · exact hset
  · exact hset

theorem keepsMarks_allocateSectionFeed (demux : DvbDemux) (interrupted : Bool) :
    KeepsMarks demux (dvbdmxAllocateSectionFeed demux interrupted).2 := by
  unfold dvbdmxAllocateSectionFeed
  split_ifs
  · exact .refl _
  · rcases hk : dvbDmxFeedAlloc demux with _ | ⟨k, demux₁⟩
    · exact .refl _
    · exact (keepsMarks_feedAlloc hk).trans (keepsMarks_setFeed (by rfl))

theorem keepsMarks_allocateFilter (demux : DvbDemux) (i : ℕ) (interrupted : Bool) :
    KeepsMarks demux (dmxSectionFeedAllocateFilter demux i interrupted).2 := by
  unfold dmxSectionFeedAllocateFilter
  split_ifs
  · exact .refl _
  · rcases hj : dvbDmxFilterAlloc demux with _ | ⟨j, demux₁⟩
    · exact .refl _
    · have h₁ : KeepsMarks demux demux₁ := fun k => by rw [feed_filterAlloc hj]
      exact h₁.trans (keepsMarks_setFeed (by rfl))

theorem keepsMarks_sectionFeedSet (demux : DvbDemux) (i : ℕ) (interrupted : Bool) (pid : ℕ)
    (checkCrc : Bool) :
    KeepsMarks demux (dmxSectionFeedSet demux i interrupted pid checkCrc).2 := by
  unfold dmxSectionFeedSet
  split_ifs
  · exact .refl _
  · exact .refl _
  · have hadd : KeepsMarks demux (dvbDemuxFeedAdd demux i) := fun k => by rw [feed_feedAdd]
    exact hadd.trans (keepsMarks_setFeed (by rfl))

theorem keepsMarks_sectionFeedStart (demux : DvbDemux) (i : ℕ) (interrupted : Bool) (ret : ℤ) :
    KeepsMarks demux (dmxSectionFeedStartFiltering demux i interrupted ret).2 := by
  unfold dmxSectionFeedStartFiltering
  dsimp only
  split_ifs
  · exact .refl _
  · exact .refl _
  · exact .refl _
  · exact keepsMarks_setFeed (by rfl)
  · exact keepsMarks_setFeed (by rfl)
  · exact keepsMarks_setFeed (by rfl)

theorem keepsMarks_sectionFeedStop (demux : DvbDemux) (i : ℕ) (ret : ℤ) :
    KeepsMarks demux (dmxSectionFeedStopFiltering demux i ret).2 := by
  unfold dmxSectionFeedStopFiltering
  split_ifs
  · exact .refl _
  · exact keepsMarks_setFeed (by rfl)

theorem keepsMarks_releaseFilter {demux : DvbDemux} {i j : ℕ} {ret : ℤ} {r : ℤ × DvbDemux}
    (h : dmxSectionFeedReleaseFilter demux i j ret = some r) : KeepsMarks demux r.2 := by
  unfold dmxSectionFeedReleaseFilter at h
  have hstop : KeepsMarks demux (if (demux.feed i).isFiltering then
      (dmxSectionFeedStopFiltering demux i ret).2 else demux) := by
    split_ifs
    · exact keepsMarks_sectionFeedStop demux i ret
    · exact .refl _
  dsimp only at h
  generalize (if (demux.feed i).isFiltering = true then
    (dmxSectionFeedStopFiltering demux i ret).2 else demux) = demux₁ at h hstop
  split_ifs at h
  · cases h
    exact .refl _
  · split at h
    · cases h
    · cases h
      exact hstop.trans (keepsMarks_setFeed (by rfl))

/-- **Only a packet changes what a feed has heard and handed up.** -/
theorem keepsMarks_step {demux : DvbDemux} {e : DemuxEvent} {r : ℤ × DvbDemux}
    (h : step demux e = some r) (he : ∀ ops tscheck feedErrPkts buf,
      e ≠ .packet ops tscheck feedErrPkts buf) : KeepsMarks demux r.2 := by
  have htype : ∀ {type i r'}, asType demux type i (some r') = some r → r' = r := by
    intro type i r' h
    unfold asType at h
    split_ifs at h
    exact Option.some.inj h
  cases e with
  | allocateTsFeed interrupted overlay =>
    cases h
    exact keepsMarks_allocateTsFeed demux interrupted overlay
  | tsFeedSet i interrupted pid tsType pesType =>
    obtain rfl := htype h
    exact keepsMarks_tsFeedSet demux i interrupted pid tsType pesType
  | tsFeedStart i interrupted ret =>
    obtain rfl := htype h
    unfold dmxTsFeedStartFiltering
    dsimp only
    split_ifs
    all_goals first | exact .refl _ | exact keepsMarks_setFeed (by rfl)
  | tsFeedStop i ret =>
    obtain rfl := htype h
    unfold dmxTsFeedStopFiltering
    dsimp only
    split_ifs
    all_goals first | exact .refl _ | exact keepsMarks_setFeed (by rfl)
  | releaseTsFeed i =>
    obtain rfl := htype h
    exact keepsMarks_releaseTsFeed demux i
  | allocateSectionFeed interrupted =>
    cases h
    exact keepsMarks_allocateSectionFeed demux interrupted
  | allocateFilter i interrupted =>
    obtain rfl := htype h
    exact keepsMarks_allocateFilter demux i interrupted
  | fillFilter i j filter =>
    obtain rfl := htype h
    exact keepsMarks_setFeed (by rfl)
  | sectionFeedSet i interrupted pid checkCrc =>
    obtain rfl := htype h
    exact keepsMarks_sectionFeedSet demux i interrupted pid checkCrc
  | sectionFeedStart i interrupted ret =>
    obtain rfl := htype h
    exact keepsMarks_sectionFeedStart demux i interrupted ret
  | sectionFeedStop i ret =>
    obtain rfl := htype h
    exact keepsMarks_sectionFeedStop demux i ret
  | releaseFilter i j ret =>
    change asType demux _ i (dmxSectionFeedReleaseFilter demux i j ret) = some r at h
    unfold asType at h
    split_ifs at h
    exact keepsMarks_releaseFilter h
  | releaseSectionFeed i =>
    obtain rfl := htype h
    unfold dvbdmxReleaseSectionFeed
    dsimp only
    split_ifs
    · exact .refl _
    · have hdel : KeepsMarks demux (dvbDemuxFeedDel demux i) := fun _ => rfl
      exact hdel.trans (keepsMarks_setFeed (by rfl))
  | packet ops tscheck feedErrPkts buf => exact absurd rfl (he ops tscheck feedErrPkts buf)

/-! ## What a packet does to a feed that has heard nothing -/

/-- The feed is still for the same packets, and still has heard and handed up nothing new. -/
structure Mute (feed feed' : DvbDemuxFeed) : Prop where
  pid : feed'.pid = feed.pid
  isFiltering : feed'.isFiltering = feed.isFiltering
  marks : feed'.marks = feed.marks

theorem Mute.refl (feed : DvbDemuxFeed) : Mute feed feed := ⟨rfl, rfl, rfl⟩

theorem Mute.trans {a b c : DvbDemuxFeed} (h : Mute a b) (h' : Mute b c) : Mute a c :=
  ⟨h'.pid.trans h.pid, h'.isFiltering.trans h.isFiltering, h'.marks.trans h.marks⟩

/-- Without a section start the parser loop hands nothing up. -/
theorem dumpScan_of_not_pusiSeen (ops : DemuxOps) {v : SectionView} (h : v.pusiSeen = false)
    (limit fuel pos : ℕ) (calls : List SectionCall) :
    (dumpScan ops v limit fuel pos calls).2 = calls := by
  induction fuel generalizing pos with
  | zero => rfl
  | succ fuel ih =>
    rw [dumpScan]
    split_ifs with hc hpusi
    · exact absurd (h.symm.trans hpusi) Bool.false_ne_true
    · exact ih _
    · rfl

theorem mute_copyDump (ops : DemuxOps) {feed : DvbDemuxFeed} (h : feed.pusiSeen = false)
    (buf : List UInt8) : Mute feed (dvbDmxSwfilterSectionCopyDump ops feed buf) := by
  by_cases hne : buf.take feed.room = []
  · rw [copyDump_nil ops hne]
    exact .refl _
  · obtain ⟨fl, crc, sl, hcopy⟩ := copyDump_eq ops rfl hne
    have hscan := dumpScan_of_not_pusiSeen ops
      (v := (feed.append (buf.take feed.room)).view) h
      (feed.sec.tsfeedp + (buf.take feed.room).length)
      (feed.sec.tsfeedp + (buf.take feed.room).length) feed.sec.secbufp feed.calls
    rw [hcopy]
    refine ⟨rfl, rfl, ?_⟩
    exact congrArg (Prod.mk feed.pusiSeen) hscan

/-- A packet in which no section starts hands nothing up while no section start has come by. -/
theorem mute_sectionPacketType (ops : DemuxOps) {feed : DvbDemuxFeed} (h : feed.pusiSeen = false)
    {buf : TsPacket} (hdeaf : feed.isFiltering = true → ¬ buf.pusi) :
    Mute feed (sectionPacketType ops feed buf) := by
  unfold sectionPacketType
  split_ifs with hfil
  · by_cases hp : payload buf = 0
    · rw [sectionPacket_of_payload_eq_zero ops hp]
      exact ⟨rfl, rfl, rfl⟩
    · obtain ⟨feed', he, hpkt⟩ := sectionPacket_cont ops feed hp (hdeaf hfil)
      have hentered : Mute feed feed' := by
        rw [Entered] at he
        split_ifs at he
        · rw [he]
          exact ⟨rfl, rfl, rfl⟩
        · obtain ⟨fl, rfl⟩ := he
          exact ⟨rfl, rfl, congrArg (fun b => (b, feed.calls)) h.symm⟩
      have hpusi : feed'.pusiSeen = false :=
        (congrArg Prod.fst hentered.marks).trans h
      rw [hpkt]
      exact hentered.trans (mute_copyDump ops hpusi _)
  · exact .refl _

theorem mute_packetType (ops : DemuxOps) {feed : DvbDemuxFeed} (h : feed.pusiSeen = false)
    {buf : TsPacket} (hdeaf : feed.isFiltering = true → ¬ buf.pusi) :
    Mute feed (dvbDmxSwfilterPacketType ops feed buf) := by
  unfold dvbDmxSwfilterPacketType
  split
  · unfold tsPacketType dvbDmxSwfilterPayload
    dsimp only
    split_ifs <;> exact ⟨rfl, rfl, rfl⟩
  · exact mute_sectionPacketType ops h hdeaf

theorem mute_setFeed {demux : DvbDemux} {i k : ℕ} {feed : DvbDemuxFeed}
    (h : k = i → Mute (demux.feed i) feed) : Mute (demux.feed i) ((demux.setFeed k feed).feed i) := by
  by_cases hki : k = i
  · subst hki
    rw [feed_setFeed_self]
    exact h rfl
  · rw [feed_setFeed_of_ne (Ne.symm hki)]
    exact .refl _

theorem mute_flagFeeds (pid : ℕ) (flag : UInt32) (is : List ℕ) (demux : DvbDemux) (i : ℕ) :
    Mute (demux.feed i) ((flagFeeds pid flag is demux).feed i) := by
  unfold flagFeeds
  induction is generalizing demux with
  | nil => exact .refl _
  | cons k is ih =>
    rw [List.foldl_cons]
    refine Mute.trans ?_ (ih _)
    split_ifs
    · exact .refl _
    · refine mute_setFeed fun hki => ?_
      subst hki
      exact ⟨rfl, rfl, rfl⟩

theorem mute_distribute (ops : ℕ → DemuxOps) {buf : TsPacket} {i : ℕ} (is : List ℕ)
    (dvrDone : Bool) (demux : DvbDemux) (h : (demux.feed i).pusiSeen = false)
    (hdeaf : i ∈ is → (demux.feed i).pid = tsPid buf → (demux.feed i).isFiltering = true →
      ¬ buf.pusi) :
    Mute (demux.feed i) ((distribute ops (tsPid buf) buf is dvrDone demux).feed i) := by
  induction is generalizing dvrDone demux with
  | nil => exact .refl _
  | cons k is ih =>
    -- the rest of the list, once the feed in slot `k` has been dealt with
    have hrest : ∀ dvrDone feed, (k = i → Mute (demux.feed i) feed) →
        Mute (demux.feed i)
          ((distribute ops (tsPid buf) buf is dvrDone (demux.setFeed k feed)).feed i) := by
      intro dvrDone feed hfeed
      have hset := mute_setFeed hfeed
      refine hset.trans (ih dvrDone _ ((congrArg Prod.fst hset.marks).trans h) fun hi hpid hfil => ?_)
      exact hdeaf (List.mem_cons_of_mem _ hi) (hset.pid.symm.trans hpid)
        (hset.isFiltering.symm.trans hfil)
    have hskip : ∀ dvrDone, Mute (demux.feed i)
        ((distribute ops (tsPid buf) buf is dvrDone demux).feed i) :=
      fun dvrDone => ih dvrDone demux h fun hi => hdeaf (List.mem_cons_of_mem _ hi)
    unfold distribute
    dsimp only
    split_ifs with h1 h2 hpid hall
    · exact hskip _
    · exact hskip _
    · refine hrest _ _ fun hki => ?_
      subst hki
      exact mute_packetType (ops k) h (hdeaf (List.mem_cons_self ..) hpid)
    · refine hrest _ _ fun hki => ?_
      subst hki
      exact ⟨rfl, rfl, rfl⟩
    · exact hskip _

theorem feedList_flagFeeds (pid : ℕ) (flag : UInt32) (is : List ℕ) (demux : DvbDemux) :
    (flagFeeds pid flag is demux).feedList = demux.feedList := by
  unfold flagFeeds
  induction is generalizing demux with
  | nil => rfl
  | cons k is ih =>
    rw [List.foldl_cons, ih]
    split_ifs <;> rfl

/-- The packet counter check only sets flags. -/
theorem mute_checkCounter (demux : DvbDemux) (buf : TsPacket) (i : ℕ) :
    Mute (demux.feed i) ((checkCounter demux buf).feed i) ∧
      (checkCounter demux buf).feedList = demux.feedList := by
  unfold checkCounter
  rcases demux.cntStorage with _ | cnt
  · exact ⟨.refl _, rfl⟩
  · dsimp only
    split_ifs
    all_goals first
      | exact ⟨.refl _, rfl⟩
      | exact ⟨mute_flagFeeds _ _ _ demux i, feedList_flagFeeds ..⟩

/-- **One packet**: a feed that is not handed the packet as a section start, and has not heard one
before, hands nothing up. -/
theorem mute_packet (ops : ℕ → DemuxOps) (tscheck feedErrPkts : Bool) {demux : DvbDemux}
    {buf : TsPacket} {i : ℕ} (h : (demux.feed i).pusiSeen = false)
    (hdeaf : ¬ Hears demux i (.packet ops tscheck feedErrPkts buf)) :
    Mute (demux.feed i) ((dvbDmxSwfilterPacket ops tscheck feedErrPkts demux buf).feed i) := by
  -- what is left is the distribution, on a demux with other flags and counters
  have hdist : ∀ demux' : DvbDemux, Mute (demux.feed i) (demux'.feed i) →
      demux'.feedList = demux.feedList → (buf.tei → feedErrPkts = true) →
      Mute (demux.feed i)
        ((distribute ops (tsPid buf) buf demux.feedList false demux').feed i) := by
    intro demux' hmute hlist htei
    refine hmute.trans (mute_distribute ops _ false demux'
      ((congrArg Prod.fst hmute.marks).trans h) fun hi hpid hfil hpusi => ?_)
    exact hdeaf ⟨htei, hi, hmute.isFiltering.symm.trans hfil, hmute.pid.symm.trans hpid, hpusi⟩
  unfold dvbDmxSwfilterPacket
  dsimp only
  split_ifs with htei herr hts
  · exact mute_flagFeeds _ _ _ demux i
  · rw [feedList_flagFeeds]
    exact hdist _ (mute_flagFeeds _ _ _ demux i) (feedList_flagFeeds ..)
      fun _ => by simpa using herr
  · obtain ⟨hmute, hlist⟩ := mute_checkCounter demux buf i
    rw [hlist]
    exact hdist _ hmute hlist fun h => absurd h htei
  · exact hdist _ (.refl _) rfl fun h => absurd h htei

/-! ## Starting a section feed -/

/-- One event keeps a feed silent that has heard no section start. -/
theorem marks_step {demux : DvbDemux} {e : DemuxEvent} {r : ℤ × DvbDemux} {i : ℕ}
    (hstep : step demux e = some r) (h : (demux.feed i).pusiSeen = false)
    (hdeaf : ¬ Hears demux i e) : (r.2.feed i).marks = (demux.feed i).marks := by
  by_cases he : ∃ ops tscheck feedErrPkts buf, e = .packet ops tscheck feedErrPkts buf
  · obtain ⟨ops, tscheck, feedErrPkts, buf, rfl⟩ := he
    cases hstep
    exact (mute_packet ops tscheck feedErrPkts h hdeaf).marks
  · exact keepsMarks_step hstep (fun ops tscheck feedErrPkts buf heq =>
      he ⟨ops, tscheck, feedErrPkts, buf, heq⟩) i

/-- A whole run keeps a feed silent that has heard no section start. -/
theorem marks_run {i : ℕ} (es : List DemuxEvent) {demux demux' : DvbDemux}
    (hrun : run demux es = some demux') (h : (demux.feed i).pusiSeen = false)
    (hdeaf : Deaf i demux es) : (demux'.feed i).marks = (demux.feed i).marks := by
  induction es generalizing demux with
  | nil =>
    cases hrun
    rfl
  | cons e es ih =>
    obtain ⟨r, hstep, hrun⟩ := Option.bind_eq_some_iff.mp hrun
    have hmarks := marks_step hstep h hdeaf.1
    exact (ih hrun ((congrArg Prod.fst hmarks).trans h) (hdeaf.2 r hstep)).trans hmarks

/-- **A section feed that is started with `pusi_seen` clear** hands nothing up before it has been
handed a packet in which a section starts, whatever happens to the demux meanwhile. -/
theorem quiet_until_pusi {demux started demux' : DvbDemux} {i : ℕ} {interrupted : Bool} {ret : ℤ}
    {es : List DemuxEvent}
    (hstart : step demux (.sectionFeedStart i interrupted ret) = some (0, started))
    (hclear : (demux.feed i).pusiSeen = false) (hdeaf : Deaf i started es)
    (hrun : run started es = some demux') : (demux'.feed i).calls = (started.feed i).calls := by
  have hmarks := marks_step (i := i) hstart hclear not_false
  exact congrArg Prod.snd (marks_run es hrun ((congrArg Prod.fst hmarks).trans hclear) hdeaf)

/-! ## On a concrete demux -/

/-- A demux with one feed and one filter, on memory that was all zero. -/
def plainDemux : DvbDemux :=
  dvbDmxInit 1 1 true true
    (fun _ => ⟨⟨fun _ => 0, fun _ => 0, fun _ => 0⟩, fun _ => 0, fun _ => 0, false, 0⟩)
    (fun _ => plainSlot false) (fun _ => 0) none

/-- A client sets up a section feed for PID `0x11` that takes every section. -/
def setUp : List DemuxEvent :=
  [.allocateSectionFeed false, .allocateFilter 0 false,
    .fillFilter 0 0 ⟨fun _ => 0, fun _ => 0, fun _ => 0⟩, .sectionFeedSet 0 false 0x11 false]

theorem stuffing_le : ([0, 0xff] : List UInt8).length ≤ 182 := by decide

/-- The feed runs for one packet, in which a section starts, and is stopped. -/
def runOnce : List DemuxEvent :=
  [.sectionFeedStart 0 false 0,
    .packet (fun _ => plainOps) false true (.stuffed 0x11 true false 5 [0, 0xff] stuffing_le),
    .sectionFeedStop 0 0]

/-- A packet that counts on, without a section start.  What is left of some section looks like a
short one. -/
def tail : DemuxEvent :=
  .packet (fun _ => plainOps) false true (.stuffed 0x11 false false 6 [0x42, 0x00, 0x01, 0x07])

theorem run_append (demux : DvbDemux) (es es' : List DemuxEvent) :
    run demux (es ++ es') = (run demux es).bind fun d => run d es' := by
  induction es generalizing demux with
  | nil => rfl
  | cons e es ih =>
    rw [List.cons_append, run, run, Option.bind_assoc]
    exact congrArg _ (funext fun r => ih r.2)

theorem not_hears_tail (demux : DvbDemux) : ¬ Hears demux 0 tail :=
  fun h => absurd h.2.2.2.2 (by decide +kernel)

theorem deaf_tail (demux : DvbDemux) : Deaf 0 demux [tail] :=
  ⟨not_hears_tail demux, fun _ _ => trivial⟩

/-- The parts of a run in which slot `0` is started and `tail` arrives. -/
theorem exists_start_tail (es : List DemuxEvent) (before after : List SectionCall)
    (hret : ((run plainDemux es).bind fun d =>
      step d (.sectionFeedStart 0 false 0)).map Prod.fst = some 0)
    (hbefore : (run plainDemux (es ++ [.sectionFeedStart 0 false 0])).map
      (fun d => (d.feed 0).calls) = some before)
    (hafter : (run plainDemux (es ++ [.sectionFeedStart 0 false 0, tail])).map
      (fun d => (d.feed 0).calls) = some after) :
    ∃ demux started demux', run plainDemux es = some demux ∧
      step demux (.sectionFeedStart 0 false 0) = some (0, started) ∧
      run started [tail] = some demux' ∧ (started.feed 0).calls = before ∧
      (demux'.feed 0).calls = after := by
  rw [run_append] at hbefore hafter
  rcases hrun : run plainDemux es with _ | demux
  · rw [hrun] at hret
    cases hret
  · rw [hrun, Option.bind_some] at hret hbefore hafter
    obtain ⟨⟨ret, started⟩, hstart, rfl⟩ := Option.map_eq_some_iff.mp hret
    rw [run, hstart] at hbefore hafter
    obtain ⟨demux', hrun', hcalls⟩ := Option.map_eq_some_iff.mp hafter
    exact ⟨demux, started, demux', rfl, hstart, hrun', Option.some.inj hbefore, hcalls⟩

theorem quiet_until_pusi_plain :
    ∃ demux started demux', run plainDemux setUp = some demux ∧
      step demux (.sectionFeedStart 0 false 0) = some (0, started) ∧
      run started [tail] = some demux' ∧ (demux'.feed 0).calls = (started.feed 0).calls := by
  obtain ⟨demux, started, demux', hrun, hstart, htail, -, -⟩ :=
    exists_start_tail setUp [] [] (by decide +kernel) (by decide +kernel) (by decide +kernel)
  have hclear : (run plainDemux setUp).map (fun d => (d.feed 0).pusiSeen) = some false := by
    decide +kernel
  rw [hrun] at hclear
  exact ⟨demux, started, demux', hrun, hstart, htail,
    quiet_until_pusi hstart (Option.some.inj hclear) (deaf_tail started) htail⟩

/-- **A feed that is started again can hand up garbage**: the first run has left `pusi_seen` set and
the counter at five, and `tail` counts on. -/
theorem garbage_on_restart :
    ¬ ∀ (history : List DemuxEvent) (i : ℕ) (interrupted : Bool) (ret : ℤ) (es : List DemuxEvent)
      (demux started demux' : DvbDemux), run plainDemux history = some demux →
      step demux (.sectionFeedStart i interrupted ret) = some (0, started) → Deaf i started es →
      run started es = some demux' → (demux'.feed i).calls = (started.feed i).calls := by
  intro h
  obtain ⟨demux, started, demux', hrun, hstart, htail, hbefore, hafter⟩ :=
    exists_start_tail (setUp ++ runOnce) [] [⟨[0x42, 0, 1, 7], 0⟩] (by decide +kernel)
      (by decide +kernel) (by decide +kernel)
  have hsame := h _ _ _ _ _ _ _ _ hrun hstart (deaf_tail started) htail
  rw [hbefore, hafter] at hsame
  exact List.cons_ne_nil _ _ hsame

end Demux
end TbsMedia
