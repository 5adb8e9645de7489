import Mathlib
import TbsMedia.DvbDemux.DemuxRun

/-!
# Who is handed a packet

A packet changes what the feeds have collected and handed up, and nothing that decides who is handed
the next one (`keepsControl_packet`).  The feeds of the list are handed the packet if their PID is
that of the packet, and then only while they are filtering.  A feed on the whole stream, PID
`0x2000`, gets it whether it is filtering or not.

* `silent_packet`: which packets make calls to filtering feeds only.
* `silent_iff`: the same for all packets of a run.
-/

namespace TbsMedia
namespace Demux

open Function

/-! ## What a packet leaves alone -/

/-- What the clients have decided about a feed is the same. -/
structure KeepsControl (feed feed' : DvbDemuxFeed) : Prop where
  type : feed'.type = feed.type
  state : feed'.state = feed.state
  pid : feed'.pid = feed.pid
  isFiltering : feed'.isFiltering = feed.isFiltering
  tsType : feed'.tsType = feed.tsType
  pesType : feed'.pesType = feed.pesType
  filter : feed'.filter = feed.filter

theorem KeepsControl.refl (feed : DvbDemuxFeed) : KeepsControl feed feed :=
  ⟨rfl, rfl, rfl, rfl, rfl, rfl, rfl⟩

theorem KeepsControl.trans {a b c : DvbDemuxFeed} (h : KeepsControl a b) (h' : KeepsControl b c) :
    KeepsControl a c :=
  ⟨h'.type.trans h.type, h'.state.trans h.state, h'.pid.trans h.pid,
    h'.isFiltering.trans h.isFiltering, h'.tsType.trans h.tsType, h'.pesType.trans h.pesType,
    h'.filter.trans h.filter⟩

theorem keepsControl_copyDump (ops : DemuxOps) (feed : DvbDemuxFeed) (buf : List UInt8) :
    KeepsControl feed (dvbDmxSwfilterSectionCopyDump ops feed buf) := by
  by_cases hne : buf.take feed.room = []
  · rw [copyDump_nil ops hne]
    exact .refl _
  · obtain ⟨fl, crc, sl, hcopy⟩ := copyDump_eq ops rfl hne
    rw [hcopy]
    exact ⟨rfl, rfl, rfl, rfl, rfl, rfl, rfl⟩

theorem keepsControl_sectionNew (feed : DvbDemuxFeed) :
    KeepsControl feed (dvbDmxSwfilterSectionNew feed) := by
  obtain ⟨fl, hnew⟩ := sectionNew_eq feed
  rw [hnew]
  exact ⟨rfl, rfl, rfl, rfl, rfl, rfl, rfl⟩

theorem keepsControl_setBufFlags (feed : DvbDemuxFeed) (flag : UInt32) :
    KeepsControl feed (setBufFlags feed flag) := ⟨rfl, rfl, rfl, rfl, rfl, rfl, rfl⟩

theorem keepsControl_cbTs (ops : DemuxOps) (feed : DvbDemuxFeed) (buf : List UInt8) :
    KeepsControl feed (cbTs ops feed buf) := ⟨rfl, rfl, rfl, rfl, rfl, rfl, rfl⟩

theorem keepsControl_sectionPacket (ops : DemuxOps) (feed : DvbDemuxFeed) (buf : TsPacket) :
    KeepsControl feed (dvbDmxSwfilterSectionPacket ops feed buf).2 := by
  by_cases hp : payload buf = 0
  · rw [sectionPacket_of_payload_eq_zero ops hp]
    exact .refl _
  · obtain ⟨feed', he, hpkt⟩ := sectionPacket_eq ops feed hp
    have hentered : KeepsControl feed feed' := by
      rw [Entered] at he
      split_ifs at he
      · rw [he]
        exact ⟨rfl, rfl, rfl, rfl, rfl, rfl, rfl⟩
      · obtain ⟨fl, rfl⟩ := he
        exact ⟨rfl, rfl, rfl, rfl, rfl, rfl, rfl⟩
    rw [hpkt]
    refine hentered.trans ?_
    dsimp only
    split_ifs
    · split
      · exact .refl _
      · split_ifs
        · rename_i ptr body _ _
          have hbefore := keepsControl_copyDump ops feed' (body.take ptr.toNat)
          refine hbefore.trans (.trans ?_ (keepsControl_copyDump ops _ _))
          generalize dvbDmxSwfilterSectionCopyDump ops feed' (body.take ptr.toNat) = feed''
          have hseen : KeepsControl feed'' { feed'' with pusiSeen := true } :=
            ⟨rfl, rfl, rfl, rfl, rfl, rfl, rfl⟩
          exact hseen.trans (keepsControl_sectionNew _)
        · exact keepsControl_setBufFlags _ _
    · exact keepsControl_copyDump ops _ _

theorem keepsControl_sectionPacketType (ops : DemuxOps) (feed : DvbDemuxFeed) (buf : TsPacket) :
    KeepsControl feed (sectionPacketType ops feed buf) := by
  have hpkt := keepsControl_sectionPacket ops feed buf
  unfold sectionPacketType
  dsimp only
  split_ifs
  · exact hpkt.trans ⟨rfl, rfl, rfl, rfl, rfl, rfl, rfl⟩
  · exact hpkt
  · exact .refl _

theorem keepsControl_packetType (ops : DemuxOps) (feed : DvbDemuxFeed) (buf : TsPacket) :
    KeepsControl feed (dvbDmxSwfilterPacketType ops feed buf) := by
  unfold dvbDmxSwfilterPacketType
  split
  · unfold tsPacketType dvbDmxSwfilterPayload
    dsimp only
    split_ifs <;> exact ⟨rfl, rfl, rfl, rfl, rfl, rfl, rfl⟩
  · exact keepsControl_sectionPacketType ops feed buf

/-- A change of one feed, as it is seen from the slot `i`. -/
theorem keepsControl_setFeed {demux : DvbDemux} {k : ℕ} {feed : DvbDemuxFeed}
    (h : KeepsControl (demux.feed k) feed) (i : ℕ) :
    KeepsControl (demux.feed i) ((demux.setFeed k feed).feed i) := by
  by_cases hik : i = k
  · subst hik
    rw [feed_setFeed_self]
    exact h
  · rw [feed_setFeed_of_ne hik]
    exact .refl _

/-- The demux has the same list of feeds and the same slots for the decoder, and nothing has been
decided about a feed. -/
structure SameControl (demux demux' : DvbDemux) : Prop where
  feed : ∀ i, KeepsControl (demux.feed i) (demux'.feed i)
  feedList : demux'.feedList = demux.feedList
  pesfilter : demux'.pesfilter = demux.pesfilter

theorem SameControl.refl (demux : DvbDemux) : SameControl demux demux :=
  ⟨fun _ => .refl _, rfl, rfl⟩

theorem SameControl.trans {a b c : DvbDemux} (h : SameControl a b) (h' : SameControl b c) :
    SameControl a c :=
  ⟨fun i => (h.feed i).trans (h'.feed i), h'.feedList.trans h.feedList,
    h'.pesfilter.trans h.pesfilter⟩

theorem sameControl_setFeed {demux : DvbDemux} {k : ℕ} {feed : DvbDemuxFeed}
    (h : KeepsControl (demux.feed k) feed) : SameControl demux (demux.setFeed k feed) :=
  ⟨keepsControl_setFeed h, rfl, rfl⟩

theorem sameControl_flagFeeds (pid : ℕ) (flag : UInt32) (is : List ℕ) (demux : DvbDemux) :
    SameControl demux (flagFeeds pid flag is demux) := by
  unfold flagFeeds
  induction is generalizing demux with
  | nil => exact .refl _
  | cons k is ih =>
    rw [List.foldl_cons]
    refine SameControl.trans ?_ (ih _)
    split_ifs
    · exact .refl _
    · exact sameControl_setFeed (keepsControl_setBufFlags _ _)

theorem sameControl_checkCounter (demux : DvbDemux) (buf : TsPacket) :
    SameControl demux (checkCounter demux buf) := by
  unfold checkCounter
  rcases demux.cntStorage with _ | cnt
  · exact .refl _
  · obtain ⟨hfeed, hlist, hpes⟩ := sameControl_flagFeeds (tsPid buf)
      DMX_BUFFER_PKT_COUNTER_MISMATCH demux.feedList demux
    dsimp only
    split_ifs
    all_goals first
      | exact ⟨fun _ => .refl _, rfl, rfl⟩
      | exact ⟨hfeed, hlist, hpes⟩

theorem sameControl_distribute (ops : ℕ → DemuxOps) (pid : ℕ) (buf : TsPacket) (is : List ℕ)
    (dvrDone : Bool) (demux : DvbDemux) :
    SameControl demux (distribute ops pid buf is dvrDone demux) := by
  induction is generalizing dvrDone demux with
  | nil => exact .refl _
  | cons k is ih =>
    unfold distribute
    dsimp only
    split_ifs
    · exact ih _ _
    · exact ih _ _
    · exact (sameControl_setFeed (keepsControl_packetType (ops k) _ buf)).trans (ih _ _)
    · exact (sameControl_setFeed (keepsControl_cbTs (ops k) _ buf.bytes)).trans (ih _ _)
    · exact ih _ _

/-- **A packet decides nothing.** -/
theorem sameControl_packet (ops : ℕ → DemuxOps) (tscheck feedErrPkts : Bool) (demux : DvbDemux)
    (buf : TsPacket) : SameControl demux (dvbDmxSwfilterPacket ops tscheck feedErrPkts demux buf) := by
  unfold dvbDmxSwfilterPacket
  dsimp only
  split_ifs
  · exact sameControl_flagFeeds ..
  · exact (sameControl_flagFeeds ..).trans (sameControl_distribute ..)
  · exact (sameControl_checkCounter ..).trans (sameControl_distribute ..)
  · exact sameControl_distribute ..

/-! ## Calls to feeds that are not filtering -/

/-- The feed has made the same calls. -/
def SameCalls (feed feed' : DvbDemuxFeed) : Prop :=
  feed'.tsCalls = feed.tsCalls ∧ feed'.calls = feed.calls

/-- No call has been made to a feed that is not filtering. -/
def Silent (demux demux' : DvbDemux) : Prop :=
  ∀ i, (demux.feed i).isFiltering = false → SameCalls (demux.feed i) (demux'.feed i)

/-- The feeds of `is` on the whole stream are filtering. -/
def StreamFiltering (demux : DvbDemux) (is : List ℕ) : Prop :=
  ∀ i ∈ is, (demux.feed i).pid = 0x2000 → (demux.feed i).isFiltering = true

theorem Silent.refl (demux : DvbDemux) : Silent demux demux := fun _ _ => ⟨rfl, rfl⟩

theorem Silent.trans {a b c : DvbDemux} (h : Silent a b) (hcon : SameControl a b)
    (h' : Silent b c) : Silent a c := by
  intro i hi
  obtain ⟨hts, hsec⟩ := h i hi
  obtain ⟨hts', hsec'⟩ := h' i ((hcon.feed i).isFiltering.trans hi)
  exact ⟨hts'.trans hts, hsec'.trans hsec⟩

/-- A change of one feed makes no call if that feed does not, or is filtering. -/
theorem silent_setFeed {demux : DvbDemux} {k : ℕ} {feed : DvbDemuxFeed}
    (h : (demux.feed k).isFiltering = false → SameCalls (demux.feed k) feed) :
    Silent demux (demux.setFeed k feed) := by
  intro i hi
  by_cases hik : i = k
  · subst hik
    rw [feed_setFeed_self]
    exact h hi
  · rw [feed_setFeed_of_ne hik]
    exact ⟨rfl, rfl⟩

/-- A feed on the PID of the packet that is not filtering is passed over. -/
theorem packetType_of_not_filtering (ops : DemuxOps) {feed : DvbDemuxFeed} (buf : TsPacket)
    (h : feed.isFiltering = false) : dvbDmxSwfilterPacketType ops feed buf = feed := by
  unfold dvbDmxSwfilterPacketType
  split
  · unfold tsPacketType
    rw [h]
    rfl
  · unfold sectionPacketType
    rw [h]
    rfl

theorem silent_flagFeeds (pid : ℕ) (flag : UInt32) (is : List ℕ) (demux : DvbDemux) :
    Silent demux (flagFeeds pid flag is demux) := by
  unfold flagFeeds
  induction is generalizing demux with
  | nil => exact .refl _
  | cons k is ih =>
    rw [List.foldl_cons]
    split_ifs
    · exact ih demux
    · have hcon := keepsControl_setBufFlags (demux.feed k) flag
      have hsil : Silent demux (demux.setFeed k (setBufFlags (demux.feed k) flag)) :=
        silent_setFeed fun _ => ⟨rfl, rfl⟩
      exact hsil.trans (sameControl_setFeed hcon) (ih _)

theorem silent_checkCounter (demux : DvbDemux) (buf : TsPacket) :
    Silent demux (checkCounter demux buf) := by
  unfold checkCounter
  rcases demux.cntStorage with _ | cnt
  · exact .refl _
  · have hflag := silent_flagFeeds (tsPid buf) DMX_BUFFER_PKT_COUNTER_MISMATCH demux.feedList demux
    dsimp only
    split_ifs
    all_goals first
      | exact fun _ _ => ⟨rfl, rfl⟩
      | exact hflag

theorem silent_distribute (ops : ℕ → DemuxOps) (pid : ℕ) (buf : TsPacket) (is : List ℕ)
    (dvrDone : Bool) (demux : DvbDemux) (h : StreamFiltering demux is) :
    Silent demux (distribute ops pid buf is dvrDone demux) := by
  induction is generalizing dvrDone demux with
  | nil => exact .refl _
  | cons k is ih =>
    have hskip : ∀ dvrDone, Silent demux (distribute ops pid buf is dvrDone demux) :=
      fun dvrDone => ih dvrDone demux fun i hi => h i (List.mem_cons_of_mem _ hi)
    -- the rest of the list, once the feed in slot `k` has been dealt with
    have hrest : ∀ dvrDone feed, KeepsControl (demux.feed k) feed →
        ((demux.feed k).isFiltering = false → SameCalls (demux.feed k) feed) →
        Silent demux (distribute ops pid buf is dvrDone (demux.setFeed k feed)) := by
      intro dvrDone feed hcon hcalls
      refine Silent.trans (silent_setFeed hcalls) (sameControl_setFeed hcon) (ih _ _ ?_)
      intro i hi hpid
      have hi' := keepsControl_setFeed hcon i
      exact hi'.isFiltering.trans
        (h i (List.mem_cons_of_mem _ hi) (hi'.pid.symm.trans hpid))
    unfold distribute
    dsimp only
    split_ifs with h1 h2 hpid hall
    · exact hskip _
    · exact hskip _
    · refine hrest _ _ (keepsControl_packetType (ops k) _ buf) fun hoff => ?_
      rw [packetType_of_not_filtering (ops k) buf hoff]
      exact ⟨rfl, rfl⟩
    · refine hrest _ _ ⟨rfl, rfl, rfl, rfl, rfl, rfl, rfl⟩ fun hoff => ?_
      rw [h k (List.mem_cons_self ..) hall] at hoff
      exact absurd hoff (by decide)
    · exact hskip _

/-! ## Calls to a feed on the whole stream -/

theorem tsPid_le (buf : TsPacket) : tsPid buf ≤ 0x1fff := by
  have h1 : (buf 1 &&& 0x1f).toNat ≤ 0x1f := by
    rw [UInt8.toNat_and]
    exact Nat.and_le_right
  have h2 : (buf 2).toNat < 256 := (buf 2).toNat_lt
  unfold tsPid
  omega

/-- A feed on the whole stream that is not filtering gets the packet each time it is come to. -/
theorem tsCalls_distribute (ops : ℕ → DemuxOps) (buf : TsPacket) (is : List ℕ) (dvrDone : Bool)
    (demux : DvbDemux) {i : ℕ} (hpid : (demux.feed i).pid = 0x2000)
    (hoff : (demux.feed i).isFiltering = false) :
    ((distribute ops (tsPid buf) buf is dvrDone demux).feed i).tsCalls =
      (demux.feed i).tsCalls ++ List.replicate (is.count i) buf.bytes := by
  have hne : 0x2000 ≠ tsPid buf := Nat.ne_of_gt (Nat.lt_of_le_of_lt (tsPid_le buf) (by decide))
  induction is generalizing dvrDone demux with
  | nil => exact (List.append_nil _).symm
  | cons k is ih =>
    unfold distribute
    by_cases hki : k = i
    · subst hki
      have hdvr : dvrFeed (demux.feed k) = false := by
        unfold dvrFeed
        rw [hoff]
        simp
      have hset := ih (dvrDone || dvrFeed (demux.feed k))
        (demux.setFeed k (cbTs (ops k) (demux.feed k) buf.bytes))
        (by rw [feed_setFeed_self]; exact hpid) (by rw [feed_setFeed_self]; exact hoff)
      dsimp only
      rw [if_neg (fun h => h.2 hpid), if_neg (by rw [hdvr]; rintro ⟨⟨⟩, -⟩),
        if_neg (by rw [hpid]; exact hne), if_pos hpid, hset, feed_setFeed_self, cbTs,
        List.count_cons_self, List.replicate_succ, List.append_assoc]
      rfl
    · have hstay : ∀ dvrDone feed,
          ((distribute ops (tsPid buf) buf is dvrDone (demux.setFeed k feed)).feed i).tsCalls =
            (demux.feed i).tsCalls ++ List.replicate (is.count i) buf.bytes := by
        intro dvrDone feed
        have hfeed := feed_setFeed_of_ne (Ne.symm hki) demux feed
        rw [ih dvrDone _ (by rw [hfeed]; exact hpid) (by rw [hfeed]; exact hoff), hfeed]
      rw [List.count_cons_of_ne hki]
      dsimp only
      split_ifs
      · exact ih _ demux hpid hoff
      · exact ih _ demux hpid hoff
      · exact hstay _ _
      · exact hstay _ _
      · exact ih _ demux hpid hoff

/-- **One packet.**  It makes calls to filtering feeds only, if and only if it is dropped for its
transport error or all feeds on the whole stream are filtering. -/
theorem silent_packet (ops : ℕ → DemuxOps) (tscheck feedErrPkts : Bool) (demux : DvbDemux)
    (buf : TsPacket) :
    Silent demux (dvbDmxSwfilterPacket ops tscheck feedErrPkts demux buf) ↔
      buf.tei ∧ feedErrPkts = false ∨ StreamFiltering demux demux.feedList := by
  -- what is left is the distribution, on a demux with other flags and counters
  have hdist : ∀ demux', SameControl demux demux' → Silent demux demux' →
      (Silent demux (distribute ops (tsPid buf) buf demux'.feedList false demux') ↔
        StreamFiltering demux demux.feedList) := by
    intro demux' hcon hsil
    rw [hcon.feedList]
    constructor
    · intro h i hi hpid
      by_contra hoff
      rw [Bool.not_eq_true] at hoff
      have hcalls := tsCalls_distribute ops buf demux.feedList false demux'
        ((hcon.feed i).pid.trans hpid) ((hcon.feed i).isFiltering.trans hoff)
      rw [(h i hoff).1, (hsil i hoff).1] at hcalls
      have hcount : demux.feedList.count i = 0 := by
        have hlen := congrArg List.length hcalls
        rw [List.length_append, List.length_replicate] at hlen
        omega
      exact List.count_eq_zero.mp hcount hi
    · intro h
      refine hsil.trans hcon (silent_distribute ops _ buf _ false demux' fun i hi hpid => ?_)
      exact (hcon.feed i).isFiltering.trans (h i hi ((hcon.feed i).pid.symm.trans hpid))
  unfold dvbDmxSwfilterPacket
  dsimp only
  split_ifs with htei herr hts
  · exact iff_of_true (silent_flagFeeds _ _ _ demux) (Or.inl ⟨htei, by simpa using herr⟩)
  · rw [hdist _ (sameControl_flagFeeds ..) (silent_flagFeeds _ _ _ demux)]
    exact (or_iff_right fun h => herr (by rw [h.2]; rfl)).symm
  · rw [hdist _ (sameControl_checkCounter demux buf) (silent_checkCounter demux buf)]
    exact (or_iff_right fun h => htei h.1).symm
  · rw [hdist demux (.refl _) (.refl _)]
    exact (or_iff_right fun h => htei h.1).symm

/-! ## Runs -/

/-- `P` holds of every event of the run over `es`, with the demux in front of it and behind it. -/
def Throughout (P : DvbDemux → DemuxEvent → DvbDemux → Prop) : DvbDemux → List DemuxEvent → Prop
  | _, [] => True
  | demux, e :: es => ∀ r, step demux e = some r → P demux e r.2 ∧ Throughout P r.2 es

theorem throughout_congr {P Q : DvbDemux → DemuxEvent → DvbDemux → Prop}
    (h : ∀ demux e r, step demux e = some r → (P demux e r.2 ↔ Q demux e r.2))
    (es : List DemuxEvent) (demux : DvbDemux) : Throughout P demux es ↔ Throughout Q demux es := by
  induction es generalizing demux with
  | nil => exact Iff.rfl
  | cons e es ih => exact forall₂_congr fun r hr => and_congr (h demux e r hr) (ih r.2)

/-- The event, if it is a packet, makes calls to filtering feeds only. -/
def CallsFilteringOnly (demux : DvbDemux) (e : DemuxEvent) (demux' : DvbDemux) : Prop :=
  match e with
  | .packet .. => Silent demux demux'
  | _ => True

/-- The event, if it is a packet that is not dropped for its transport error, finds all feeds on the
whole stream filtering. -/
def FindsStreamFiltering (demux : DvbDemux) (e : DemuxEvent) (_ : DvbDemux) : Prop :=
  match e with
  | .packet _ _ feedErrPkts buf =>
    buf.tei ∧ feedErrPkts = false ∨ StreamFiltering demux demux.feedList
  | _ => True

/-- **Who is called.**  In a run of any events, no packet makes a call to a feed that is not filtering,
if and only if each packet finds all feeds on the whole stream filtering. -/
theorem silent_iff (demux : DvbDemux) (es : List DemuxEvent) :
    Throughout CallsFilteringOnly demux es ↔ Throughout FindsStreamFiltering demux es := by
  refine throughout_congr (fun demux e r hr => ?_) es demux
  cases e with
  | packet ops tscheck feedErrPkts buf =>
    obtain rfl := Option.some.inj hr
    exact silent_packet ops tscheck feedErrPkts demux buf
  | _ => exact Iff.rfl

/-- A feed for the whole stream is set, and is not started. -/
def setStream : List DemuxEvent :=
  [.allocateTsFeed false (plainSlot false).sec, .tsFeedSet 0 false 0x2000 1 20,
    .packet (fun _ => plainOps) false true (.stuffed 0x11 true false 5 [0, 0xff] stuffing_le)]

/-- The feed is called before it is started. -/
theorem not_silent_setStream :
    ¬ ∀ es : List DemuxEvent, Throughout CallsFilteringOnly plainDemux es := by
  intro h
  have hrun := h setStream
  obtain ⟨-, hset⟩ := hrun _ rfl
  obtain ⟨-, hpkt⟩ := hset _ rfl
  obtain ⟨hsil, -⟩ := hpkt _ rfl
  have hsil₀ := (hsil 0 (by decide +kernel)).1
  have hlen := congrArg List.length hsil₀
  revert hlen
  decide +kernel

end Demux
end TbsMedia
