import TbsMedia.DvbDemux.Distribution

/-!
# The decoder slots

`pesfilter[t]` is the feed that the decoder gets the stream `t` from.  Who it belongs to is recorded
twice: in `pesfilter` itself, and in the `ts_type` and `pes_type` that a feed was last set with.  The
two can come apart: a feed that is set a second time gives back nothing, and a feed that has not been
set since its allocation is released with the types of whoever had its slot before.

* `Owned`: the entries of `pesfilter` are those of the feeds that have been set for them.
* `Tidy`: the events after which that is so.
* `owned_iff`: it is so throughout a run, if and only if all its events are tidy.
-/

namespace TbsMedia
namespace Demux

open Function

/-! ## What was set last -/

/-- Which `ts_type` and `pes_type` each feed was last set with, since its allocation. -/
abbrev LastSet := ℕ → Option (ℕ × ℕ)

/-- `last` after an event that is answered by `ret`. -/
def noteSet (demux : DvbDemux) (last : LastSet) (e : DemuxEvent) (ret : ℤ) : LastSet :=
  if ret ≠ 0 then last
  else
    match e with
    | .allocateTsFeed _ _ =>
      match dvbDmxFeedAlloc demux with
      | none => last
      | some (i, _) => update last i none
    | .tsFeedSet i _ _ tsType pesType => update last i (some (tsType, pesType))
    | .releaseTsFeed i => update last i none
    | _ => last

/-- `pesfilter[t]` points to feed `i` exactly when `i` is allocated, and was last set for the decoder
with the type `t`. -/
def Owned (demux : DvbDemux) (last : LastSet) : Prop :=
  ∀ t i, demux.pesfilter t = some i ↔
    (demux.feed i).state ≠ .DMX_STATE_FREE ∧ ∃ tsType, last i = some (tsType, t) ∧ tsDecoderBit tsType

/-- If the event releases a feed, the entries of the other feeds stay. -/
def SparesOthers (demux : DvbDemux) (e : DemuxEvent) (demux' : DvbDemux) : Prop :=
  match e with
  | .releaseTsFeed i => ∀ t j, j ≠ i → demux.pesfilter t = some j → demux'.pesfilter t = some j
  | _ => True

/-- The answer of `dmx_ts_feed_set` is `0`. -/
def TsFeedSetOk (demux : DvbDemux) (i : ℕ) (interrupted : Bool) (pid tsType pesType : ℕ) : Prop :=
  pid ≤ DMX_MAX_PID ∧ interrupted = false ∧ (tsDecoderBit tsType →
    pesType < DMX_PES_OTHER ∧ ∀ j, demux.pesfilter pesType = some j → j = i)

/-- A feed that has a decoder slot is not set for anything else, and a feed that has not been set is
not released with the types of somebody else's slot. -/
def Tidy (demux : DvbDemux) (last : LastSet) : DemuxEvent → Prop
  | .tsFeedSet i interrupted pid tsType pesType =>
    TsFeedSetOk demux i interrupted pid tsType pesType → ∀ tsType₀ pesType₀,
      last i = some (tsType₀, pesType₀) → tsDecoderBit tsType₀ →
        tsDecoderBit tsType ∧ pesType = pesType₀
  | .releaseTsFeed i =>
    (demux.feed i).state ≠ .DMX_STATE_FREE → last i = none →
      tsDecoderBit (demux.feed i).tsType → (demux.feed i).pesType < DMX_PES_OTHER →
        demux.pesfilter (demux.feed i).pesType = none
  | _ => True

/-- `P` holds of every event of the run over `es`, with what was set in front of it and behind it. -/
def ThroughoutSets (P : DvbDemux → LastSet → DemuxEvent → DvbDemux → LastSet → Prop) :
    DvbDemux → LastSet → List DemuxEvent → Prop
  | _, _, [] => True
  | demux, last, e :: es => ∀ r, step demux e = some r →
    P demux last e r.2 (noteSet demux last e r.1) ∧
      ThroughoutSets P r.2 (noteSet demux last e r.1) es

/-! ## Events that leave the slots alone -/

/-- What `last` says is what the feeds have. -/
def Recorded (demux : DvbDemux) (last : LastSet) : Prop :=
  ∀ i tsType pesType, last i = some (tsType, pesType) →
    (demux.feed i).state ≠ .DMX_STATE_FREE ∧ (demux.feed i).type = .DMX_TYPE_TS ∧
      (demux.feed i).tsType = tsType ∧ (demux.feed i).pesType = pesType ∧
        (tsDecoderBit tsType → pesType < DMX_PES_OTHER)

/-- An allocated TS feed stays one, with the same types. -/
def KeepsTypes (feed feed' : DvbDemuxFeed) : Prop :=
  feed.state ≠ .DMX_STATE_FREE → feed.type = .DMX_TYPE_TS →
    feed'.state ≠ .DMX_STATE_FREE ∧ feed'.type = .DMX_TYPE_TS ∧ feed'.tsType = feed.tsType ∧
      feed'.pesType = feed.pesType

/-- The slots for the decoder are the same, and the allocated TS feeds too. -/
structure KeepsPes (demux demux' : DvbDemux) : Prop where
  feed : ∀ i, KeepsTypes (demux.feed i) (demux'.feed i)
  pesfilter : demux'.pesfilter = demux.pesfilter

variable {demux demux' : DvbDemux} {last : LastSet}

theorem KeepsTypes.refl (feed : DvbDemuxFeed) : KeepsTypes feed feed :=
  fun hs ht => ⟨hs, ht, rfl, rfl⟩

theorem KeepsPes.refl (demux : DvbDemux) : KeepsPes demux demux := ⟨fun _ => .refl _, rfl⟩

theorem KeepsPes.trans {a b c : DvbDemux} (h : KeepsPes a b) (h' : KeepsPes b c) : KeepsPes a c := by
  refine ⟨fun k hs ht => ?_, h'.pesfilter.trans h.pesfilter⟩
  obtain ⟨hs₁, ht₁, hts₁, hpes₁⟩ := h.feed k hs ht
  obtain ⟨hs₂, ht₂, hts₂, hpes₂⟩ := h'.feed k hs₁ ht₁
  exact ⟨hs₂, ht₂, hts₂.trans hts₁, hpes₂.trans hpes₁⟩

theorem KeepsPes.recorded (h : KeepsPes demux demux') (hrec : Recorded demux last) :
    Recorded demux' last := by
  intro i tsType pesType hlast
  obtain ⟨hs, ht, hts, hpes, hlt⟩ := hrec i tsType pesType hlast
  obtain ⟨hs', ht', hts', hpes'⟩ := h.feed i hs ht
  exact ⟨hs', ht', hts'.trans hts, hpes'.trans hpes, hlt⟩

theorem owned_iff_of_recorded (hrec : Recorded demux last) :
    Owned demux last ↔ ∀ t i, demux.pesfilter t = some i ↔
      ∃ tsType, last i = some (tsType, t) ∧ tsDecoderBit tsType := by
  refine forall₂_congr fun t i => Iff.of_eq (congrArg _ (propext (and_iff_right_of_imp ?_)))
  rintro ⟨tsType, hlast, -⟩
  exact (hrec i tsType t hlast).1

theorem KeepsPes.owned (h : KeepsPes demux demux') (hrec : Recorded demux last)
    (ho : Owned demux last) : Owned demux' last := by
  rw [owned_iff_of_recorded (h.recorded hrec), h.pesfilter]
  exact (owned_iff_of_recorded hrec).mp ho

theorem keepsPes_setFeed {k : ℕ} {feed : DvbDemuxFeed} (h : KeepsTypes (demux.feed k) feed) :
    KeepsPes demux (demux.setFeed k feed) := by
  refine ⟨fun i => ?_, rfl⟩
  by_cases hik : i = k
  · subst hik
    rw [feed_setFeed_self]
    exact h
  · rw [feed_setFeed_of_ne hik]
    exact .refl _

/-- Another demux with the same feeds and slots. -/
theorem KeepsPes.of_eq (h : KeepsPes demux demux') {demux'' : DvbDemux}
    (hfeed : demux''.feed = demux'.feed) (hpes : demux''.pesfilter = demux'.pesfilter) :
    KeepsPes demux demux'' :=
  ⟨by rw [hfeed]; exact h.feed, hpes.trans h.pesfilter⟩

theorem KeepsTypes.of_free {feed feed' : DvbDemuxFeed} (h : feed.state = .DMX_STATE_FREE) :
    KeepsTypes feed feed' := fun hs => absurd h hs

theorem KeepsTypes.of_sec {feed feed' : DvbDemuxFeed} (h : feed.type = .DMX_TYPE_SEC) :
    KeepsTypes feed feed' := fun _ ht => DvbDmxFilterType.noConfusion (h.symm.trans ht)

theorem feedAlloc_spec {k : ℕ} (h : dvbDmxFeedAlloc demux = some (k, demux')) :
    (demux.feed k).state = .DMX_STATE_FREE ∧ k < demux.feednum ∧
      demux' = demux.setFeed k { demux.feed k with state := .DMX_STATE_ALLOCATED } := by
  unfold dvbDmxFeedAlloc at h
  split at h
  · cases h
  · rename_i i hfind
    cases h
    exact ⟨by simpa using List.find?_some hfind, List.mem_range.mp (List.mem_of_find?_eq_some hfind),
      rfl⟩

theorem filterAlloc_spec {j : ℕ} (h : dvbDmxFilterAlloc demux = some (j, demux')) :
    demux.filterState j = .DMX_STATE_FREE ∧ j < demux.filternum ∧
      demux' = { demux with filterState := update demux.filterState j .DMX_STATE_ALLOCATED } := by
  unfold dvbDmxFilterAlloc at h
  split at h
  · cases h
  · rename_i i hfind
    cases h
    exact ⟨by simpa using List.find?_some hfind, List.mem_range.mp (List.mem_of_find?_eq_some hfind),
      rfl⟩

/-- A change of a slot that was free. -/
theorem KeepsPes.of_free {k : ℕ} (hfree : (demux.feed k).state = .DMX_STATE_FREE)
    (hfeed : ∀ i ≠ k, demux'.feed i = demux.feed i) (hpes : demux'.pesfilter = demux.pesfilter) :
    KeepsPes demux demux' := by
  refine ⟨fun i => ?_, hpes⟩
  by_cases hik : i = k
  · subst hik
    exact .of_free hfree
  · rw [hfeed i hik]
    exact .refl _

/-- The slot of a new feed was free. -/
theorem keepsPes_allocateTsFeed (demux : DvbDemux) (interrupted : Bool) (overlay : DmxSectionFeed) :
    KeepsPes demux (dvbdmxAllocateTsFeed demux interrupted overlay).2 := by
  unfold dvbdmxAllocateTsFeed
  split_ifs
  · exact .refl _
  · rcases hk : dvbDmxFeedAlloc demux with _ | ⟨k, demux₁⟩
    · exact .refl _
    · obtain ⟨hfree, -, hdemux₁⟩ := feedAlloc_spec hk
      have hpes₁ : demux₁.pesfilter = demux.pesfilter := by rw [hdemux₁]; rfl
      have hfeed₁ : ∀ i ≠ k, demux₁.feed i = demux.feed i := fun i hi => by
        rw [hdemux₁, feed_setFeed_of_ne hi]
      dsimp only
      rcases hj : dvbDmxFilterAlloc demux₁ with _ | ⟨j, demux₂⟩
      · refine .of_free hfree (fun i hi => ?_) hpes₁
        exact (feed_setFeed_of_ne hi _ _).trans (hfeed₁ i hi)
      · obtain ⟨-, -, rfl⟩ := filterAlloc_spec hj
        refine .of_free hfree (fun i hi => ?_) hpes₁
        exact (feed_setFeed_of_ne hi _ _).trans (hfeed₁ i hi)

theorem keepsPes_allocateSectionFeed (demux : DvbDemux) (interrupted : Bool) :
    KeepsPes demux (dvbdmxAllocateSectionFeed demux interrupted).2 := by
  unfold dvbdmxAllocateSectionFeed
  split_ifs
  · exact .refl _
  · rcases hk : dvbDmxFeedAlloc demux with _ | ⟨k, demux₁⟩
    · exact .refl _
    · obtain ⟨hfree, -, rfl⟩ := feedAlloc_spec hk
      refine .of_free hfree (fun i hi => ?_) rfl
      exact (feed_setFeed_of_ne hi _ _).trans (feed_setFeed_of_ne hi _ _)

theorem pesfilter_feedAdd (demux : DvbDemux) (i : ℕ) :
    (dvbDemuxFeedAdd demux i).pesfilter = demux.pesfilter := by
  unfold dvbDemuxFeedAdd
  split_ifs <;> rfl

theorem keepsPes_feedAdd (demux : DvbDemux) (i : ℕ) : KeepsPes demux (dvbDemuxFeedAdd demux i) := by
  refine ⟨fun k => ?_, pesfilter_feedAdd demux i⟩
  rw [feed_feedAdd]
  exact .refl _

/-! ## Calls of the functions of a section feed -/

variable {i : ℕ}

theorem keepsPes_allocateFilter (hsec : (demux.feed i).type = .DMX_TYPE_SEC) (interrupted : Bool) :
    KeepsPes demux (dmxSectionFeedAllocateFilter demux i interrupted).2 := by
  unfold dmxSectionFeedAllocateFilter
  split_ifs
  · exact .refl _
  · rcases hj : dvbDmxFilterAlloc demux with _ | ⟨j, demux₁⟩
    · exact .refl _
    · obtain ⟨-, -, rfl⟩ := filterAlloc_spec hj
      exact (keepsPes_setFeed (.of_sec hsec)).of_eq rfl rfl

theorem keepsPes_sectionFeedSet (hsec : (demux.feed i).type = .DMX_TYPE_SEC) (interrupted : Bool)
    (pid : ℕ) (checkCrc : Bool) :
    KeepsPes demux (dmxSectionFeedSet demux i interrupted pid checkCrc).2 := by
  unfold dmxSectionFeedSet
  split_ifs
  · exact .refl _
  · exact .refl _
  · refine (keepsPes_feedAdd demux i).trans (keepsPes_setFeed (.of_sec ?_))
    rw [feed_feedAdd]
    exact hsec

theorem keepsPes_sectionFeedStart (hsec : (demux.feed i).type = .DMX_TYPE_SEC)
    (interrupted : Bool) (ret : ℤ) :
    KeepsPes demux (dmxSectionFeedStartFiltering demux i interrupted ret).2 := by
  unfold dmxSectionFeedStartFiltering
  dsimp only
  split_ifs
  all_goals first
    | exact .refl _
    | exact keepsPes_setFeed (.of_sec hsec)

theorem keepsPes_sectionFeedStop (hsec : (demux.feed i).type = .DMX_TYPE_SEC) (ret : ℤ) :
    KeepsPes demux (dmxSectionFeedStopFiltering demux i ret).2 := by
  unfold dmxSectionFeedStopFiltering
  split_ifs
  · exact .refl _
  · exact keepsPes_setFeed (.of_sec hsec)

theorem keepsPes_releaseFilter (hsec : (demux.feed i).type = .DMX_TYPE_SEC) {j : ℕ} {ret : ℤ}
    {r : ℤ × DvbDemux} (h : dmxSectionFeedReleaseFilter demux i j ret = some r) :
    KeepsPes demux r.2 := by
  unfold dmxSectionFeedReleaseFilter at h
  have hstop : KeepsPes demux (if (demux.feed i).isFiltering then
      (dmxSectionFeedStopFiltering demux i ret).2 else demux) ∧
      ((if (demux.feed i).isFiltering then
        (dmxSectionFeedStopFiltering demux i ret).2 else demux).feed i).type = .DMX_TYPE_SEC := by
    split_ifs
    · refine ⟨keepsPes_sectionFeedStop hsec ret, ?_⟩
      unfold dmxSectionFeedStopFiltering
      split_ifs
      · exact hsec
      · rw [feed_setFeed_self]
        exact hsec
    · exact ⟨.refl _, hsec⟩
  dsimp only at h
  generalize (if (demux.feed i).isFiltering = true then
    (dmxSectionFeedStopFiltering demux i ret).2 else demux) = demux₁ at h hstop
  split_ifs at h
  · cases h
    exact .refl _
  · split at h
    · cases h
    · cases h
      exact hstop.1.trans ((keepsPes_setFeed (.of_sec hstop.2)).of_eq rfl rfl)

theorem keepsPes_releaseSectionFeed (hsec : (demux.feed i).type = .DMX_TYPE_SEC) :
    KeepsPes demux (dvbdmxReleaseSectionFeed demux i).2 := by
  unfold dvbdmxReleaseSectionFeed
  dsimp only
  split_ifs
  · exact .refl _
  · have hdel : KeepsPes demux (dvbDemuxFeedDel demux i) := ⟨fun _ => .refl _, rfl⟩
    exact hdel.trans (keepsPes_setFeed (.of_sec hsec))

theorem keepsPes_tsFeedStart (demux : DvbDemux) (i : ℕ) (interrupted : Bool) (ret : ℤ) :
    KeepsPes demux (dmxTsFeedStartFiltering demux i interrupted ret).2 := by
  unfold dmxTsFeedStartFiltering
  dsimp only
  split_ifs
  all_goals first
    | exact .refl _
    | exact keepsPes_setFeed fun _ ht => ⟨by rintro ⟨⟩, ht, rfl, rfl⟩

theorem keepsPes_tsFeedStop (demux : DvbDemux) (i : ℕ) (ret : ℤ) :
    KeepsPes demux (dmxTsFeedStopFiltering demux i ret).2 := by
  unfold dmxTsFeedStopFiltering
  dsimp only
  split_ifs
  all_goals first
    | exact .refl _
    | exact keepsPes_setFeed fun _ ht => ⟨by rintro ⟨⟩, ht, rfl, rfl⟩

theorem keepsPes_packet (ops : ℕ → DemuxOps) (tscheck feedErrPkts : Bool) (demux : DvbDemux)
    (buf : TsPacket) : KeepsPes demux (dvbDmxSwfilterPacket ops tscheck feedErrPkts demux buf) := by
  obtain ⟨hfeed, -, hpes⟩ := sameControl_packet ops tscheck feedErrPkts demux buf
  refine ⟨fun k hs ht => ?_, hpes⟩
  have hk := hfeed k
  exact ⟨by rw [hk.state]; exact hs, hk.type.trans ht, hk.tsType, hk.pesType⟩

/-! ## Setting a feed -/

theorem tsFeedSet_ok {interrupted : Bool} {pid tsType pesType : ℕ}
    (h : TsFeedSetOk demux i interrupted pid tsType pesType) :
    ∃ demux', dmxTsFeedSet demux i interrupted pid tsType pesType = (0, demux') ∧
      demux'.pesfilter = (if tsDecoderBit tsType then update demux.pesfilter pesType (some i)
        else demux.pesfilter) ∧
      demux'.feed i = { demux.feed i with pid, tsType, pesType, state := .DMX_STATE_READY } ∧
      (∀ k ≠ i, demux'.feed k = demux.feed k) ∧ demux'.startFeed = demux.startFeed ∧
      demux'.filterState = demux.filterState ∧ demux'.filterMem = demux.filterMem := by
  obtain ⟨hpid, hint, hdec⟩ := h
  have hany : ¬ (tsDecoderBit tsType ∧ (demux.pesfilter pesType).any (· ≠ i)) := by
    rintro ⟨hd, hany⟩
    rcases hj : demux.pesfilter pesType with _ | j
    · rw [hj] at hany
      cases hany
    · rw [hj, (hdec hd).2 j hj] at hany
      simp at hany
  unfold dmxTsFeedSet
  rw [if_neg (Nat.not_lt.mpr hpid), if_neg (by rw [hint]; decide),
    if_neg (fun h => absurd (hdec h.1).1 (Nat.not_lt.mpr h.2)), if_neg hany]
  have hadd : ∀ demux' : DvbDemux, (dvbDemuxFeedAdd demux' i).startFeed = demux'.startFeed ∧
      (dvbDemuxFeedAdd demux' i).filterState = demux'.filterState ∧
      (dvbDemuxFeedAdd demux' i).filterMem = demux'.filterMem := by
    intro demux'
    unfold dvbDemuxFeedAdd
    split_ifs <;> exact ⟨rfl, rfl, rfl⟩
  refine ⟨_, rfl, ?_, ?_, fun k hk => ?_, ?_⟩
  · rw [DvbDemux.setFeed]
    dsimp only
    rw [pesfilter_feedAdd]
    split_ifs <;> rfl
  · rw [feed_setFeed_self, feed_feedAdd]
    split_ifs <;> rfl
  · rw [feed_setFeed_of_ne hk, feed_feedAdd]
    split_ifs <;> rfl
  · split_ifs
    · exact hadd _
    · exact hadd _

theorem tsFeedSet_not_ok {interrupted : Bool} {pid tsType pesType : ℕ}
    (h : ¬ TsFeedSetOk demux i interrupted pid tsType pesType) :
    ∃ ret < 0, dmxTsFeedSet demux i interrupted pid tsType pesType = (ret, demux) := by
  unfold dmxTsFeedSet
  split_ifs with hpid hint hother hany
  · exact ⟨_, (by decide : -EINVAL < 0), rfl⟩
  · exact ⟨_, (by decide : -ERESTARTSYS < 0), rfl⟩
  · exact ⟨_, (by decide : -EINVAL < 0), rfl⟩
  · exact ⟨_, (by decide : -EINVAL < 0), rfl⟩
  all_goals
    refine absurd ⟨Nat.not_lt.mp hpid, (Bool.not_eq_true _).mp hint, fun hd => ⟨?_, fun j hj => ?_⟩⟩ h
    · exact Nat.not_le.mp fun hle => hother ⟨hd, hle⟩
    · by_contra hne
      exact hany ⟨hd, by rw [hj]; simpa using hne⟩

/-- Setting a feed keeps the slots, if and only if it does not take the feed off a slot. -/
theorem owned_tsFeedSet {interrupted : Bool} {pid tsType pesType : ℕ} {r : ℤ × DvbDemux}
    (hrec : Recorded demux last) (ho : Owned demux last)
    (h : step demux (.tsFeedSet i interrupted pid tsType pesType) = some r) :
    Recorded r.2 (noteSet demux last (.tsFeedSet i interrupted pid tsType pesType) r.1) ∧
      (Owned r.2 (noteSet demux last (.tsFeedSet i interrupted pid tsType pesType) r.1) ↔
        Tidy demux last (.tsFeedSet i interrupted pid tsType pesType)) := by
  change asType demux _ i (some (dmxTsFeedSet demux i interrupted pid tsType pesType)) = some r at h
  unfold asType at h
  split_ifs at h with htype
  obtain rfl := Option.some.inj h
  by_cases hok : TsFeedSetOk demux i interrupted pid tsType pesType
  · obtain ⟨demux', hset, hpes', hfeed', hother', -⟩ := tsFeedSet_ok hok
    have hnote : noteSet demux last (.tsFeedSet i interrupted pid tsType pesType) 0 =
        update last i (some (tsType, pesType)) := rfl
    rw [hset]
    dsimp only
    rw [hnote]
    have hrec' : Recorded demux' (update last i (some (tsType, pesType))) := by
      intro k ts pes hlast
      by_cases hki : k = i
      · subst hki
        rw [update_self] at hlast
        cases hlast
        rw [hfeed']
        exact ⟨by rintro ⟨⟩, htype.2, rfl, rfl, fun hd => (hok.2.2 hd).1⟩
      · rw [update_of_ne hki] at hlast
        rw [hother' k hki]
        exact hrec k ts pes hlast
    refine ⟨hrec', ?_⟩
    rw [owned_iff_of_recorded hrec] at ho
    rw [owned_iff_of_recorded hrec', hpes']
    constructor
    · -- the old entry is still there, so it is the new one
      intro ho' _ ts₀ pes₀ hlast hd₀
      have hown := (ho pes₀ i).mpr ⟨ts₀, hlast, hd₀⟩
      have hown' : (if tsDecoderBit tsType then update demux.pesfilter pesType (some i)
          else demux.pesfilter) pes₀ = some i := by
        split_ifs
        · by_cases hp : pes₀ = pesType
          · rw [hp, update_self]
          · rw [update_of_ne hp, hown]
        · exact hown
      obtain ⟨ts, hts, hd⟩ := (ho' pes₀ i).mp hown'
      rw [update_self] at hts
      cases hts
      exact ⟨hd, rfl⟩
    · intro htidy t k
      by_cases hki : k = i
      · subst hki
        rw [update_self]
        constructor
        · intro hown
          split_ifs at hown with hd
          · by_cases ht : t = pesType
            · exact ⟨tsType, by rw [ht], hd⟩
            · rw [update_of_ne ht] at hown
              obtain ⟨ts₀, hlast, hd₀⟩ := (ho t k).mp hown
              exact absurd (htidy hok ts₀ t hlast hd₀).2.symm ht
          · obtain ⟨ts₀, hlast, hd₀⟩ := (ho t k).mp hown
            exact absurd (htidy hok ts₀ t hlast hd₀).1 hd
        · rintro ⟨ts, hts, hd⟩
          cases hts
          rw [if_pos hd, update_self]
      · rw [update_of_ne hki, ← ho t k]
        split_ifs with hd
        · by_cases ht : t = pesType
          · subst ht
            rw [update_self]
            exact iff_of_false (fun h => hki (Option.some.inj h).symm)
              fun hown => hki ((hok.2.2 hd).2 k hown)
          · rw [update_of_ne ht]
        · exact Iff.rfl
  · obtain ⟨ret, hret, hset⟩ := tsFeedSet_not_ok hok
    have hnote : noteSet demux last (.tsFeedSet i interrupted pid tsType pesType) ret = last :=
      if_pos (Int.ne_of_lt hret)
    rw [hset]
    dsimp only
    rw [hnote]
    exact ⟨hrec, iff_of_true ho fun h => absurd h hok⟩

/-! ## Releasing a feed -/

theorem releaseTsFeed_spec (h : (demux.feed i).state ≠ .DMX_STATE_FREE) :
    ∃ demux', dvbdmxReleaseTsFeed demux i = (0, demux') ∧
      demux'.pesfilter =
        (if tsDecoderBit (demux.feed i).tsType ∧ (demux.feed i).pesType < DMX_PES_OTHER then
          update demux.pesfilter (demux.feed i).pesType none
        else demux.pesfilter) ∧
      ∀ k ≠ i, demux'.feed k = demux.feed k := by
  have hdel : ∀ k ≠ i, ((dvbDemuxFeedDel (freeTsFilter demux (demux.feed i)) i).setFeed i
      { demux.feed i with state := .DMX_STATE_FREE, pid := 0xffff }).feed k = demux.feed k := by
    intro k hk
    rw [feed_setFeed_of_ne hk]
    exact congrFun (feed_freeTsFilter demux (demux.feed i)) k
  have hpes : (freeTsFilter demux (demux.feed i)).pesfilter = demux.pesfilter := by
    unfold freeTsFilter
    split <;> rfl
  unfold dvbdmxReleaseTsFeed
  dsimp only
  rw [if_neg h]
  split_ifs
  · refine ⟨_, rfl, ?_, hdel⟩
    exact congrArg (update · (demux.feed i).pesType none) hpes
  · exact ⟨_, rfl, hpes, hdel⟩

/-- Releasing a feed keeps the slots and spares those of other feeds, if and only if the feed has
been set or what it would clear is not taken. -/
theorem owned_releaseTsFeed {r : ℤ × DvbDemux} (hrec : Recorded demux last) (ho : Owned demux last)
    (h : step demux (.releaseTsFeed i) = some r) :
    Recorded r.2 (noteSet demux last (.releaseTsFeed i) r.1) ∧
      (Owned r.2 (noteSet demux last (.releaseTsFeed i) r.1) ∧
        SparesOthers demux (.releaseTsFeed i) r.2 ↔ Tidy demux last (.releaseTsFeed i)) := by
  change asType demux _ i (some (dvbdmxReleaseTsFeed demux i)) = some r at h
  unfold asType at h
  split_ifs at h with htype
  obtain rfl := Option.some.inj h
  by_cases hfree : (demux.feed i).state = .DMX_STATE_FREE
  · have hrel : dvbdmxReleaseTsFeed demux i = (-EINVAL, demux) := by
      unfold dvbdmxReleaseTsFeed
      dsimp only
      rw [if_pos hfree]
    have hnote : noteSet demux last (.releaseTsFeed i) (-EINVAL) = last := if_pos (by decide)
    rw [hrel]
    dsimp only
    rw [hnote]
    exact ⟨hrec, iff_of_true ⟨ho, fun _ _ _ hj => hj⟩ fun hs => absurd hfree hs⟩
  · obtain ⟨demux', hrel, hpes', hother'⟩ := releaseTsFeed_spec hfree
    have hnote : noteSet demux last (.releaseTsFeed i) 0 = update last i none := rfl
    rw [hrel]
    dsimp only
    rw [hnote]
    have hrec' : Recorded demux' (update last i none) := by
      intro k ts pes hlast
      by_cases hki : k = i
      · subst hki
        rw [update_self] at hlast
        cases hlast
      · rw [update_of_ne hki] at hlast
        rw [hother' k hki]
        exact hrec k ts pes hlast
    refine ⟨hrec', ?_⟩
    rw [owned_iff_of_recorded hrec] at ho
    rw [owned_iff_of_recorded hrec', hpes']
    -- the entries of the other feeds, where those of feed `i` are gone
    have hrest : ∀ t k, (k = i → demux.pesfilter t ≠ some i) →
        (demux.pesfilter t = some k ↔
          ∃ ts, update last i none k = some (ts, t) ∧ tsDecoderBit ts) := by
      intro t k hk
      by_cases hki : k = i
      · subst hki
        rw [update_self]
        refine iff_of_false (hk rfl) ?_
        rintro ⟨_, ⟨⟩, -⟩
      · rw [update_of_ne hki]
        exact ho t k
    rcases hlast : last i with _ | ⟨ts₀, pes₀⟩
    · have hnot : ∀ t, demux.pesfilter t ≠ some i := by
        intro t hown
        obtain ⟨ts, hts, -⟩ := (ho t i).mp hown
        rw [hlast] at hts
        cases hts
      by_cases hstale : tsDecoderBit (demux.feed i).tsType ∧
          (demux.feed i).pesType < DMX_PES_OTHER
      · rw [if_pos hstale]
        constructor
        · rintro ⟨ho', hspare⟩ - - - -
          by_contra htaken
          obtain ⟨j, hj⟩ := Option.ne_none_iff_exists'.mp htaken
          have hne : j ≠ i := fun hji => hnot _ (by rw [hj, hji])
          have hgone := hspare _ j hne hj
          rw [hpes', if_pos hstale, update_self] at hgone
          cases hgone
        · intro htidy
          have hsame : update demux.pesfilter (demux.feed i).pesType none = demux.pesfilter := by
            rw [← htidy hfree hlast hstale.1 hstale.2, update_eq_self]
          rw [hsame]
          refine ⟨fun t k => hrest t k fun _ => hnot t, fun t j _ hj => ?_⟩
          rw [hpes', if_pos hstale, hsame, hj]
      · rw [if_neg hstale]
        refine iff_of_true ⟨fun t k => hrest t k fun _ => hnot t, fun t j _ hj => ?_⟩
          fun _ _ hd hlt => absurd ⟨hd, hlt⟩ hstale
        rw [hpes', if_neg hstale, hj]
    · obtain ⟨-, -, hts, hpes, hlt⟩ := hrec i ts₀ pes₀ hlast
      refine iff_of_true ?_ fun _ hnone => by rw [hlast] at hnone; cases hnone
      rw [SparesOthers, hpes', hts, hpes]
      by_cases hd : tsDecoderBit ts₀ = true
      · have hown := (ho pes₀ i).mpr ⟨ts₀, hlast, hd⟩
        rw [if_pos ⟨hd, hlt hd⟩]
        constructor
        · intro t k
          by_cases ht : t = pes₀
          · subst ht
            rw [update_self]
            refine iff_of_false (fun h => by cases h) ?_
            rintro ⟨ts, hts', hd'⟩
            by_cases hki : k = i
            · subst hki
              rw [update_self] at hts'
              cases hts'
            · rw [update_of_ne hki] at hts'
              have hk := (ho t k).mpr ⟨ts, hts', hd'⟩
              exact hki (Option.some.inj (hk.symm.trans hown))
          · rw [update_of_ne ht]
            refine hrest t k fun _ hi => ht ?_
            obtain ⟨ts, hts', -⟩ := (ho t i).mp hi
            rw [hlast] at hts'
            cases hts'
            rfl
        · intro t j hj hjt
          have ht : t ≠ pes₀ := by
            rintro rfl
            exact hj (Option.some.inj (hjt.symm.trans hown))
          rw [update_of_ne ht, hjt]
      · rw [if_neg fun h => hd h.1]
        refine ⟨fun t k => hrest t k fun _ hi => ?_, fun _ _ _ hjt => hjt⟩
        obtain ⟨ts, hts', hd'⟩ := (ho t i).mp hi
        rw [hlast] at hts'
        cases hts'
        exact hd hd'

/-! ## Runs -/

/-- **One event.**  The entries stay those of their owners, if and only if the event is tidy. -/
theorem owned_step {e : DemuxEvent} {r : ℤ × DvbDemux} (hrec : Recorded demux last)
    (ho : Owned demux last) (h : step demux e = some r) :
    Recorded r.2 (noteSet demux last e r.1) ∧
      (Owned r.2 (noteSet demux last e r.1) ∧ SparesOthers demux e r.2 ↔ Tidy demux last e) := by
  have htype : ∀ {type i r'}, asType demux type i r' = some r →
      (demux.feed i).type = type ∧ r' = some r := by
    intro type i r' h
    unfold asType at h
    split_ifs at h with ht
    exact ⟨ht.2, h⟩
  have hkeep : KeepsPes demux r.2 → noteSet demux last e r.1 = last →
      SparesOthers demux e r.2 → Tidy demux last e →
      Recorded r.2 (noteSet demux last e r.1) ∧
        (Owned r.2 (noteSet demux last e r.1) ∧ SparesOthers demux e r.2 ↔ Tidy demux last e) := by
    intro hpes hnote hspare htidy
    rw [hnote]
    exact ⟨hpes.recorded hrec, iff_of_true ⟨hpes.owned hrec ho, hspare⟩ htidy⟩
  cases e with
  | allocateTsFeed interrupted overlay =>
    cases h
    refine hkeep (keepsPes_allocateTsFeed demux interrupted overlay) ?_ trivial trivial
    unfold noteSet
    split_ifs
    · rfl
    · dsimp only
      split
      · rfl
      · rename_i k _ hk
        -- a free slot has not been set
        have hnone : last k = none := by
          by_contra hne
          obtain ⟨⟨ts, pes⟩, hlast⟩ := Option.ne_none_iff_exists'.mp hne
          exact (hrec k ts pes hlast).1 (feedAlloc_spec hk).1
        rw [← hnone, update_eq_self]
  | tsFeedSet i interrupted pid tsType pesType =>
    obtain ⟨hrec', hiff⟩ := owned_tsFeedSet hrec ho h
    exact ⟨hrec', (and_iff_left trivial).trans hiff⟩
  | tsFeedStart i interrupted ret =>
    obtain ⟨-, hr⟩ := htype h
    obtain rfl := Option.some.inj hr
    exact hkeep (keepsPes_tsFeedStart demux i interrupted ret) (ite_self _) trivial trivial
  | tsFeedStop i ret =>
    obtain ⟨-, hr⟩ := htype h
    obtain rfl := Option.some.inj hr
    exact hkeep (keepsPes_tsFeedStop demux i ret) (ite_self _) trivial trivial
  | releaseTsFeed i => exact owned_releaseTsFeed hrec ho h
  | allocateSectionFeed interrupted =>
    cases h
    exact hkeep (keepsPes_allocateSectionFeed demux interrupted) (ite_self _) trivial trivial
  | allocateFilter i interrupted =>
    obtain ⟨hsec, hr⟩ := htype h
    obtain rfl := Option.some.inj hr
    exact hkeep (keepsPes_allocateFilter hsec interrupted) (ite_self _) trivial trivial
  | fillFilter i j filter =>
    obtain ⟨hsec, hr⟩ := htype h
    obtain rfl := Option.some.inj hr
    exact hkeep (keepsPes_setFeed (.of_sec hsec)) (ite_self _) trivial trivial
  | sectionFeedSet i interrupted pid checkCrc =>
    obtain ⟨hsec, hr⟩ := htype h
    obtain rfl := Option.some.inj hr
    exact hkeep (keepsPes_sectionFeedSet hsec interrupted pid checkCrc) (ite_self _) trivial trivial
  | sectionFeedStart i interrupted ret =>
    obtain ⟨hsec, hr⟩ := htype h
    obtain rfl := Option.some.inj hr
    exact hkeep (keepsPes_sectionFeedStart hsec interrupted ret) (ite_self _) trivial trivial
  | sectionFeedStop i ret =>
    obtain ⟨hsec, hr⟩ := htype h
    obtain rfl := Option.some.inj hr
    exact hkeep (keepsPes_sectionFeedStop hsec ret) (ite_self _) trivial trivial
  | releaseFilter i j ret =>
    obtain ⟨hsec, hr⟩ := htype h
    exact hkeep (keepsPes_releaseFilter hsec hr) (ite_self _) trivial trivial
  | releaseSectionFeed i =>
    obtain ⟨hsec, hr⟩ := htype h
    obtain rfl := Option.some.inj hr
    exact hkeep (keepsPes_releaseSectionFeed hsec) (ite_self _) trivial trivial
  | packet ops tscheck feedErrPkts buf =>
    cases h
    exact hkeep (keepsPes_packet ops tscheck feedErrPkts demux buf) (ite_self _) trivial trivial

/-- After the event every entry of `pesfilter` is its owner's, and the event has spared the others. -/
def KeepsOwned (demux : DvbDemux) (_ : LastSet) (e : DemuxEvent) (demux' : DvbDemux)
    (last' : LastSet) : Prop :=
  Owned demux' last' ∧ SparesOthers demux e demux'

theorem keepsOwned_iff (es : List DemuxEvent) (hrec : Recorded demux last) (ho : Owned demux last) :
    ThroughoutSets KeepsOwned demux last es ↔
      ThroughoutSets (fun demux last e _ _ => Tidy demux last e) demux last es := by
  induction es generalizing demux last with
  | nil => exact Iff.rfl
  | cons e es ih =>
    refine forall₂_congr fun r hr => ?_
    obtain ⟨hrec', hiff⟩ := owned_step hrec ho hr
    exact (and_congr_right fun hown => ih hrec' hown.1).trans (and_congr_left fun _ => hiff)

/-- **The decoder slots belong to their feeds.**  In a run of any events on a new demux, whatever its
memory holds, each entry of `pesfilter` points exactly to the allocated feed that was last set for
it, and no release clears the entry of another feed, if and only if all events are tidy. -/
theorem owned_iff (filternum feednum : ℕ) (startFeed stopFeed : Bool)
    (filterMem : ℕ → DvbDemuxFilter) (feed : ℕ → DvbDemuxFeed) (filterFeed : ℕ → ℕ)
    (cntStorage : Option (ℕ → ℕ)) (es : List DemuxEvent) :
    let demux := dvbDmxInit filternum feednum startFeed stopFeed filterMem feed filterFeed cntStorage
    ThroughoutSets KeepsOwned demux (fun _ => none) es ↔
      ThroughoutSets (fun demux last e _ _ => Tidy demux last e) demux (fun _ => none) es := by
  refine keepsOwned_iff es (fun _ _ _ h => ?_) fun t i => iff_of_false ?_ ?_
  · cases h
  · rintro ⟨⟩
  · rintro ⟨-, _, ⟨⟩, -⟩

/-- A demux with two feeds and two filters. -/
def twoFeeds : DvbDemux :=
  dvbDmxInit 2 2 true true
    (fun _ => ⟨⟨fun _ => 0, fun _ => 0, fun _ => 0⟩, fun _ => 0, fun _ => 0, false, 0⟩)
    (fun _ => plainSlot false) (fun _ => 0) none

/-- A feed for video is released and its slot given to somebody else, who has not set it when
another feed for video is set. -/
def takeSlot : List DemuxEvent :=
  [.allocateTsFeed false (plainSlot false).sec, .tsFeedSet 0 false 0x100 4 1, .releaseTsFeed 0,
    .allocateTsFeed false (plainSlot false).sec, .allocateTsFeed false (plainSlot false).sec,
    .tsFeedSet 1 false 0x100 4 1, .releaseTsFeed 0]

/-- The slot of the other feed is cleared. -/
theorem not_owned_takeSlot :
    ¬ ∀ es : List DemuxEvent, ThroughoutSets KeepsOwned twoFeeds (fun _ => none) es := by
  intro h
  obtain ⟨-, h₁⟩ := h takeSlot _ rfl
  obtain ⟨-, h₂⟩ := h₁ _ rfl
  obtain ⟨-, h₃⟩ := h₂ _ rfl
  obtain ⟨-, h₄⟩ := h₃ _ rfl
  obtain ⟨-, h₅⟩ := h₄ _ rfl
  obtain ⟨-, h₆⟩ := h₅ _ rfl
  obtain ⟨⟨-, hspare⟩, -⟩ := h₆ _ rfl
  have hcleared := hspare 1 1 (by decide) (by decide +kernel)
  revert hcleared
  decide +kernel

end Demux
end TbsMedia
