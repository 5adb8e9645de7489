import TbsMedia.DvbDemux.PesFilter
import TbsMedia.Dmxdev.Dmxdev

/-!
# What the functions of the feeds do to their slots

Each function of a feed changes the slot of this feed and, of the pool of section filters, the
entries of its filters.  An allocation takes the first free slot of its pool.
-/

namespace TbsMedia
namespace DemuxDev

open Function
open Demux

variable {demux demux' : DvbDemux} {i : ℕ}

/-! ## The pools -/

/-- The feed that `dvb_dmx_feed_alloc` would take. -/
def freeFeed (demux : DvbDemux) : Option ℕ :=
  (List.range demux.feednum).find? fun i => (demux.feed i).state = .DMX_STATE_FREE

theorem feedAlloc_eq (demux : DvbDemux) : dvbDmxFeedAlloc demux = (freeFeed demux).map fun i =>
    (i, demux.setFeed i { demux.feed i with state := .DMX_STATE_ALLOCATED }) := by
  unfold dvbDmxFeedAlloc freeFeed
  split
  · rename_i h
    rw [h]
    rfl
  · rename_i i h
    rw [h]
    rfl

/-- Each filter in the pool knows its index. -/
def Indexed (demux : DvbDemux) : Prop := ∀ j, (demux.filterMem j).index = j

/-! ## One slot -/

/-- Only the feed in slot `i` has changed, and of the filters those that go back to the pool. -/
structure OnlySlot (i : ℕ) (demux demux' : DvbDemux) : Prop where
  feed : ∀ i' ≠ i, demux'.feed i' = demux.feed i'
  indexed : Indexed demux → Indexed demux'
  startFeed : demux'.startFeed = demux.startFeed
  stopFeed : demux'.stopFeed = demux.stopFeed

theorem OnlySlot.refl (i : ℕ) (demux : DvbDemux) : OnlySlot i demux demux :=
  ⟨fun _ _ => rfl, fun h => h, rfl, rfl⟩

theorem OnlySlot.trans {a b c : DvbDemux} (h : OnlySlot i a b) (h' : OnlySlot i b c) :
    OnlySlot i a c :=
  ⟨fun i' hi => (h'.feed i' hi).trans (h.feed i' hi), fun hidx => h'.indexed (h.indexed hidx),
    h'.startFeed.trans h.startFeed, h'.stopFeed.trans h.stopFeed⟩

theorem only_setFeed (demux : DvbDemux) (i : ℕ) (feed : DvbDemuxFeed) :
    OnlySlot i demux (demux.setFeed i feed) :=
  ⟨fun _ hi => feed_setFeed_of_ne hi demux feed, fun h => h, rfl, rfl⟩

theorem only_feedAdd (demux : DvbDemux) (i : ℕ) : OnlySlot i demux (dvbDemuxFeedAdd demux i) := by
  unfold dvbDemuxFeedAdd
  split_ifs
  · exact .refl i demux
  · exact ⟨fun _ _ => rfl, fun h => h, rfl, rfl⟩

theorem only_tsFeedStart (demux : DvbDemux) (i : ℕ) (interrupted : Bool) (ret : ℤ) :
    OnlySlot i demux (dmxTsFeedStartFiltering demux i interrupted ret).2 := by
  unfold dmxTsFeedStartFiltering
  dsimp only
  split_ifs
  all_goals first
    | exact .refl i demux
    | exact only_setFeed demux i _

theorem only_tsFeedStop (demux : DvbDemux) (i : ℕ) (ret : ℤ) :
    OnlySlot i demux (dmxTsFeedStopFiltering demux i ret).2 := by
  unfold dmxTsFeedStopFiltering
  dsimp only
  split_ifs
  all_goals first
    | exact .refl i demux
    | exact only_setFeed demux i _

/-- A filter goes back to the pool at its index. -/
theorem indexed_update {j : ℕ} {f : DvbDemuxFilter} (hidx : Indexed demux) (hf : f.index = j) :
    ∀ j', (update demux.filterMem j f j').index = j' := by
  intro j'
  by_cases hj : j' = j
  · subst hj
    rw [update_self, hf]
  · rw [update_of_ne hj]
    exact hidx j'

theorem only_releaseTsFeed (demux : DvbDemux) (i : ℕ) :
    OnlySlot i demux (dvbdmxReleaseTsFeed demux i).2 := by
  have hfree : OnlySlot i demux (freeTsFilter demux (demux.feed i)) := by
    unfold freeTsFilter
    split
    · exact .refl i demux
    · exact ⟨fun _ _ => rfl, fun hidx => indexed_update hidx rfl, rfl, rfl⟩
  have hset : OnlySlot i demux ((dvbDemuxFeedDel (freeTsFilter demux (demux.feed i)) i).setFeed i
      { demux.feed i with state := .DMX_STATE_FREE, pid := 0xffff }) := by
    refine OnlySlot.trans ?_ (only_setFeed _ i _)
    exact ⟨hfree.feed, hfree.indexed, hfree.startFeed, hfree.stopFeed⟩
  unfold dvbdmxReleaseTsFeed
  dsimp only
  split_ifs
  · exact .refl i demux
  · exact ⟨hset.feed, hset.indexed, hset.startFeed, hset.stopFeed⟩
  · exact hset

theorem only_sectionFeedSet (demux : DvbDemux) (i : ℕ) (interrupted : Bool) (pid : ℕ)
    (checkCrc : Bool) : OnlySlot i demux (dmxSectionFeedSet demux i interrupted pid checkCrc).2 := by
  unfold dmxSectionFeedSet
  split_ifs
  · exact .refl i demux
  · exact .refl i demux
  · exact (only_feedAdd demux i).trans (only_setFeed _ i _)

theorem only_sectionFeedStart (demux : DvbDemux) (i : ℕ) (interrupted : Bool) (ret : ℤ) :
    OnlySlot i demux (dmxSectionFeedStartFiltering demux i interrupted ret).2 := by
  unfold dmxSectionFeedStartFiltering
  dsimp only
  split_ifs
  all_goals first
    | exact .refl i demux
    | exact only_setFeed demux i _

theorem only_sectionFeedStop (demux : DvbDemux) (i : ℕ) (ret : ℤ) :
    OnlySlot i demux (dmxSectionFeedStopFiltering demux i ret).2 := by
  unfold dmxSectionFeedStopFiltering
  split_ifs
  · exact .refl i demux
  · exact only_setFeed demux i _

theorem only_releaseFilter {j : ℕ} {ret : ℤ} {r : ℤ × DvbDemux}
    (h : dmxSectionFeedReleaseFilter demux i j ret = some r) : OnlySlot i demux r.2 := by
  unfold dmxSectionFeedReleaseFilter at h
  have hstop : OnlySlot i demux (if (demux.feed i).isFiltering then
      (dmxSectionFeedStopFiltering demux i ret).2 else demux) := by
    split_ifs
    · exact only_sectionFeedStop demux i ret
    · exact .refl i demux
  dsimp only at h
  generalize (if (demux.feed i).isFiltering = true then
    (dmxSectionFeedStopFiltering demux i ret).2 else demux) = demux₁ at h hstop
  split_ifs at h
  · cases h
    exact .refl i demux
  · split at h
    · cases h
    · rename_i f hf
      cases h
      refine hstop.trans ?_
      have hset := only_setFeed demux₁ i { demux₁.feed i with
        filter := (demux₁.feed i).filter.eraseP fun f => f.index = j }
      exact ⟨hset.feed, fun hidx => indexed_update hidx (by simpa using List.find?_some hf), rfl, rfl⟩

theorem only_releaseSectionFeed (demux : DvbDemux) (i : ℕ) :
    OnlySlot i demux (dvbdmxReleaseSectionFeed demux i).2 := by
  unfold dvbdmxReleaseSectionFeed
  dsimp only
  split_ifs
  · exact .refl i demux
  · have hdel : OnlySlot i demux (dvbDemuxFeedDel demux i) :=
      ⟨fun _ _ => rfl, fun h => h, rfl, rfl⟩
    exact hdel.trans (only_setFeed _ i _)

end DemuxDev
end TbsMedia
