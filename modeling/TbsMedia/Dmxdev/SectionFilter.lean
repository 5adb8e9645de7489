import Mathlib
import TbsMedia.DvbDemux.DemuxRun
import TbsMedia.DvbDemux.SectionMatch
import TbsMedia.Dmxdev.Slots

/-!
# What a section filter selects

A client of the demux device gives values, masks and modes of 16 bytes.  `dvb_dmxdev_filter_set` inverts
the modes, `dvb_dmxdev_filter_start` leaves a gap for the length of the section, and `prepare_secfilters`
makes two masks.

* `setAndStart`: a filter is set and started.
* `SetUp`: the filter is on a feed of the demux.
* `Selects`: the sections that the client asks for.
* `section_delivered_iff`: these are the sections that the client gets.
-/

namespace TbsMedia
namespace DemuxDev

open Lib Function
open Demux

variable {dev dev' : Dmxdev} {k i : ℕ} {ans : StartAnswers} {answers : ℕ → StartAnswer} {r : ℤ × Dmxdev}

/-! ## The pool -/

theorem indexed_stopTsFeeds {feeds : List DmxdevFeed} (hidx : Indexed dev.demux)
    (h : stopTsFeeds dev feeds = some dev') : Indexed dev'.demux := by
  induction feeds generalizing dev with
  | nil =>
    rw [← Option.some.inj h]
    exact hidx
  | cons feed feeds ih =>
    rw [stopTsFeeds] at h
    rcases hts : feed.ts with - | i
    · rw [hts] at h
      exact absurd h.symm (Option.some_ne_none _)
    · rw [hts] at h
      exact ih ((only_tsFeedStop dev.demux i 0).indexed hidx) h

theorem indexed_feedStop (hidx : Indexed dev.demux) (h : dvbDmxdevFeedStop dev k = some r) :
    Indexed r.2.demux := by
  unfold dvbDmxdevFeedStop at h
  dsimp only at h
  split at h
  · split at h
    · exact absurd h.symm (Option.some_ne_none _)
    · rw [← Option.some.inj h]
      exact (only_sectionFeedStop ..).indexed hidx
  · obtain ⟨dev₁, hstop, rfl⟩ := Option.map_eq_some_iff.mp h
    have hstopped := @indexed_stopTsFeeds (dvbDmxdevFilterStateSet dev k .DMXDEV_STATE_SET) _ _ hidx hstop
    exact hstopped
  · rw [← Option.some.inj h]
    exact hidx

theorem indexed_startTsFeeds {n : ℕ} {feeds : List DmxdevFeed} (hidx : Indexed dev.demux)
    (h : startTsFeeds answers dev k n feeds = some r) : Indexed r.2.demux := by
  induction feeds generalizing dev n with
  | nil =>
    rw [← Option.some.inj h]
    exact hidx
  | cons feed feeds ih =>
    rw [startTsFeeds] at h
    rcases hts : feed.ts with - | i
    · rw [hts] at h
      exact absurd h.symm (Option.some_ne_none _)
    · rw [hts] at h
      have hstart := (only_tsFeedStart dev.demux i (answers n).interrupted (answers n).ret).indexed hidx
      dsimp only at h
      split_ifs at h
      · obtain ⟨s, hstop, rfl⟩ := Option.map_eq_some_iff.mp h
        have hstopped := @indexed_feedStop { dev with
          demux := (dmxTsFeedStartFiltering dev.demux i (answers n).interrupted (answers n).ret).2 } _ _ hstart hstop
        exact hstopped
      · exact ih hstart h

theorem indexed_feedStart (hidx : Indexed dev.demux) (h : dvbDmxdevFeedStart answers dev k = some r) :
    Indexed r.2.demux := by
  unfold dvbDmxdevFeedStart at h
  dsimp only at h
  split at h
  · split at h
    · exact absurd h.symm (Option.some_ne_none _)
    · rw [← Option.some.inj h]
      exact (only_sectionFeedStart ..).indexed hidx
  · exact @indexed_startTsFeeds (dvbDmxdevFilterStateSet dev k .DMXDEV_STATE_GO) _ _ _ _ _ hidx h
  · rw [← Option.some.inj h]
    exact hidx

theorem indexed_feedRestart (hidx : Indexed dev.demux) (h : dvbDmxdevFeedRestart answers dev k = some dev') :
    Indexed dev'.demux := by
  unfold dvbDmxdevFeedRestart at h
  split at h
  · obtain ⟨r, hstart, rfl⟩ := Option.map_eq_some_iff.mp h
    exact indexed_feedStart hidx hstart
  · split at h
    · exact absurd h.symm (Option.some_ne_none _)
    · rw [← Option.some.inj h]
      exact (only_releaseSectionFeed ..).indexed hidx

theorem indexed_releaseSecFilter (hidx : Indexed dev.demux) (h : releaseSecFilter dev k i = some dev') :
    Indexed dev'.demux := by
  unfold releaseSecFilter at h
  split at h
  · rw [← Option.some.inj h]
    exact hidx
  · obtain ⟨s, hrelease, rfl⟩ := Option.map_eq_some_iff.mp h
    exact (only_releaseFilter hrelease).indexed hidx

theorem indexed_releaseTsFeeds {feeds : List DmxdevFeed} (hidx : Indexed dev.demux)
    (h : releaseTsFeeds dev feeds = some dev') : Indexed dev'.demux := by
  induction feeds generalizing dev with
  | nil =>
    rw [← Option.some.inj h]
    exact hidx
  | cons feed feeds ih =>
    rw [releaseTsFeeds] at h
    rcases hts : feed.ts with - | i
    · rw [hts] at h
      exact absurd h.symm (Option.some_ne_none _)
    · rw [hts] at h
      exact ih ((only_releaseTsFeed dev.demux i).indexed hidx) h

/-- A stop keeps the pool in order. -/
theorem indexed_filterStop (hidx : Indexed dev.demux) (h : dvbDmxdevFilterStop answers dev k = some r) :
    Indexed r.2.demux := by
  unfold dvbDmxdevFilterStop at h
  split_ifs at h
  · rw [← Option.some.inj h]
    exact hidx
  · split at h
    · split at h
      · rw [← Option.some.inj h]
        exact hidx
      · obtain ⟨r₁, hstop, h⟩ := Option.bind_eq_some_iff.mp h
        obtain ⟨dev₂, hrelease, h⟩ := Option.bind_eq_some_iff.mp h
        obtain ⟨dev₃, hrestart, h⟩ := Option.bind_eq_some_iff.mp h
        rw [← Option.some.inj h]
        have hrestarted := indexed_feedRestart (indexed_releaseSecFilter (indexed_feedStop hidx hstop) hrelease) hrestart
        exact hrestarted
    · obtain ⟨r₁, hstop, h⟩ := Option.bind_eq_some_iff.mp h
      obtain ⟨dev₂, hrelease, h⟩ := Option.bind_eq_some_iff.mp h
      rw [← Option.some.inj h]
      have hreleased := indexed_releaseTsFeeds (indexed_feedStop hidx hstop) hrelease
      exact hreleased
    · rw [← Option.some.inj h]
      exact hidx

/-! ## The filter on its feed -/

/-- Filter `k` has the section filter `j` on feed `i`, made from `para`. -/
structure SetUp (dev : Dmxdev) (k i j : ℕ) (para : DmxFilter) : Prop where
  filterSec : (dev.filter k).filterSec = some j
  feedSec : (dev.filter k).feedSec = some i
  priv : dev.filterPriv j = some k
  filtering : (dev.demux.feed i).isFiltering = true
  mem : ∃ f ∈ (dev.demux.feed i).filter, f.index = j
  masks : ∀ f ∈ (dev.demux.feed i).filter, f.index = j →
    ∃ (f₀ : DvbDemuxFilter) (old : DmxSectionFilter), f = prepareSecfilter { f₀ with filter := sectionFilterOf para old }

variable {j : ℕ} {para : DmxFilter}

theorem SetUp.setFilter (h : SetUp dev k i j para) {filter : DmxdevFilter}
    (hsec : filter.filterSec = (dev.filter k).filterSec) (hfeed : filter.feedSec = (dev.filter k).feedSec) :
    SetUp (dev.setFilter k filter) k i j para where
  filterSec := by
    rw [filter_setFilter_self, hsec]
    exact h.filterSec
  feedSec := by
    rw [filter_setFilter_self, hfeed]
    exact h.feedSec
  priv := h.priv
  filtering := h.filtering
  mem := h.mem
  masks := h.masks

/-- A start without an error starts the filters. -/
theorem sectionFeedStart_of_nonneg {demux : DvbDemux} {interrupted : Bool} {ret : ℤ}
    (h : 0 ≤ (dmxSectionFeedStartFiltering demux i interrupted ret).1) :
    ((dmxSectionFeedStartFiltering demux i interrupted ret).2.feed i).isFiltering = true ∧
      ((dmxSectionFeedStartFiltering demux i interrupted ret).2.feed i).filter =
        (demux.feed i).filter.map prepareSecfilter := by
  unfold dmxSectionFeedStartFiltering at h ⊢
  dsimp only at h ⊢
  split_ifs at h ⊢ with h₁ h₂ h₃ h₄ h₅
  · exact absurd h (show ¬ 0 ≤ -ERESTARTSYS by decide)
  · exact absurd h (show ¬ 0 ≤ -EBUSY by decide)
  · exact absurd h (show ¬ 0 ≤ -EINVAL by decide)
  · exact absurd h (show ¬ 0 ≤ -ENODEV by decide)
  · exact absurd h (not_le.mpr h₅)
  · rw [feed_setFeed_self]
    exact ⟨rfl, rfl⟩

/-- An allocation of a section filter. -/
theorem allocateFilter_cases (demux : DvbDemux) (i : ℕ) (interrupted : Bool) :
    ((if interrupted then none else (dvbDmxFilterAlloc demux).map Prod.fst) = none ∧
        (dmxSectionFeedAllocateFilter demux i interrupted).1 < 0) ∨
      ∃ j, (if interrupted then none else (dvbDmxFilterAlloc demux).map Prod.fst) = some j ∧
        (dmxSectionFeedAllocateFilter demux i interrupted).2.filterMem = demux.filterMem ∧
        ((dmxSectionFeedAllocateFilter demux i interrupted).2.feed i).filter =
          demux.filterMem j :: (demux.feed i).filter := by
  unfold dmxSectionFeedAllocateFilter
  cases interrupted with
  | true => exact Or.inl ⟨rfl, (by decide : -ERESTARTSYS < 0)⟩
  | false =>
    rw [if_neg Bool.false_ne_true, if_neg Bool.false_ne_true]
    rcases halloc : dvbDmxFilterAlloc demux with - | ⟨j, demux₁⟩
    · exact Or.inl ⟨rfl, (by decide : -EBUSY < 0)⟩
    · obtain ⟨-, -, rfl⟩ := filterAlloc_spec halloc
      refine Or.inr ⟨j, rfl, rfl, ?_⟩
      dsimp only
      rw [feed_setFeed_self]

theorem filter_fillSectionFilter (demux : DvbDemux) (i j : ℕ) (filter : DmxSectionFilter) :
    ((fillSectionFilter demux i j filter).feed i).filter =
      (demux.feed i).filter.map fun f => if f.index = j then { f with filter } else f := by
  unfold fillSectionFilter
  rw [feed_setFeed_self]

theorem filter_filterTimer (dev : Dmxdev) (k : ℕ) :
    (dvbDmxdevFilterTimer dev k).filter k =
      { dev.filter k with timer := (dev.filter k).sec.timeout ≠ 0 } := filter_setFilter_self ..

/-- A filter that has been put on its feed without an error. -/
theorem setUp_addSecFilter {ret : ℤ} (hidx : Indexed dev.demux) (hfeed : (dev.filter k).feedSec = some i)
    (h : addSecFilter ans dev k i = some (ret, dev')) (hret : 0 ≤ ret) :
    ∃ j, SetUp dev' k i j (dev.filter k).sec.filter ∧ (dev'.filter k).bufferError = (dev.filter k).bufferError := by
  unfold addSecFilter at h
  dsimp only at h
  rcases allocateFilter_cases dev.demux i ans.allocateFilter with ⟨hslot, hneg⟩ | ⟨j, hslot, hmem, hfilter⟩
  · rw [hslot] at h
    obtain ⟨dev₁, -, h⟩ := Option.bind_eq_some_iff.mp h
    have heq : _ = ret := congrArg Prod.fst (Option.some.inj h)
    rw [← heq] at hret
    exact absurd hret (not_le.mpr hneg)
  · rw [hslot] at h
    dsimp only at h
    rw [hmem] at h
    split_ifs at h with hneg
    · have heq : _ = ret := congrArg Prod.fst (Option.some.inj h)
      rw [← heq] at hret
      exact absurd hret (not_le.mpr hneg)
    obtain ⟨hfiltering, hfilters⟩ := sectionFeedStart_of_nonneg (not_lt.mp hneg)
    have hdev : _ = dev' := congrArg Prod.snd (Option.some.inj h)
    rw [← hdev]
    rw [filter_fillSectionFilter, hfilter] at hfilters
    have hself : ∀ demux priv,
        ({ dev.setFilter k { dev.filter k with filterSec := some j } with
          demux := demux, filterPriv := priv } : Dmxdev).filter k = { dev.filter k with filterSec := some j } :=
      fun _ _ => filter_setFilter_self ..
    have hhead : (dev.demux.filterMem j).index = j := hidx j
    refine ⟨j, ⟨?_, ?_, ?_, hfiltering, ?_, ?_⟩, ?_⟩
    · rw [filter_filterTimer, hself]
    · rw [filter_filterTimer, hself]
      exact hfeed
    · exact update_self ..
    · refine ⟨_, hfilters ▸ List.mem_map_of_mem (List.mem_map_of_mem (List.mem_cons_self ..)), ?_⟩
      rw [if_pos hhead]
      exact hhead
    · intro f hf hindex
      obtain ⟨f₁, hf₁, rfl⟩ := List.mem_map.mp ((congrArg (f ∈ ·) hfilters).mp hf)
      obtain ⟨f₀, -, rfl⟩ := List.mem_map.mp hf₁
      by_cases hj : f₀.index = j
      · rw [if_pos hj]
        exact ⟨f₀, _, rfl⟩
      · rw [if_neg hj] at hindex
        exact absurd hindex hj
    · rw [filter_filterTimer, hself]

/-- An allocation of a feed. -/
theorem allocateSectionFeed_cases (demux : DvbDemux) (interrupted : Bool) :
    ((if interrupted then none else (dvbDmxFeedAlloc demux).map Prod.fst) = none ∧
        (dvbdmxAllocateSectionFeed demux interrupted).1 < 0) ∨
      ∃ i, (if interrupted then none else (dvbDmxFeedAlloc demux).map Prod.fst) = some i ∧
        (dvbdmxAllocateSectionFeed demux interrupted).2.filterMem = demux.filterMem := by
  unfold dvbdmxAllocateSectionFeed
  cases interrupted with
  | true => exact Or.inl ⟨rfl, (by decide : -ERESTARTSYS < 0)⟩
  | false =>
    rw [if_neg Bool.false_ne_true, if_neg Bool.false_ne_true, feedAlloc_eq]
    rcases freeFeed demux with - | i
    · exact Or.inl ⟨rfl, (by decide : -EBUSY < 0)⟩
    · exact Or.inr ⟨i, rfl, rfl⟩

/-- A stop of the feed of a section filter. -/
theorem filter_feedStop (htype : (dev.filter k).type = .DMXDEV_TYPE_SEC)
    (h : dvbDmxdevFeedStop dev k = some r) :
    r.2.filter k = { dev.filter k with state := .DMXDEV_STATE_SET, timer := false } := by
  have hself : (dvbDmxdevFilterStateSet dev k .DMXDEV_STATE_SET).filter k =
      { dev.filter k with state := .DMXDEV_STATE_SET } := filter_setFilter_self ..
  unfold dvbDmxdevFeedStop at h
  dsimp only at h
  rw [hself] at h
  dsimp only at h
  rw [htype] at h
  dsimp only at h
  split at h
  · exact absurd h.symm (Option.some_ne_none _)
  · rw [← Option.some.inj h, ← htype]
    exact filter_setFilter_self ..

/-- A section filter that has been started without an error. -/
theorem setUp_startSection {ret : ℤ} (hidx : Indexed dev.demux)
    (htype : (dev.filter k).type = .DMXDEV_TYPE_SEC) (h : startSection ans dev k = some (ret, dev'))
    (hret : 0 ≤ ret) :
    ∃ i j, SetUp dev' k i j (dev.filter k).sec.filter ∧
      (dev'.filter k).bufferError = (dev.filter k).bufferError := by
  unfold startSection at h
  dsimp only at h
  rcases hactive : ((findActive dev (dev.filter k).sec.pid).bind fun k' => (dev.filter k').feedSec) with - | i
  · rw [hactive] at h
    dsimp only at h
    rcases allocateSectionFeed_cases dev.demux ans.allocateFeed with ⟨hslot, hneg⟩ | ⟨i, hslot, hmem⟩
    · rw [hslot] at h
      have heq : _ = ret := congrArg Prod.fst (Option.some.inj h)
      rw [← heq] at hret
      exact absurd hret (not_le.mpr hneg)
    · rw [hslot] at h
      dsimp only at h
      split_ifs at h with hneg
      · obtain ⟨dev₁, -, h⟩ := Option.map_eq_some_iff.mp h
        have heq : _ = ret := congrArg Prod.fst h
        rw [← heq] at hret
        exact absurd hret (not_le.mpr hneg)
      have hindexed : Indexed (dvbdmxAllocateSectionFeed dev.demux ans.allocateFeed).2 := by
        unfold Indexed
        rw [hmem]
        exact hidx
      have hself : ∀ demux priv,
          ({ dev.setFilter k { dev.filter k with feedSec := some i } with
            demux := demux, feedPriv := priv } : Dmxdev).filter k = { dev.filter k with feedSec := some i } :=
        fun _ _ => filter_setFilter_self ..
      obtain ⟨j, hsetUp, herror⟩ := setUp_addSecFilter ((only_sectionFeedSet ..).indexed hindexed)
        (by rw [hself]) h hret
      rw [hself] at hsetUp herror
      exact ⟨i, j, hsetUp, herror⟩
  · rw [hactive] at h
    obtain ⟨r, hstop, h⟩ := Option.bind_eq_some_iff.mp h
    have hself : (dev.setFilter k { dev.filter k with feedSec := some i }).filter k =
        { dev.filter k with feedSec := some i } := filter_setFilter_self ..
    have hstopped := @indexed_feedStop (dev.setFilter k { dev.filter k with feedSec := some i }) _ _ hidx hstop
    have hfilter := filter_feedStop (by rw [hself]; exact htype) hstop
    rw [hself] at hfilter
    obtain ⟨j, hsetUp, herror⟩ := setUp_addSecFilter hstopped (by rw [hfilter]) h hret
    rw [hfilter] at hsetUp herror
    exact ⟨i, j, hsetUp, herror⟩

/-! ## Setting and starting -/

/-- `dvb_dmxdev_filter_set`, and `dvb_dmxdev_filter_start` if the filter is not started by it. -/
def setAndStart (ans ans' : StartAnswers) (dev : Dmxdev) (k : ℕ) (params : DmxSctFilterParams) :
    Option (ℤ × Dmxdev) :=
  (dvbDmxdevFilterSet ans dev k params).bind fun r =>
    if immediateStartBit params.flags then some r else dvbDmxdevFilterStart ans' r.2 k

/-- The filter is active, and its buffer has no error. -/
def Listening (dev : Dmxdev) (k : ℕ) : Prop :=
  (dev.filter k).state = .DMXDEV_STATE_GO ∧ (dev.filter k).bufferError = false

/-- The device once `params` have been set. -/
def withParams (dev : Dmxdev) (k : ℕ) (params : DmxSctFilterParams) : Dmxdev :=
  dev.setFilter k { dev.filter k with
    type := .DMXDEV_TYPE_SEC
    sec := { params with filter := invertMode params.filter }
    state := .DMXDEV_STATE_SET }

/-- Once the parameters are set, a start without an error puts the filter on a feed. -/
theorem setUp_filterStart {params : DmxSctFilterParams} (hidx : Indexed dev.demux)
    (h : dvbDmxdevFilterStart ans (withParams dev k params) k = some (0, dev')) :
    ∃ i j, SetUp dev' k i j (invertMode params.filter) ∧ Listening dev' k := by
  have hparams : (withParams dev k params).filter k =
      { dev.filter k with
        type := .DMXDEV_TYPE_SEC
        sec := { params with filter := invertMode params.filter }
        state := .DMXDEV_STATE_SET } := filter_setFilter_self ..
  have hstate : ((withParams dev k params).filter k).state = .DMXDEV_STATE_SET := by rw [hparams]
  have hstopped : dvbDmxdevFilterStart ans (withParams dev k params) k =
      startStopped ans (withParams dev k params) k := by
    unfold dvbDmxdevFilterStart stopFirst
    rw [hstate]
    rfl
  rw [hstopped] at h
  unfold startStopped at h
  rw [hparams] at h
  split_ifs at h with hmemory
  · exact absurd (congrArg Prod.fst (Option.some.inj h)) (show ¬ -ENOMEM = 0 by decide)
  dsimp only at h
  rw [filter_setFilter_self] at h
  dsimp only at h
  obtain ⟨⟨ret, dev₁⟩, hstart, h⟩ := Option.bind_eq_some_iff.mp h
  dsimp only at h
  split_ifs at h with hneg
  · have heq : ret = 0 := congrArg Prod.fst (Option.some.inj h)
    exact absurd heq hneg.ne
  obtain ⟨i, j, hsetUp, herror⟩ := setUp_startSection (by exact hidx) (by rw [filter_setFilter_self]) hstart (not_lt.mp hneg)
  rw [filter_setFilter_self] at hsetUp herror
  have hdev : _ = dev' := congrArg Prod.snd (Option.some.inj h)
  rw [← hdev]
  refine ⟨i, j, hsetUp.setFilter rfl rfl, ?_, ?_⟩
  · unfold dvbDmxdevFilterStateSet
    rw [filter_setFilter_self]
  · unfold dvbDmxdevFilterStateSet
    rw [filter_setFilter_self]
    exact herror

/-- **A filter that has been set and started without an error is on a feed**, with the modes inverted. -/
theorem setUp_setAndStart {ans' : StartAnswers} {params : DmxSctFilterParams} (hidx : Indexed dev.demux)
    (h : setAndStart ans ans' dev k params = some (0, dev')) :
    ∃ i j, SetUp dev' k i j (invertMode params.filter) ∧ Listening dev' k := by
  unfold setAndStart at h
  obtain ⟨r, hset, h⟩ := Option.bind_eq_some_iff.mp h
  unfold dvbDmxdevFilterSet at hset
  obtain ⟨⟨ret, dev₁⟩, hstop, hset⟩ := Option.bind_eq_some_iff.mp hset
  have hindexed := indexed_filterStop hidx hstop
  dsimp only at hset
  split_ifs at h with himmediate
  · rw [if_pos himmediate, Option.some.inj h] at hset
    exact setUp_filterStart hindexed hset
  · rw [if_neg himmediate] at hset
    rw [← Option.some.inj hset] at h
    exact setUp_filterStart hindexed h

/-! ## The sections that are selected -/

/-- The byte of a section that byte `i` of a filter is for. -/
def position (i : Fin DMX_FILTER_SIZE) : ℕ := if i.val = 0 then 0 else i.val + 2

/-- The section is one that the client asks for: the masked bits with mode 0 are those of the value, and if
there are masked bits with mode 1, one of them is not that of the value. -/
def Selects (filter : DmxFilter) (sec : List UInt8) : Prop :=
  (∀ i, ∀ b < 8, (filter.mask i).toBitVec.getLsbD b = true → (filter.mode i).toBitVec.getLsbD b = false →
      (sec.getD (position i) 0).toBitVec.getLsbD b = (filter.filter i).toBitVec.getLsbD b) ∧
    ((∃ i, ∃ b < 8, (filter.mask i).toBitVec.getLsbD b = true ∧ (filter.mode i).toBitVec.getLsbD b = true) →
      ∃ i, ∃ b < 8, (filter.mask i).toBitVec.getLsbD b = true ∧ (filter.mode i).toBitVec.getLsbD b = true ∧
        (sec.getD (position i) 0).toBitVec.getLsbD b ≠ (filter.filter i).toBitVec.getLsbD b)

theorem position_lt (i : Fin DMX_FILTER_SIZE) : position i < DVB_DEMUX_MASK_MAX := by
  revert i
  decide

/-- The place of byte `i` in the filter of the demux. -/
def place (i : Fin DMX_FILTER_SIZE) : Fin DVB_DEMUX_MASK_MAX := ⟨position i, position_lt i⟩

theorem copyTo_place (para : Fin DMX_FILTER_SIZE → UInt8) (old : Fin DVB_DEMUX_MASK_MAX → UInt8)
    (i : Fin DMX_FILTER_SIZE) : copyTo para old (place i) = para i := by
  fin_cases i <;> rfl

/-- Each byte of the filter of the demux is one of the client's, or one of the gap. -/
theorem exists_place (i : Fin DVB_DEMUX_MASK_MAX) :
    (∃ i', i = place i') ∨ ∀ para, copyTo para (fun _ => 0) i = 0 := by
  by_cases hzero : i.val = 0
  · exact Or.inl ⟨⟨0, by decide⟩, Fin.ext hzero⟩
  by_cases hgap : 3 ≤ i.val
  · have hlt := i.isLt
    change i.val < 18 at hlt
    refine Or.inl ⟨⟨i.val - 2, ?_⟩, Fin.ext ?_⟩
    · change i.val - 2 < 16
      omega
    · change i.val = if i.val - 2 = 0 then 0 else i.val - 2 + 2
      rw [if_neg (by omega)]
      omega
  · refine Or.inr fun para => ?_
    unfold copyTo
    rw [if_neg hzero, dif_neg hgap]

variable {filter : DmxFilter} {f : DvbDemuxFilter} {old : DmxSectionFilter}

/-- The bits of the masks, and of the value, at the places of the client's bytes. -/
theorem masks_place (f : DvbDemuxFilter) (old : DmxSectionFilter) (i : Fin DMX_FILTER_SIZE) {b : ℕ} (hb : b < 8) :
    let g := prepareSecfilter { f with filter := sectionFilterOf (invertMode filter) old }
    g.filter.filterValue (place i) = filter.filter i ∧
      (g.maskandmode (place i)).toBitVec.getLsbD b =
        ((filter.mask i).toBitVec.getLsbD b && !(filter.mode i).toBitVec.getLsbD b) ∧
      (g.maskandnotmode (place i)).toBitVec.getLsbD b =
        ((filter.mask i).toBitVec.getLsbD b && (filter.mode i).toBitVec.getLsbD b) := by
  have hones : (0xff : UInt8).toBitVec.getLsbD b = true := by
    interval_cases b <;> rfl
  have hmask : copyTo (invertMode filter).mask (fun _ => 0) (place i) = filter.mask i := copyTo_place ..
  have hmode : copyTo (invertMode filter).mode old.filterMode (place i) = filter.mode i ^^^ 0xff :=
    copyTo_place ..
  refine ⟨copyTo_place .., ?_, ?_⟩
  · change (copyTo (invertMode filter).mask (fun _ => 0) (place i) &&&
      copyTo (invertMode filter).mode old.filterMode (place i)).toBitVec.getLsbD b = _
    rw [hmask, hmode, UInt8.toBitVec_and, BitVec.getLsbD_and, UInt8.toBitVec_xor, BitVec.getLsbD_xor, hones,
      Bool.xor_true]
  · change (copyTo (invertMode filter).mask (fun _ => 0) (place i) &&&
      ~~~ copyTo (invertMode filter).mode old.filterMode (place i)).toBitVec.getLsbD b = _
    rw [hmask, hmode, UInt8.toBitVec_and, BitVec.getLsbD_and, UInt8.toBitVec_not, BitVec.getLsbD_not,
      decide_eq_true hb, Bool.true_and, UInt8.toBitVec_xor, BitVec.getLsbD_xor, hones, Bool.xor_true, Bool.not_not]

theorem doneq_prepareSecfilter (f : DvbDemuxFilter) :
    (prepareSecfilter f).doneq = true ↔ ∃ i, (prepareSecfilter f).maskandnotmode i ≠ 0 := by
  change ((List.finRange DVB_DEMUX_MASK_MAX).any fun i => decide ((prepareSecfilter f).maskandnotmode i ≠ 0)) = true ↔ _
  simp only [List.any_eq_true, List.mem_finRange, true_and, decide_eq_true_eq]

/-- What is masked out is in neither mask. -/
theorem masks_of_gap (f : DvbDemuxFilter) (old : DmxSectionFilter) {i : Fin DVB_DEMUX_MASK_MAX}
    (h : ∀ para, copyTo para (fun _ => 0) i = 0) :
    let g := prepareSecfilter { f with filter := sectionFilterOf (invertMode filter) old }
    g.maskandmode i = 0 ∧ g.maskandnotmode i = 0 := by
  have hmask : copyTo (invertMode filter).mask (fun _ => 0) i = 0 := h _
  constructor
  · change copyTo (invertMode filter).mask (fun _ => 0) i &&& _ = 0
    rw [hmask, UInt8.zero_and]
  · change copyTo (invertMode filter).mask (fun _ => 0) i &&& _ = 0
    rw [hmask, UInt8.zero_and]

/-- **The match is the selection**, on the bytes of a section that has so many. -/
theorem matches_iff_selects (f : DvbDemuxFilter) (old : DmxSectionFilter) (x : Fin DVB_DEMUX_MASK_MAX → UInt8)
    {sec : List UInt8} (hx : ∀ i : Fin DMX_FILTER_SIZE, x (place i) = sec.getD (position i) 0) :
    (prepareSecfilter { f with filter := sectionFilterOf (invertMode filter) old }).masks.Matches x ↔
      Selects filter sec := by
  have hplace := fun i b hb => @masks_place filter f old i b hb
  have hgap := fun i h => @masks_of_gap filter f old i h
  have hdoneq := doneq_prepareSecfilter { f with filter := sectionFilterOf (invertMode filter) old }
  generalize prepareSecfilter { f with filter := sectionFilterOf (invertMode filter) old } = g at hplace hgap hdoneq ⊢
  dsimp only at hplace hgap
  have hzero : ∀ b, (0 : UInt8).toBitVec.getLsbD b = false := fun _ => BitVec.getLsbD_zero
  -- the masked bits with mode 1, in the demux and with the client
  have hnegative : (∃ i, g.maskandnotmode i ≠ 0) ↔
      ∃ i, ∃ b < 8, (filter.mask i).toBitVec.getLsbD b = true ∧ (filter.mode i).toBitVec.getLsbD b = true := by
    constructor
    · rintro ⟨i, hne⟩
      rcases exists_place i with ⟨i', rfl⟩ | hnone
      · rw [Ne, byte_eq_zero_iff] at hne
        push Not at hne
        obtain ⟨b, hb, hbit⟩ := hne
        rw [Ne, Bool.not_eq_false, (hplace i' b hb).2.2, Bool.and_eq_true] at hbit
        exact ⟨i', b, hb, hbit⟩
      · exact absurd (hgap i hnone).2 hne
    · rintro ⟨i, b, hb, hmask, hmode⟩
      refine ⟨place i, fun h => ?_⟩
      have hbit := (hplace i b hb).2.2
      rw [h, hzero, hmask, hmode] at hbit
      exact absurd hbit (by decide)
  rw [MaskMatch.matches_iff_bits]
  refine and_congr ?_ (imp_congr (hdoneq.trans hnegative) ?_)
  · constructor
    · intro h i b hb hmask hmode
      obtain ⟨hvalue, hpositive, -⟩ := hplace i b hb
      rw [← hx, ← hvalue]
      refine h (place i) b hb ?_
      change (g.maskandmode (place i)).toBitVec.getLsbD b = true
      rw [hpositive, hmask, hmode]
      rfl
    · intro h i b hb hbit
      rcases exists_place i with ⟨i', rfl⟩ | hnone
      · obtain ⟨hvalue, hpositive, -⟩ := hplace i' b hb
        change (g.maskandmode (place i')).toBitVec.getLsbD b = true at hbit
        rw [hpositive, Bool.and_eq_true, Bool.not_eq_true'] at hbit
        change _ = (g.filter.filterValue (place i')).toBitVec.getLsbD b
        rw [hx, hvalue]
        exact h i' b hb hbit.1 hbit.2
      · change (g.maskandmode i).toBitVec.getLsbD b = true at hbit
        rw [(hgap i hnone).1, hzero] at hbit
        exact absurd hbit Bool.false_ne_true
  · constructor
    · rintro ⟨i, b, hb, hbit, hdiffer⟩
      change (g.maskandnotmode i).toBitVec.getLsbD b = true at hbit
      change _ ≠ (g.filter.filterValue i).toBitVec.getLsbD b at hdiffer
      rcases exists_place i with ⟨i', rfl⟩ | hnone
      · obtain ⟨hvalue, -, hnegative⟩ := hplace i' b hb
        rw [hnegative, Bool.and_eq_true] at hbit
        rw [hx, hvalue] at hdiffer
        exact ⟨i', b, hb, hbit.1, hbit.2, hdiffer⟩
      · rw [(hgap i hnone).2, hzero] at hbit
        exact absurd hbit Bool.false_ne_true
    · rintro ⟨i, b, hb, hmask, hmode, hdiffer⟩
      obtain ⟨hvalue, -, hnegative⟩ := hplace i b hb
      refine ⟨place i, b, hb, ?_, ?_⟩
      · change (g.maskandnotmode (place i)).toBitVec.getLsbD b = true
        rw [hnegative, hmask, hmode]
        rfl
      · change _ ≠ (g.filter.filterValue (place i)).toBitVec.getLsbD b
        rw [hx, hvalue]
        exact hdiffer

/-! ## The sections that are delivered -/

variable {crc : UInt32 → List UInt8 → UInt32}

/-- The section of length `len` at `a` is delivered to filter `k`: `dvb_dmx_swfilter_section_feed` on the feed
of the filter calls the client with its section filter. -/
def DeliveredTo (crc : UInt32 → List UInt8 → UInt32) (dev : Dmxdev) (k : ℕ) (m : Mem UInt8) (a len : ℕ) : Prop :=
  ∃ i j, (dev.filter k).feedSec = some i ∧ (dev.filter k).filterSec = some j ∧ dev.filterPriv j = some k ∧
    ⟨m.read a len, j⟩ ∈
      (dvbDmxSwfilterSectionFeed (dmxdevOps crc) (dev.feedWith i m a len)).calls.drop
        (dev.demux.feed i).calls.length

/-- The section is discarded on the feed of filter `k`, since its CRC is checked and is wrong. -/
def DiscardedFor (crc : UInt32 → List UInt8 → UInt32) (dev : Dmxdev) (k : ℕ) (m : Mem UInt8) (a len : ℕ) : Prop :=
  ∃ i, (dev.filter k).feedSec = some i ∧ crcDiscards (dmxdevOps crc) (dev.feedWith i m a len).view a len

theorem crcDiscards_feedWith (m : Mem UInt8) (a len : ℕ) :
    crcDiscards (dmxdevOps crc) (dev.feedWith i m a len).view a len ↔
      (dev.demux.feed i).sec.checkCrc = true ∧ m (a + 1) &&& 0x80 ≠ 0 ∧ crc 0xffffffff (m.read a len) ≠ 0 := Iff.rfl

/-- On a feed the sections are delivered that the filter selects. -/
theorem SetUp.deliveredTo_iff (h : SetUp dev k i j (invertMode filter)) {m : Mem UInt8} {a len : ℕ} (hlen : 18 ≤ len) :
    DeliveredTo crc dev k m a len ↔ ¬ DiscardedFor crc dev k m a len ∧ Selects filter (m.read a len) := by
  obtain ⟨fs, hcalls, hpassed⟩ := @calls_sectionFeed (dmxdevOps crc) (dev.feedWith i m a len)
    (fun _ => le_refl _) rfl
  have hdelivered : DeliveredTo crc dev k m a len ↔ ∃ f ∈ fs, f.index = j := by
    have hdrop : (dvbDmxSwfilterSectionFeed (dmxdevOps crc) (dev.feedWith i m a len)).calls.drop
        (dev.demux.feed i).calls.length = fs.map fun f => ⟨m.read a len, f.index⟩ := by
      rw [hcalls]
      exact List.drop_left
    constructor
    · rintro ⟨i', j', hfeed, hsec, -, hmem⟩
      obtain rfl : i = i' := Option.some.inj (h.feedSec.symm.trans hfeed)
      obtain rfl : j = j' := Option.some.inj (h.filterSec.symm.trans hsec)
      rw [hdrop] at hmem
      obtain ⟨f, hf, heq⟩ := List.mem_map.mp hmem
      exact ⟨f, hf, congrArg SectionCall.source heq⟩
    · rintro ⟨f, hf, hindex⟩
      refine ⟨i, j, h.feedSec, h.filterSec, h.priv, ?_⟩
      rw [hdrop, ← hindex]
      exact List.mem_map_of_mem hf
  have hdiscarded : DiscardedFor crc dev k m a len ↔
      crcDiscards (dmxdevOps crc) (dev.feedWith i m a len).view a len := by
    constructor
    · rintro ⟨i', hfeed, hdiscards⟩
      obtain rfl : i = i' := Option.some.inj (h.feedSec.symm.trans hfeed)
      exact hdiscards
    · exact fun hdiscards => ⟨i, h.feedSec, hdiscards⟩
  have haccepts : ∀ f ∈ (dev.demux.feed i).filter, f.index = j →
      (sectionfilterAccepts f (fun n => m (a + n)) = true ↔ Selects filter (m.read a len)) := by
    intro f hf hindex
    obtain ⟨f₀, old, rfl⟩ := h.masks f hf hindex
    rw [sectionfilterAccepts_iff]
    refine matches_iff_selects f₀ old _ fun n => ?_
    have hn := position_lt n
    change position n < 18 at hn
    rw [List.getD_eq_getElem?_getD, Mem.getElem?_read _ _ _ _ (by omega)]
    rfl
  rw [hdelivered, hdiscarded]
  constructor
  · rintro ⟨f, hf, hindex⟩
    obtain ⟨hmem, -, hdiscards, haccept⟩ := (hpassed f).mp hf
    exact ⟨hdiscards, (haccepts f hmem hindex).mp haccept⟩
  · rintro ⟨hdiscards, hselects⟩
    obtain ⟨f, hmem, hindex⟩ := h.mem
    exact ⟨f, (hpassed f).mpr ⟨hmem, h.filtering, hdiscards, (haccepts f hmem hindex).mpr hselects⟩, hindex⟩

/-- **What a section filter selects**: of the sections that are not discarded for their CRC those are delivered
that the client has asked for. -/
theorem section_delivered_iff {ans' : StartAnswers} {params : DmxSctFilterParams} (hidx : Indexed dev.demux)
    (h : setAndStart ans ans' dev k params = some (0, dev')) :
    Listening dev' k ∧ ∀ (crc : UInt32 → List UInt8 → UInt32) (m : Mem UInt8) (a len : ℕ), 18 ≤ len →
      (DeliveredTo crc dev' k m a len ↔
        ¬ DiscardedFor crc dev' k m a len ∧ Selects params.filter (m.read a len)) := by
  obtain ⟨i, j, hsetUp, hlistening⟩ := setUp_setAndStart hidx h
  exact ⟨hlistening, fun _ _ _ _ hlen => hsetUp.deliveredTo_iff hlen⟩

/-! ## On a concrete device -/

/-- A device with one filter, which a client has opened. -/
def plainDevice : Dmxdev where
  filternum := 1
  filter _ :=
    { filterSec := none, feedSec := none, feedTs := []
      sec := ⟨0, ⟨fun _ => 0, fun _ => 0, fun _ => 0⟩, 0, 0⟩
      pes := ⟨0, .DMX_OUT_TAP, 0, 0⟩
      type := .DMXDEV_TYPE_NONE, state := .DMXDEV_STATE_ALLOCATED
      bufferData := false, bufferError := false, timer := false, written := [] }
  demux := plainDemux
  filterPriv _ := none
  feedPriv _ := none

/-- Nothing is interrupted, and nothing fails. -/
def plainAnswers : StartAnswers where
  stop _ := ⟨false, 0⟩
  vmalloc := true
  allocateFeed := false
  set := false
  allocateFilter := false
  restart _ := ⟨false, 0⟩
  again := ⟨false, 0⟩
  start := ⟨false, 0⟩
  ts _ := ⟨false, ⟨false, 0, 0, fun _ => 0, 0, 0, 0⟩, false, ⟨false, 0⟩⟩

/-- A filter for every section, with `flags`. -/
def everySection (flags : ℕ) : DmxSctFilterParams := ⟨0x11, ⟨fun _ => 0, fun _ => 0, fun _ => 0⟩, 0, flags⟩

theorem indexed_plainDevice : Indexed plainDevice.demux := fun _ => rfl

/-- A filter for the table `0x40` in another version than the first one. -/
def newVersion : DmxSctFilterParams where
  pid := 0x11
  filter :=
    { filter i := if i.val = 0 then 0x40 else 0
      mask i := if i.val = 0 then 0xff else if i.val = 3 then 0x3e else 0
      mode i := if i.val = 3 then 0x3e else 0 }
  timeout := 0
  flags := 0

theorem section_delivered_iff_newVersion :
    ∃ dev', Listening dev' 0 ∧
      (DeliveredTo crc32Be dev' 0 (fun _ => 0x40) 0 18 ↔ ¬ DiscardedFor crc32Be dev' 0 (fun _ => 0x40) 0 18 ∧
        Selects newVersion.filter (Mem.read (fun _ => 0x40) 0 18)) := by
  obtain ⟨dev', hstarted⟩ : ∃ dev',
      setAndStart plainAnswers plainAnswers plainDevice 0 newVersion = some (0, dev') := ⟨_, rfl⟩
  obtain ⟨hlistening, hdelivered⟩ := section_delivered_iff indexed_plainDevice hstarted
  exact ⟨dev', hlistening, hdelivered crc32Be (fun _ => 0x40) 0 18 (le_refl _)⟩

/-- The beginning of a section whose CRC is wrong, and bytes behind it. -/
def wrongCrc : Mem UInt8 := Mem.ofList 0 [0x42, 0xb0, 0x0f]

theorem crc_wrongCrc : crc32Be 0xffffffff (wrongCrc.read 0 18) ≠ 0 := by decide +kernel

/-- A client that asks for every section, and for a check of the CRC, does not get all of them. -/
theorem not_delivered_iff_selects :
    ¬ ∀ dev', setAndStart plainAnswers plainAnswers plainDevice 0 (everySection 1) = some (0, dev') →
      (DeliveredTo crc32Be dev' 0 wrongCrc 0 18 ↔ Selects (everySection 1).filter (wrongCrc.read 0 18)) := by
  intro hall
  obtain ⟨dev', hstarted, hcheck⟩ : ∃ dev',
      setAndStart plainAnswers plainAnswers plainDevice 0 (everySection 1) = some (0, dev') ∧
        (dev'.filter 0).feedSec = some 0 ∧ (dev'.demux.feed 0).sec.checkCrc = true := ⟨_, rfl, rfl, rfl⟩
  obtain ⟨i, j, hsetUp, -⟩ := setUp_setAndStart indexed_plainDevice hstarted
  have hselects : Selects (everySection 1).filter (wrongCrc.read 0 18) := by
    refine ⟨fun i b _ hmask => ?_, ?_⟩
    · rw [show ((everySection 1).filter.mask i).toBitVec.getLsbD b = false from BitVec.getLsbD_zero] at hmask
      exact absurd hmask Bool.false_ne_true
    · rintro ⟨i, b, -, hmask, -⟩
      rw [show ((everySection 1).filter.mask i).toBitVec.getLsbD b = false from BitVec.getLsbD_zero] at hmask
      exact absurd hmask Bool.false_ne_true
  have hdelivered := (hsetUp.deliveredTo_iff (show 18 ≤ 18 by decide)).mp ((hall dev' hstarted).mpr hselects)
  exact hdelivered.1 ⟨0, hcheck.1, (crcDiscards_feedWith ..).mpr ⟨hcheck.2, by decide, crc_wrongCrc⟩⟩

end DemuxDev
end TbsMedia
