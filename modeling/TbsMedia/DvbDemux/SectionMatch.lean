import Mathlib
import TbsMedia.Lib.MaskMatch
import TbsMedia.DvbDemux.SectionFeedSpec

/-!
# Which filters a section passes to

The loop of `dvb_dmx_swfilter_sectionfilter` is a match under masks of 18 bytes from the start of the
section on, and `dvb_dmx_swfilter_section_feed` calls the client for each filter that matches.

* `sectionfilterAccepts_iff`: the loop is the match.
* `Passed`: the section that the feed is at passes to a filter.
* `calls_sectionFeed`: the calls are for the filters to which the section passes.
-/

namespace TbsMedia
namespace Demux

open Lib

/-! ## The loop -/

/-- The match that a filter stands for. -/
def DvbDemuxFilter.masks (f : DvbDemuxFilter) : MaskMatch (Fin DVB_DEMUX_MASK_MAX) where
  value := f.filter.filterValue
  positive := f.maskandmode
  negative := f.maskandnotmode
  strict := f.doneq = true

variable {f : DvbDemuxFilter} {secbuf : ℕ → UInt8}

/-- A byte that is wrong ends the loop. -/
theorem sectionfilterScan_eq_none {is : List (Fin DVB_DEMUX_MASK_MAX)} {neq : UInt8} :
    sectionfilterScan f secbuf is neq = none ↔
      ∃ i ∈ is, f.maskandmode i &&& (f.filter.filterValue i ^^^ secbuf i) ≠ 0 := by
  induction is generalizing neq with
  | nil =>
    constructor
    · exact fun h => absurd h (Option.some_ne_none _)
    · rintro ⟨i, hi, -⟩
      exact absurd hi List.not_mem_nil
  | cons i is ih =>
    rw [sectionfilterScan]
    by_cases hwrong : f.maskandmode i &&& (f.filter.filterValue i ^^^ secbuf i) ≠ 0
    · rw [if_pos hwrong]
      exact ⟨fun _ => ⟨i, List.mem_cons_self .., hwrong⟩, fun _ => rfl⟩
    · rw [if_neg hwrong, ih]
      simp only [List.mem_cons, exists_eq_or_imp, hwrong, false_or]

/-- Otherwise it collects the differences. -/
theorem sectionfilterScan_eq_some {is : List (Fin DVB_DEMUX_MASK_MAX)} {neq neq' : UInt8}
    (h : sectionfilterScan f secbuf is neq = some neq') :
    neq' = 0 ↔ neq = 0 ∧ ∀ i ∈ is, f.maskandnotmode i &&& (f.filter.filterValue i ^^^ secbuf i) = 0 := by
  induction is generalizing neq with
  | nil =>
    rw [← Option.some.inj h]
    simp only [List.not_mem_nil, false_imp_iff, implies_true, and_true]
  | cons i is ih =>
    rw [sectionfilterScan] at h
    split_ifs at h
    rw [ih h, UInt8.or_eq_zero_iff, and_assoc]
    simp only [List.mem_cons, forall_eq_or_imp]

/-- **The loop is the match.** -/
theorem sectionfilterAccepts_iff :
    sectionfilterAccepts f secbuf = true ↔ f.masks.Matches fun i => secbuf i := by
  unfold sectionfilterAccepts MaskMatch.Matches DvbDemuxFilter.masks
  dsimp only
  rcases hscan : sectionfilterScan f secbuf (List.finRange DVB_DEMUX_MASK_MAX) 0 with - | neq
  · obtain ⟨i, -, hwrong⟩ := sectionfilterScan_eq_none.mp hscan
    exact ⟨fun h => absurd h Bool.false_ne_true, fun h => absurd (h.1 i) hwrong⟩
  · have hright : ∀ i, f.maskandmode i &&& (f.filter.filterValue i ^^^ secbuf i) = 0 := by
      intro i
      by_contra hwrong
      rw [sectionfilterScan_eq_none.mpr ⟨i, List.mem_finRange i, hwrong⟩] at hscan
      exact absurd hscan.symm (Option.some_ne_none _)
    have hzero := sectionfilterScan_eq_some hscan
    simp only [List.mem_finRange, true_imp_iff, true_and] at hzero
    dsimp only
    rw [and_iff_right hright, Bool.not_eq_true', Bool.and_eq_false_iff, beq_eq_false_iff_ne, Ne, hzero]
    push Not
    cases f.doneq
    · exact ⟨fun _ h => absurd h Bool.false_ne_true, fun _ => Or.inl rfl⟩
    · exact ⟨fun h _ => h.resolve_left (fun h => absurd h.symm Bool.false_ne_true), fun h => Or.inr (h rfl)⟩

/-! ## The calls -/

variable {ops : DemuxOps} {feed : DvbDemuxFeed}

/-- The section that the feed is at passes to the filter `f` of the feed. -/
def Passed (ops : DemuxOps) (feed : DvbDemuxFeed) (f : DvbDemuxFilter) : Prop :=
  f ∈ feed.filter ∧ feed.isFiltering = true ∧
    ¬ crcDiscards ops feed.view feed.sec.secbuf feed.sec.seclen ∧
    sectionfilterAccepts f (fun i => feed.sec.secbufBase (feed.sec.secbuf + i)) = true

theorem filterCalls_eq (hret : ∀ calls, 0 ≤ ops.cbSecRet calls) (m : Mem UInt8) (a len : ℕ)
    (fs : List DvbDemuxFilter) (calls : List SectionCall) :
    filterCalls ops m true a len fs calls =
      calls ++ (fs.filter fun f => sectionfilterAccepts f fun i => m (a + i)).map
        fun f => ⟨m.read a len, f.index⟩ := by
  induction fs generalizing calls with
  | nil => exact (List.append_nil _).symm
  | cons f fs ih =>
    rw [filterCalls]
    by_cases haccepts : sectionfilterAccepts f (fun i => m (a + i)) = true
    · rw [if_pos haccepts, List.filter_cons, if_pos haccepts]
      dsimp only
      rw [if_neg (not_lt.mpr (hret _)), if_pos rfl, ih, List.map_cons, List.append_assoc, List.singleton_append]
    · rw [if_neg haccepts, List.filter_cons, if_neg haccepts, if_pos rfl, ih]

/-- **The calls** of a client that takes every section: one for each filter to which the section passes. -/
theorem calls_sectionFeed (hret : ∀ calls, 0 ≤ ops.cbSecRet calls) (hcrc : feed.sec.crcVal = 0xffffffff) :
    ∃ fs : List DvbDemuxFilter, (dvbDmxSwfilterSectionFeed ops feed).calls = feed.calls ++
        fs.map (fun f => ⟨feed.sec.secbufBase.read feed.sec.secbuf feed.sec.seclen, f.index⟩) ∧
      ∀ f, f ∈ fs ↔ Passed ops feed f := by
  obtain ⟨flags, crc, seclen, hfeed⟩ := sectionFeed_eq ops feed hcrc
  rw [hfeed]
  change ∃ fs : List DvbDemuxFilter, sectionCalls ops feed.view feed.sec.secbuf feed.sec.seclen feed.calls = _ ∧ _
  unfold sectionCalls
  by_cases hfiltering : feed.isFiltering = true
  · rw [if_pos (show feed.view.isFiltering = true from hfiltering)]
    by_cases hdiscards : crcDiscards ops feed.view feed.sec.secbuf feed.sec.seclen
    · rw [if_pos hdiscards]
      refine ⟨[], (List.append_nil _).symm, fun f => ⟨fun h => absurd h List.not_mem_nil, fun h => ?_⟩⟩
      exact absurd hdiscards h.2.2.1
    · rw [if_neg hdiscards, show feed.view.isFiltering = true from hfiltering, filterCalls_eq hret]
      refine ⟨_, rfl, fun f => ?_⟩
      rw [List.mem_filter]
      exact ⟨fun h => ⟨h.1, hfiltering, hdiscards, h.2⟩, fun h => ⟨h.1, h.2.2.2⟩⟩
  · rw [if_neg (show ¬ feed.view.isFiltering = true from hfiltering)]
    refine ⟨[], (List.append_nil _).symm, fun f => ⟨fun h => absurd h List.not_mem_nil, fun h => ?_⟩⟩
    exact absurd h.2.1 hfiltering

end Demux
end TbsMedia
