import Mathlib.Tactic.SplitIfs
import TbsMedia.DvbNet.Ule

/-!
# What the decapsulator reads of a cell

`cellReads` lists the addresses of the cell buffer that the next step reads, and `uleStep_withBuf`
says that the list is complete: another buffer that agrees with the first one on these addresses
makes no difference.
-/

namespace TbsMedia
namespace Net

open Lib

variable {ops : UleOps} {s : Ule} {buf : Mem UInt8}

/-- The addresses of the cell buffer that the next step reads. -/
def cellReads (s : Ule) : List ℕ :=
  let ts := s.h.ts
  let fw := s.h.fromWhere
  match s.pc with
  | .cell => if s.h.ts < s.h.tsEnd ∧ s.h.newTs = true then [ts, ts + 1, ts + 3] else []
  | .pusi => if s.p.needPusi then [ts + 1, ts + 3, ts + 4] else []
  | .newTs => if s.h.newTs then [ts + 3] else []
  | .pointer =>
    (ts + 1) :: if s.h.buf (ts + 1) &&& TS_PUSI ≠ 0 ∧ s.p.needPusi = false then [fw] else []
  | .flush => if s.p.uleSnduRemain > 183 then [ts + 4] else []
  | .payload =>
    if s.p.uleSkb.isNone ∧ 2 ≤ s.h.tsRemain ∧ s.p.uleSnduLen = 0 then [fw, fw + 1] else []
  | .sndType =>
    match s.h.tsRemain with
    | 0 => []
    | 1 => [fw]
    | _ => if s.p.uleSnduType1 then [fw] else [fw, fw + 1]
  | .copy => (List.range (min s.p.uleSnduRemain s.h.tsRemain)).map fun i => fw + i
  -- the message about a wrong CRC prints the next two bytes
  | .complete => if s.p.uleSnduRemain = 0 ∧ 2 < s.h.tsRemain then [fw, fw + 1] else []
  | .more => if 2 ≤ s.h.tsRemain then [fw, fw + 1] else []
  | _ => []

/-! ## Another buffer -/

/-- The state with another cell buffer. -/
def Ule.withBuf (s : Ule) (buf : Mem UInt8) : Ule := { s with h.buf := buf }

@[simp] theorem p_withBuf : (s.withBuf buf).p = s.p := rfl

@[simp] theorem buf_withBuf : (s.withBuf buf).h.buf = buf := rfl

@[simp] theorem fromWhere_withBuf : (s.withBuf buf).h.fromWhere = s.h.fromWhere := rfl

@[simp] theorem tsRemain_withBuf : (s.withBuf buf).h.tsRemain = s.h.tsRemain := rfl

theorem ite_withBuf {C' C : Prop} [Decidable C'] [Decidable C] {A' B' A B : Ule} (hc : C' ↔ C)
    (hA : C → A' = A.withBuf buf) (hB : ¬ C → B' = B.withBuf buf) :
    (if C' then A' else B') = (if C then A else B).withBuf buf := by
  by_cases h : C
  · rw [if_pos h, if_pos (hc.mpr h), hA h]
  · rw [if_neg h, if_neg fun h' => h (hc.mp h'), hB h]

theorem newTsCell_withBuf (h0 : buf s.h.ts = s.h.buf s.h.ts)
    (h1 : buf (s.h.ts + 1) = s.h.buf (s.h.ts + 1)) (h3 : buf (s.h.ts + 3) = s.h.buf (s.h.ts + 3)) :
    dvbNetUleNewTsCell (s.withBuf buf) = (dvbNetUleNewTsCell s).withBuf buf := by
  unfold dvbNetUleNewTsCell
  refine ite_withBuf ?_ (fun _ => rfl) (fun _ => rfl)
  change buf s.h.ts ≠ _ ∨ buf (s.h.ts + 1) &&& _ ≠ 0 ∨ buf (s.h.ts + 3) &&& _ ≠ 0 ↔ _
  rw [h0, h1, h3]

theorem tsPusi_withBuf (h1 : buf (s.h.ts + 1) = s.h.buf (s.h.ts + 1))
    (h3 : buf (s.h.ts + 3) = s.h.buf (s.h.ts + 3)) (h4 : buf (s.h.ts + 4) = s.h.buf (s.h.ts + 4)) :
    dvbNetUleTsPusi (s.withBuf buf) = (dvbNetUleTsPusi s).withBuf buf := by
  unfold dvbNetUleTsPusi Ule.withBuf
  simp only [h1, h3, h4]
  split_ifs <;> rfl

theorem newTs_withBuf (h3 : buf (s.h.ts + 3) = s.h.buf (s.h.ts + 3)) :
    dvbNetUleNewTs (s.withBuf buf) = (dvbNetUleNewTs s).withBuf buf := by
  unfold dvbNetUleNewTs
  refine ite_withBuf ?_ (fun _ => rfl) (fun _ => rfl)
  change (buf (s.h.ts + 3) &&& 0x0f).toNat = _ ↔ _
  rw [h3]
  rfl

theorem pointer_withBuf (h1 : buf (s.h.ts + 1) = s.h.buf (s.h.ts + 1))
    (hf : s.h.buf (s.h.ts + 1) &&& TS_PUSI ≠ 0 ∧ s.p.needPusi = false →
      buf s.h.fromWhere = s.h.buf s.h.fromWhere) :
    dvbNetUleNewTsPointer (s.withBuf buf) = (dvbNetUleNewTsPointer s).withBuf buf := by
  unfold dvbNetUleNewTsPointer
  refine ite_withBuf ?_ (fun hp => ?_) (fun _ => rfl)
  · change buf (s.h.ts + 1) &&& _ ≠ 0 ↔ _
    rw [h1]
  · refine ite_withBuf Iff.rfl (fun hn => ?_) (fun _ => rfl)
    have hn : s.p.needPusi = false := by simpa using hn
    dsimp only
    rw [buf_withBuf, fromWhere_withBuf, hf ⟨hp, hn⟩]
    exact ite_withBuf Iff.rfl (fun _ => rfl) (fun _ => rfl)

theorem flush_withBuf (h4 : s.p.uleSnduRemain > 183 → buf (s.h.ts + 4) = s.h.buf (s.h.ts + 4)) :
    dvbNetUleNewTsFlush (s.withBuf buf) = (dvbNetUleNewTsFlush s).withBuf buf := by
  unfold dvbNetUleNewTsFlush
  refine ite_withBuf Iff.rfl (fun h => ?_) (fun _ => rfl)
  have e4 : (s.withBuf buf).h.buf ((s.withBuf buf).h.ts + 4) = s.h.buf (s.h.ts + 4) := h4 h
  rw [e4]
  rfl

theorem newPayload_withBuf (hf : 2 ≤ s.h.tsRemain → s.p.uleSnduLen = 0 →
      buf s.h.fromWhere = s.h.buf s.h.fromWhere ∧
        buf (s.h.fromWhere + 1) = s.h.buf (s.h.fromWhere + 1)) :
    dvbNetUleNewPayload (s.withBuf buf) = (dvbNetUleNewPayload s).withBuf buf := by
  unfold dvbNetUleNewPayload
  refine ite_withBuf Iff.rfl (fun _ => rfl) (fun h2 => ?_)
  refine ite_withBuf Iff.rfl (fun h0 => ?_) (fun _ => rfl)
  obtain ⟨hb0, hb1⟩ := hf (Nat.not_lt.mp h2) h0
  dsimp only
  rw [buf_withBuf, fromWhere_withBuf, hb0, hb1]
  exact ite_withBuf Iff.rfl (fun _ => rfl) (fun _ => rfl)

theorem allocSkb_withBuf (s : Ule) :
    dvbNetUleAllocSkb ops (s.withBuf buf) = (dvbNetUleAllocSkb ops s).withBuf buf := by
  unfold dvbNetUleAllocSkb Ule.withBuf
  dsimp only
  rcases ops.devAllocSkb s.allocs (s.p.uleSnduLen + ETH_HLEN + ETH_ALEN) with _ | ⟨m, size⟩ <;> rfl

theorem sndType_withBuf (h0 : 0 < s.h.tsRemain → buf s.h.fromWhere = s.h.buf s.h.fromWhere)
    (h1 : 2 ≤ s.h.tsRemain → s.p.uleSnduType1 = false →
      buf (s.h.fromWhere + 1) = s.h.buf (s.h.fromWhere + 1)) :
    dvbNetUleSnduType ops (s.withBuf buf) = (dvbNetUleSnduType ops s).withBuf buf := by
  unfold dvbNetUleSnduType
  dsimp only
  rw [tsRemain_withBuf, buf_withBuf, fromWhere_withBuf]
  rcases hr : s.h.tsRemain with _ | _ | k
  · rfl
  · rw [h0 (by omega)]
    rfl
  · rw [h0 (by omega)]
    refine ite_withBuf Iff.rfl (fun _ => allocSkb_withBuf (Ule.advance { s with
      p.uleSnduRemain := s.p.uleSnduLen + 2, p.uleSnduType1 := false
      p.uleSnduType := s.p.uleSnduType ||| (s.h.buf s.h.fromWhere).toNat } 1)) (fun ht => ?_)
    rw [h1 (by omega) ((Bool.not_eq_true _).mp ht)]
    exact allocSkb_withBuf (Ule.advance { s with
      p.uleSnduRemain := s.p.uleSnduLen + 2
      p.uleSnduType := be16 (s.h.buf s.h.fromWhere) (s.h.buf (s.h.fromWhere + 1)) } 2)

theorem copy_withBuf (hr : ∀ i < min s.p.uleSnduRemain s.h.tsRemain,
      buf (s.h.fromWhere + i) = s.h.buf (s.h.fromWhere + i)) :
    dvbNetUleCopy (s.withBuf buf) = (dvbNetUleCopy s).withBuf buf := by
  have er : buf.read s.h.fromWhere (min s.p.uleSnduRemain s.h.tsRemain) =
      s.h.buf.read s.h.fromWhere (min s.p.uleSnduRemain s.h.tsRemain) := by
    refine Mem.read_congr fun a hlo hhi => ?_
    obtain ⟨i, rfl⟩ := Nat.exists_eq_add_of_le hlo
    exact hr i (Nat.lt_of_add_lt_add_left hhi)
  unfold dvbNetUleCopy
  dsimp only
  rw [buf_withBuf, fromWhere_withBuf, tsRemain_withBuf, p_withBuf, er]
  rcases s.p.uleSkb with _ | skb <;> rfl

theorem more_withBuf (hf : 2 ≤ s.h.tsRemain → buf s.h.fromWhere = s.h.buf s.h.fromWhere ∧
      buf (s.h.fromWhere + 1) = s.h.buf (s.h.fromWhere + 1)) :
    dvbNetUleMore (s.withBuf buf) = (dvbNetUleMore s).withBuf buf := by
  unfold dvbNetUleMore
  refine ite_withBuf (and_congr_right fun h2 => ?_) (fun _ => rfl) (fun _ => ?_)
  · obtain ⟨h0, h1⟩ := hf h2
    change ¬ (buf s.h.fromWhere = _ ∧ buf (s.h.fromWhere + 1) = _) ↔ _
    rw [h0, h1]
  · exact ite_withBuf Iff.rfl (fun _ => rfl) (fun _ => rfl)

theorem checkCrc_withBuf (s : Ule) (skb : SkBuff) (c₁ c₂ : UInt32) :
    dvbNetUleCheckCrc ops (s.withBuf buf) skb c₁ c₂ =
      (dvbNetUleCheckCrc ops s skb c₁ c₂).withBuf buf := by
  unfold dvbNetUleCheckCrc dvbNetUleHeaders Ule.withBuf
  dsimp only
  rcases dvbNetUleShouldDrop ops { s.p with uleSkb := some skb.trim } skb.trim with _ | ⟨_ | _, p⟩
  · split_ifs <;> rfl
  · dsimp only
    rcases touch p skb.trim.data ETH_ALEN with _ | ⟨skb', p'⟩
    · split_ifs <;> rfl
    · dsimp only
      split_ifs <;> rfl
  · split_ifs <;> rfl

theorem complete_withBuf (s : Ule) :
    dvbNetUleComplete ops (s.withBuf buf) = (dvbNetUleComplete ops s).withBuf buf := by
  unfold dvbNetUleComplete
  refine ite_withBuf Iff.rfl (fun _ => ?_) (fun _ => rfl)
  rw [p_withBuf]
  rcases s.p.uleSkb with _ | skb
  · rfl
  · exact checkCrc_withBuf _ _ _ _

theorem ext_withBuf (s : Ule) (dest : List UInt8) (total : ℤ) :
    handleUleExtensions (s.withBuf buf) dest total =
      (handleUleExtensions s dest total).withBuf buf := by
  unfold handleUleExtensions Ule.withBuf
  dsimp only
  rcases handleOneUleExtension s.p with _ | ⟨l, p⟩
  · rfl
  · dsimp only
    split_ifs <;> rfl

theorem deliver_withBuf (s : Ule) (dest : List UInt8) :
    dvbNetUleDeliver ops (s.withBuf buf) dest = (dvbNetUleDeliver ops s dest).withBuf buf := by
  unfold dvbNetUleDeliver
  rw [p_withBuf]
  rcases s.p.uleSkb with _ | skb <;> rfl

/-- **A step depends on the buffer only at the addresses of `cellReads`.** -/
theorem uleStep_withBuf (ops : UleOps) (s : Ule) (buf : Mem UInt8)
    (h : ∀ a ∈ cellReads s, buf a = s.h.buf a) :
    uleStep ops (s.withBuf buf) = (uleStep ops s).withBuf buf := by
  have ep : (s.withBuf buf).pc = s.pc := rfl
  unfold cellReads at h
  unfold uleStep
  rw [ep]
  cases hpc : s.pc <;> rw [hpc] at h <;> dsimp only at h ⊢
  case cell =>
    refine ite_withBuf Iff.rfl (fun hlt => ?_) (fun _ => rfl)
    refine ite_withBuf Iff.rfl (fun hnew => ?_) (fun _ => rfl)
    rw [if_pos ⟨hlt, hnew⟩] at h
    exact newTsCell_withBuf (h _ (by simp)) (h _ (by simp)) (h _ (by simp))
  case pusi =>
    refine ite_withBuf Iff.rfl (fun hn => ?_) (fun _ => rfl)
    rw [if_pos hn] at h
    exact tsPusi_withBuf (h _ (by simp)) (h _ (by simp)) (h _ (by simp))
  case newTs =>
    refine ite_withBuf Iff.rfl (fun hn => ?_) (fun _ => rfl)
    rw [if_pos hn] at h
    exact newTs_withBuf (h _ (by simp))
  case pointer =>
    refine pointer_withBuf (h _ (by simp)) fun hp => h _ ?_
    rw [if_pos hp]
    simp
  case flush =>
    refine flush_withBuf fun hr => h _ ?_
    rw [if_pos hr]
    simp
  case payload =>
    refine ite_withBuf Iff.rfl (fun hn => ?_) (fun _ => rfl)
    refine newPayload_withBuf fun h2 h0 => ?_
    rw [if_pos ⟨hn, h2, h0⟩] at h
    exact ⟨h _ (by simp), h _ (by simp)⟩
  case sndType =>
    refine sndType_withBuf (fun h0 => ?_) (fun h2 ht => ?_)
    · rcases hr : s.h.tsRemain with _ | _ | k
      · omega
      · rw [hr] at h
        exact h _ (by simp)
      · rw [hr] at h
        refine h _ ?_
        split_ifs <;> simp
    · rcases hr : s.h.tsRemain with _ | _ | k
      · omega
      · omega
      · rw [hr] at h
        refine h _ ?_
        rw [ht]
        simp
  case copy =>
    exact copy_withBuf fun i hi => h _ (List.mem_map.mpr ⟨i, List.mem_range.mpr hi, rfl⟩)
  case complete => exact complete_withBuf s
  case ext => exact ext_withBuf s _ _
  case deliver => exact deliver_withBuf s _
  case more =>
    refine more_withBuf fun h2 => ?_
    rw [if_pos h2] at h
    exact ⟨h _ (by simp), h _ (by simp)⟩

/-- Only the header of a new cell is read at first. -/
theorem uleStep_withBuf_header :
    uleStep plainOps (((Ule.init .RX_MODE_PROMISC []).call (fun _ => 0x47) 188).withBuf fun a =>
      if a < 4 then 0x47 else 7) =
    (uleStep plainOps ((Ule.init .RX_MODE_PROMISC []).call (fun _ => 0x47) 188)).withBuf fun a =>
      if a < 4 then 0x47 else 7 :=
  uleStep_withBuf _ _ _ (by decide)

end Net
end TbsMedia
