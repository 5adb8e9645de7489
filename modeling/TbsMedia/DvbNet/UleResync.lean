import Mathlib
import TbsMedia.DvbNet.UleAnyCell

/-!
# Resynchronization

Whatever cells the decapsulator has been given, the next cell with PUSI brings it back: it waits for PUSI
anyway, or the counter or the pointer field does not fit and it is reset, or the pointer field is the number
of bytes that the SNDU in progress lacks, and then this SNDU ends in front of the pointer target.

What the SNDUs of the cells in front are made of is not known, nor is the one in progress.  They are disposed
of one after the other (`through_cells`) unless one of them hangs the loop over its extension headers or has
its address outside its memory, and then no call behind it is ever made.  So the SNDUs from the pointer target
on are handed up exactly if everything that has arrived by then can be disposed of.

The first cell is where the work is.  `SplitInv` says what the decoder lacks when a cell ended in a length or
type field, so that the number it compares with the pointer field is right in every state that cells can
leave it in, and `stale_run` gets it over the rest of an SNDU of which only that number is known.

* `first_cell`: the first cell of the new stream.
* `recovers_iff`: everything from the pointer target on is handed up, if and only if that is so.
-/

namespace TbsMedia
namespace Net

open Lib
open Demux (TsPacket)

variable {ops : UleOps} {s t w : Ule} {E : Ctx} {skb : SkBuff} {dest : List UInt8} {total : ℤ}

/-! ## Split type fields -/

/-- What is missing of an SNDU whose type field is split, or not there yet. -/
structure TypeInv (p : DvbNetPriv) : Prop where
  fresh : p.uleSkb = none → p.uleSnduLen = 0 → p.uleSnduType1 = false
  header : p.uleSkb = none → p.uleSnduLen ≠ 0 →
    p.uleSnduRemain = p.uleSnduLen + if p.uleSnduType1 then 1 else 2

/-- Where this holds, and what takes its place in front of the type field. -/
def SplitInv (s : Ule) : Prop :=
  match s.pc with
  | .sndType => s.p.uleSnduType1 = true → 2 ≤ s.h.tsRemain
  | .copy => True
  | .complete => True
  | .ext _ _ => True
  | .deliver _ => True
  | .fault => True
  | _ => TypeInv s.p

theorem TypeInv.of_skb {p : DvbNetPriv} (h : p.uleSkb ≠ none) : TypeInv p :=
  ⟨fun hn => absurd hn h, fun hn => absurd hn h⟩

theorem TypeInv.of_zero {p : DvbNetPriv} (hlen : p.uleSnduLen = 0)
    (h1 : p.uleSnduType1 = false) : TypeInv p :=
  ⟨fun _ _ => h1, fun _ hne => absurd hlen hne⟩

theorem typeInv_reset (p : DvbNetPriv) : TypeInv (resetUle p) := .of_zero rfl rfl

theorem typeInv_resync (s : Ule) : TypeInv s.resync.p := .of_zero rfl rfl

/-- Into and out of the cells. -/
theorem splitInv_enter (ops : UleOps) (hpc : s.pc = .cell ∨ s.pc = .pusi ∨ s.pc = .newTs ∨
    s.pc = .pointer) (h : SplitInv s) : SplitInv (uleStep ops s) := by
  unfold SplitInv at h
  unfold uleStep
  rcases hpc with hpc | hpc | hpc | hpc <;> rw [hpc] at h ⊢ <;> dsimp only at h ⊢
  · split_ifs
    · unfold dvbNetUleNewTsCell
      dsimp only
      split_ifs
      · exact typeInv_resync _
      · exact h
    · exact h
    · exact h
  · split_ifs
    · unfold dvbNetUleTsPusi
      dsimp only
      split_ifs
      · exact ⟨h.fresh, h.header⟩
      · exact ⟨h.fresh, h.header⟩
      · exact h
    · exact h
  · split_ifs
    · unfold dvbNetUleNewTs
      split_ifs
      · exact ⟨h.fresh, h.header⟩
      · exact typeInv_resync _
    · exact h
  · unfold dvbNetUleNewTsPointer
    split_ifs
    · dsimp only
      split_ifs
      · exact typeInv_resync _
      · exact h
    · exact ⟨h.fresh, h.header⟩
    · exact h

/-- Up to the length field. -/
theorem splitInv_payload (ops : UleOps) (hpc : s.pc = .payload) (hinv : UleInv s)
    (h : SplitInv s) : SplitInv (uleStep ops s) := by
  unfold UleInv at hinv
  unfold SplitInv at h
  rw [hpc] at h hinv
  obtain ⟨-, -, -, hroom⟩ := hinv
  unfold uleStep
  rw [hpc]
  dsimp only
  by_cases hskb : s.p.uleSkb.isNone = true
  · have hnone := Option.isNone_iff_eq_none.mp hskb
    rw [if_pos hskb]
    unfold dvbNetUleNewPayload
    by_cases h2 : s.h.tsRemain < 2
    · have hlen : s.p.uleSnduLen = 0 := by
        by_contra hne
        exact absurd (hroom (Or.inr hne)) (Nat.not_le.mpr h2)
      rw [if_pos h2]
      exact TypeInv.of_zero rfl (h.fresh hnone hlen)
    · rw [if_neg h2]
      by_cases hlen : s.p.uleSnduLen = 0
      · have h1 := h.fresh hnone hlen
        rw [if_pos hlen]
        dsimp only
        by_cases h5 : be16 (s.h.buf s.h.fromWhere) (s.h.buf (s.h.fromWhere + 1)) &&& 0x7fff < 5
        · rw [if_pos h5]
          exact TypeInv.of_zero rfl h1
        · rw [if_neg h5]
          intro h1'
          exact Bool.noConfusion (h1.symm.trans h1')
      · rw [if_neg hlen]
        exact fun _ => Nat.not_lt.mp h2
  · rw [if_neg hskb]
    trivial

/-- The allocation of the skb. -/
theorem splitInv_allocSkb (ops : UleOps) (h1 : s.p.uleSnduType1 = false)
    (hrem : s.p.uleSnduRemain = s.p.uleSnduLen + 2) (hlen : s.p.uleSnduLen ≠ 0) :
    SplitInv (dvbNetUleAllocSkb ops s) := by
  unfold dvbNetUleAllocSkb
  split
  · refine ⟨fun _ h0 => absurd h0 hlen, fun _ _ => ?_⟩
    change s.p.uleSnduRemain = s.p.uleSnduLen + if s.p.uleSnduType1 = true then 1 else 2
    rw [h1, hrem]
    rfl
  · trivial

/-- Over the type field. -/
theorem splitInv_sndType (ops : UleOps) (hpc : s.pc = .sndType) (hinv : UleInv s)
    (h : SplitInv s) : SplitInv (uleStep ops s) := by
  unfold UleInv at hinv
  unfold SplitInv at h
  rw [hpc] at h hinv
  obtain ⟨-, -, -, -, hlen⟩ := hinv
  dsimp only at h
  unfold uleStep
  rw [hpc]
  dsimp only
  unfold dvbNetUleSnduType
  rcases hrem : s.h.tsRemain with _ | _ | k
  · have h1 : s.p.uleSnduType1 = false := by
      by_contra h1
      exact absurd (h ((Bool.not_eq_false _).mp h1)) (by omega)
    refine ⟨fun _ h0 => absurd h0 hlen, fun _ _ => ?_⟩
    change s.p.uleSnduLen + 2 = s.p.uleSnduLen + if s.p.uleSnduType1 = true then 1 else 2
    rw [h1]
    rfl
  · exact ⟨fun _ h0 => absurd h0 hlen, fun _ _ => rfl⟩
  · dsimp only
    split_ifs with h1
    · exact splitInv_allocSkb ops rfl rfl hlen
    · exact splitInv_allocSkb ops ((Bool.not_eq_true _).mp h1) rfl hlen

/-- The processing of a complete SNDU comes to its end, or to a point at which nothing is asked. -/
theorem splitInv_headers (s : Ule) (dest : List UInt8) : SplitInv (dvbNetUleHeaders s dest) := by
  unfold dvbNetUleHeaders
  split_ifs <;> trivial

theorem splitInv_finish (s : Ule) : SplitInv s.finish := typeInv_reset s.p

theorem splitInv_complete (ops : UleOps) (hpc : s.pc = .complete) (hinv : UleInv s) :
    SplitInv (uleStep ops s) := by
  unfold UleInv at hinv
  rw [hpc] at hinv
  unfold uleStep
  rw [hpc]
  dsimp only
  unfold dvbNetUleComplete dvbNetUleCheckCrc
  split_ifs
  · split
    · trivial
    · split_ifs
      · exact splitInv_finish _
      · dsimp only
        split_ifs
        · exact splitInv_headers _ _
        · split
          · trivial
          · exact splitInv_finish _
          · split
            · trivial
            · exact splitInv_headers _ _
  · exact TypeInv.of_skb hinv.2.2.2.1

theorem splitInv_step (ops : UleOps) (hinv : UleInv s) (h : SplitInv s) :
    SplitInv (uleStep ops s) := by
  cases hpc : s.pc with
  | cell => exact splitInv_enter ops (Or.inl hpc) h
  | pusi => exact splitInv_enter ops (Or.inr (Or.inl hpc)) h
  | newTs => exact splitInv_enter ops (Or.inr (Or.inr (Or.inl hpc))) h
  | pointer => exact splitInv_enter ops (Or.inr (Or.inr (Or.inr hpc))) h
  | flush =>
    unfold UleInv at hinv
    unfold SplitInv at h
    rw [hpc] at hinv h
    rw [flush_step ops hpc hinv.2.2.2.2.1]
    exact h
  | payload => exact splitInv_payload ops hpc hinv h
  | sndType => exact splitInv_sndType ops hpc hinv h
  | copy =>
    unfold uleStep
    rw [hpc]
    dsimp only
    unfold dvbNetUleCopy
    dsimp only
    split <;> trivial
  | complete => exact splitInv_complete ops hpc hinv
  | ext dest total =>
    unfold uleStep
    rw [hpc]
    dsimp only
    unfold handleUleExtensions
    split
    · trivial
    · split_ifs
      · exact splitInv_finish _
      · trivial
      · trivial
  | deliver dest =>
    unfold uleStep
    rw [hpc]
    dsimp only
    unfold dvbNetUleDeliver
    split
    · trivial
    · exact splitInv_finish _
  | more =>
    unfold SplitInv at h
    rw [hpc] at h
    unfold uleStep
    rw [hpc]
    dsimp only
    unfold dvbNetUleMore
    dsimp only
    split_ifs
    · exact TypeInv.of_zero rfl rfl
    · exact TypeInv.of_zero rfl rfl
    · exact ⟨h.fresh, h.header⟩
  | done =>
    rw [step_done ops hpc]
    exact h
  | fault =>
    unfold uleStep
    rw [hpc]
    exact h

theorem splitInv_run (h : Run ops PointerInCell s) :
    UleInv s ∧ SplitInv s := by
  induction h with
  | init =>
    exact ⟨⟨fun _ => ⟨rfl, rfl⟩, fun _ _ => rfl, fun h => absurd rfl h, rfl, by rintro _ ⟨⟩⟩,
      TypeInv.of_zero rfl rfl⟩
  | call buf n _ hdone ih =>
    obtain ⟨hinv, hsplit⟩ := ih
    unfold UleInv at hinv
    unfold SplitInv at hsplit
    rw [hdone] at hinv hsplit
    exact ⟨⟨hinv, by rintro ⟨⟩⟩, hsplit⟩
  | step _ hs ih => exact ⟨inv_step ih.1 hs, splitInv_step ops ih.1 ih.2⟩

/-! ## The SNDU in progress -/

variable {bs v : List UInt8} {c : TsPacket} {cells : List TsPacket}

theorem pointerInCell_of_ne (h : s.pc ≠ .pusi) : PointerInCell s := fun hpc => absurd hpc h

/-- What is left of the cell is not touched by the processing of an SNDU. -/
theorem Reading.settle (hr : Reading E bs s) (hs : Settles s t) :
    ∃ g, Reading { E with out := E.out ++ g } bs t := by
  obtain ⟨g, hg⟩ := hs.rx
  have hcur := hr.cursor
  have hahead := hr.ahead
  rw [← hs.h] at hcur hahead
  exact ⟨g, hcur, hahead, hs.feed.needPusi.trans hr.needPusi, hs.feed.tscc.trans hr.tscc,
    hs.feed.rxMode.trans hr.rxMode, hs.feed.multiMacs.trans hr.multiMacs, by rw [hg, hr.out]⟩

/-- **The last bytes of an SNDU of unknown content.** -/
theorem stale_copy (hpc : s.pc = .copy) (hinv : UleInv s) (hr : Reading E (v ++ bs) s)
    (hrem : s.p.uleSnduRemain = v.length) (hsane : SaneIn ops s.h.ts s) :
    ∃ t g, Leads (uleStep ops) s t ∧ t.pc = .more ∧ Fresh t.p ∧
      Reading { E with out := E.out ++ g } bs t := by
  have hskb := hinv
  unfold UleInv at hskb
  rw [hpc] at hskb
  obtain ⟨skb, hskb⟩ := Option.ne_none_iff_exists'.mp hskb.2.2.2
  have hadv := hr.cursor.advance
  have hmin : min s.p.uleSnduRemain s.h.tsRemain = v.length := by
    rw [hrem, hr.cursor.remain, List.length_append]
    exact Nat.min_eq_left (Nat.le_add_right _ _)
  have hstep := copy_step ops hpc hskb hr hmin
  have hinv' : UleInv (uleStep ops s) :=
    inv_step hinv (pointerInCell_of_ne (by rw [hpc]; rintro ⟨⟩))
  have hsane' := hsane.step
  generalize ht : uleStep ops s = t at hstep hinv' hsane'
  have hpc' : t.pc = .complete := by rw [hstep]; rfl
  have hrem' : t.p.uleSnduRemain = 0 := by
    rw [hstep]
    change s.p.uleSnduRemain - v.length = 0
    rw [hrem, Nat.sub_self]
  have hr' : Reading E bs t := by
    rw [hstep]
    exact ⟨hadv, hr.ahead, hr.needPusi, hr.tscc, hr.rxMode, hr.multiMacs, hr.out⟩
  have hts : t.h.ts = s.h.ts := by rw [hstep]; rfl
  rw [← hts] at hsane'
  unfold UleInv at hinv'
  rw [hpc'] at hinv'
  obtain ⟨skb', hskb'⟩ := Option.ne_none_iff_exists'.mp hinv'.2.2.2.1
  obtain ⟨w, hlead, hmore, hfresh, hset⟩ := settle hpc' hinv'.1 hskb' hrem' hsane'
  obtain ⟨g, hg⟩ := hr'.settle hset
  exact ⟨w, g, Leads.head ht hlead, hmore, hfresh, hg⟩

/-- The allocation of the skb for an SNDU of unknown type. -/
theorem alloc_stale (halloc : ops.AllocOk) (hr : Reading E bs s) :
    (dvbNetUleAllocSkb ops s).pc = .copy ∧ Reading E bs (dvbNetUleAllocSkb ops s) ∧
      (dvbNetUleAllocSkb ops s).p.uleSnduRemain = s.p.uleSnduLen ∧
      (dvbNetUleAllocSkb ops s).h.ts = s.h.ts := by
  obtain ⟨⟨m, size⟩, hm⟩ := Option.isSome_iff_exists.mp
    (halloc s.allocs (s.p.uleSnduLen + ETH_HLEN + ETH_ALEN))
  unfold dvbNetUleAllocSkb
  rw [hm]
  exact ⟨rfl, ⟨hr.cursor, hr.ahead, hr.needPusi, hr.tscc, hr.rxMode, hr.multiMacs, hr.out⟩, rfl, rfl⟩

/-- The bytes of an SNDU of unknown content, from the type field on. -/
theorem stale_sndType (halloc : ops.AllocOk) (hpc : s.pc = .sndType) (hinv : UleInv s)
    (hr : Reading E (v ++ bs) s)
    (hlen : v.length = s.p.uleSnduLen + if s.p.uleSnduType1 then 1 else 2)
    (hsane : SaneIn ops s.h.ts s) :
    ∃ t g, Leads (uleStep ops) s t ∧ t.pc = .more ∧ Fresh t.p ∧
      Reading { E with out := E.out ++ g } bs t := by
  have hne := hinv
  unfold UleInv at hne
  rw [hpc] at hne
  have h5 := hne.1.five_le hne.2.2.2.2
  have hinv' : UleInv (uleStep ops s) :=
    inv_step hinv (pointerInCell_of_ne (by rw [hpc]; rintro ⟨⟩))
  obtain ⟨k, hk⟩ : ∃ k, s.h.tsRemain = k + 2 := by
    refine ⟨s.h.tsRemain - 2, ?_⟩
    rw [hr.cursor.remain, List.length_append]
    omega
  have hsplit : ∀ i ≤ v.length, Reading E (v.take i ++ (v.drop i ++ bs)) s := by
    intro i _
    rw [← List.append_assoc, List.take_append_drop]
    exact hr
  have hcopy : ∃ i ≤ v.length, v.length - i = s.p.uleSnduLen ∧ (uleStep ops s).pc = .copy ∧
      Reading E (v.drop i ++ bs) (uleStep ops s) ∧
      (uleStep ops s).p.uleSnduRemain = s.p.uleSnduLen ∧ (uleStep ops s).h.ts = s.h.ts := by
    unfold uleStep
    rw [hpc]
    dsimp only
    unfold dvbNetUleSnduType
    rw [hk]
    dsimp only
    by_cases h1 : s.p.uleSnduType1 = true
    · rw [if_pos h1] at hlen ⊢
      have hr₁ := hsplit 1 (by omega)
      have hadv := hr₁.cursor.advance
      rw [List.length_take, Nat.min_eq_left (by omega)] at hadv
      obtain ⟨hpc', hr', hrem', hts'⟩ := alloc_stale halloc (s := Ule.advance { s with
        p.uleSnduRemain := s.p.uleSnduLen + 2, p.uleSnduType1 := false
        p.uleSnduType := s.p.uleSnduType ||| (s.h.buf s.h.fromWhere).toNat } 1)
        ⟨hadv, hr.ahead, hr.needPusi, hr.tscc, hr.rxMode, hr.multiMacs, hr.out⟩
      exact ⟨1, by omega, by omega, hpc', hr', hrem', hts'⟩
    · rw [if_neg h1] at hlen ⊢
      have hr₂ := hsplit 2 (by omega)
      have hadv := hr₂.cursor.advance
      rw [List.length_take, Nat.min_eq_left (by omega)] at hadv
      obtain ⟨hpc', hr', hrem', hts'⟩ := alloc_stale halloc (s := Ule.advance { s with
        p.uleSnduRemain := s.p.uleSnduLen + 2
        p.uleSnduType := be16 (s.h.buf s.h.fromWhere) (s.h.buf (s.h.fromWhere + 1)) } 2)
        ⟨hadv, hr.ahead, hr.needPusi, hr.tscc, hr.rxMode, hr.multiMacs, hr.out⟩
      exact ⟨2, by omega, by omega, hpc', hr', hrem', hts'⟩
  obtain ⟨i, -, hi, hpc', hr', hrem', hts⟩ := hcopy
  have hsane' := hsane.step
  rw [← hts] at hsane'
  obtain ⟨t, g, hlead, ht⟩ := stale_copy hpc' hinv' hr'
    (by rw [hrem', List.length_drop, hi]) hsane'
  exact ⟨t, g, Leads.head rfl hlead, ht⟩

/-- **The SNDU in progress ends where the pointer field says**, whatever it contains.  If there is
none, the decoder is at the start of the next SNDU already. -/
theorem stale_run (halloc : ops.AllocOk) (hpc : s.pc = .payload) (hinv : UleInv s)
    (htype : TypeInv s.p) (hr : Reading E (v ++ bs) s) (hrem : s.p.uleSnduRemain = v.length)
    (h2 : 2 ≤ (v ++ bs).length) (hsane : SaneIn ops s.h.ts s) :
    ∃ t g, Leads (uleStep ops) s t ∧ (t.pc = .more ∨ t.pc = .payload) ∧ Fresh t.p ∧
      Reading { E with out := E.out ++ g } bs t := by
  have hdec := hinv
  unfold UleInv at hdec
  rw [hpc] at hdec
  obtain ⟨hdec, -, -, -⟩ := hdec
  have hinv' : UleInv (uleStep ops s) :=
    inv_step hinv (pointerInCell_of_ne (by rw [hpc]; rintro ⟨⟩))
  have hsane' := hsane.step
  rw [← hr.cursor.remain] at h2
  rcases hskb : s.p.uleSkb with _ | skb
  · by_cases hlen : s.p.uleSnduLen = 0
    · have hzero := hdec.fresh hskb hlen
      rw [hzero] at hrem
      obtain rfl := List.length_eq_zero_iff.mp hrem.symm
      refine ⟨s, [], Leads.refl s, Or.inr hpc,
        ⟨hskb, hlen, hzero, htype.fresh hskb hlen, hdec.bridged⟩, ?_⟩
      rw [List.append_nil]
      exact hr
    · have hstep := payload_resume ops hpc hskb hlen h2
      rw [hstep] at hinv' hsane'
      have hv := hrem.symm.trans (htype.header hskb hlen)
      obtain ⟨t, g, hlead, hmore, ht⟩ :=
        stale_sndType (s := s.goto .sndType) halloc rfl hinv' (hr.goto _) hv hsane'
      exact ⟨t, g, Leads.head hstep hlead, Or.inl hmore, ht⟩
  · have hstep := payload_copy ops hpc hskb
    rw [hstep] at hinv' hsane'
    obtain ⟨t, g, hlead, hmore, ht⟩ :=
      stale_copy (s := s.goto .copy) rfl hinv' (hr.goto _) hrem hsane'
    exact ⟨t, g, Leads.head hstep hlead, Or.inl hmore, ht⟩

/-! ## The first cell -/

/-- The decoder has been reset in front of the cell. -/
structure Reset (E : Ctx) (t : Ule) : Prop where
  atCell : AtCell E t
  needPusi : t.p.needPusi = true
  fresh : Fresh t.p

/-- The step over the continuity counter, where it is not the expected one. -/
theorem newTs_reject (ops : UleOps) (hpc : s.pc = .newTs) (hnew : s.h.newTs = true)
    (hcc : ¬ (s.h.buf (s.h.ts + 3) &&& 0x0f).toNat = s.p.tscc) :
    uleStep ops s = ((s.countFrameError s.p.uleSkb.isSome).resync).goto .cell := by
  unfold uleStep
  rw [hpc]
  dsimp only
  rw [if_pos hnew, dvbNetUleNewTs, if_neg hcc]

/-- A cell with another continuity counter resets the decoder, and is looked at again. -/
theorem reject_cc (ops : UleOps) (hat : AtCell E s) (hcells : E.cells = c :: cells)
    (hc : Sound c) (hneed : s.p.needPusi = false) (hcc : c.cc ≠ s.p.tscc) :
    ∃ t, Leads (uleStep ops) s t ∧ Reset E t := by
  have ha := hat.ahead
  rw [hcells] at ha
  have b3 : s.h.buf (s.h.ts + 3) = c 3 := ha.byte (by decide)
  have hne : ¬ (s.atNewTs.h.buf (s.atNewTs.h.ts + 3) &&& 0x0f).toNat = s.atNewTs.p.tscc := by
    change ¬ (s.h.buf (s.h.ts + 3) &&& 0x0f).toNat = s.p.tscc
    rw [b3]
    exact hcc
  have hstep : uleStep ops s.atNewTs =
      ((s.atNewTs.countFrameError s.atNewTs.p.uleSkb.isSome).resync).goto .cell :=
    newTs_reject ops rfl hat.newTs hne
  refine ⟨_, (reach_newTs ops hat hcells hc hneed).tail hstep, ?_, rfl, ⟨rfl, rfl, rfl, rfl, rfl⟩⟩
  exact ⟨rfl, hat.newTs, hat.ahead, hat.rxMode, hat.multiMacs, hat.out⟩

/-- A cell with another pointer field resets the decoder, and is looked at again. -/
theorem reject_pointer (ops : UleOps) (hat : AtCell E s) (hcells : E.cells = c :: cells)
    (hc : Sound c) (hneed : s.p.needPusi = false) (hcc : c.cc = s.p.tscc)
    (hpusi : c 1 &&& TS_PUSI ≠ 0) (hrem : (c 4).toNat ≠ s.p.uleSnduRemain) :
    ∃ t, Leads (uleStep ops) s t ∧ Reset E t := by
  have ha := hat.ahead
  rw [hcells] at ha
  have b1 : s.h.buf (s.h.ts + 1) = c 1 := ha.byte (by decide)
  have b4 : s.h.buf (s.h.ts + 4) = c 4 := ha.byte (by decide)
  obtain ⟨hlead, -⟩ := enter_cell ops hat hcells hc hneed hcc
  generalize hs' : s.atPointer ((c.cc + 1) % 16) = s' at hlead
  have hpc : s'.pc = .pointer := by rw [← hs']; rfl
  have hp : s'.h.buf (s'.h.ts + 1) &&& TS_PUSI ≠ 0 := by
    rw [← hs']
    change s.h.buf (s.h.ts + 1) &&& TS_PUSI ≠ 0
    rw [b1]
    exact hpusi
  have hneed' : s'.p.needPusi = false := by rw [← hs']; exact hneed
  have hbad : ¬ (s'.h.buf s'.h.fromWhere).toNat + 1 < s'.h.tsRemain ∨
      (s'.h.buf s'.h.fromWhere).toNat ≠ s'.p.uleSnduRemain := by
    right
    rw [← hs']
    change (s.h.buf (s.h.ts + 4)).toNat ≠ s.p.uleSnduRemain
    rw [b4]
    exact hrem
  refine ⟨_, hlead.tail rfl, ?_⟩
  unfold uleStep
  rw [hpc]
  dsimp only
  rw [dvbNetUleNewTsPointer, if_pos hp, if_pos (by rw [hneed']; rfl)]
  dsimp only
  rw [if_pos hbad]
  refine ⟨?_, rfl, ⟨rfl, rfl, rfl, rfl, rfl⟩⟩
  rw [← hs']
  exact ⟨rfl, hat.newTs, hat.ahead, hat.rxMode, hat.multiMacs, hat.out⟩

variable {pend' us : List Sndu} {tail rest' lead : List UInt8}

/-- A decoder that waits for PUSI takes everything from the pointer target on. -/
theorem sync_units (halloc : ops.AllocOk) (hreset : Reset E s) (hcells : E.cells = c :: cells)
    (hc : Sound c) (hplain : ∀ u ∈ us, u.Plain) (hends : Ends ops tail pend' rest')
    (hne : us ≠ [] ∨ pend' ≠ [])
    (hview : uleView c =
      (some lead.length, lead ++ ((us.map (Sndu.bytes ops)).flatten ++ tail))) :
    ∃ t, Leads (uleStep ops) s t ∧ AtCell ((E.enter c cells).handAll ops us) t ∧
      Between ops ((c.cc + 1) % 16) t.p pend' rest' := by
  obtain ⟨hpusi, hpf, hbody⟩ := view_some hview
  have hlen : (c.bytes.drop 5).length = 183 := by
    rw [List.length_drop, c.length_bytes]
  rw [hbody, List.length_append] at hlen
  obtain ⟨hat, hneed, hfresh⟩ := hreset
  obtain ⟨t₁, hlead₁, hpc₁, hr₁, hp₁⟩ := sync_cell ops hat hcells hc hneed
    (by rw [hfresh.remain]; decide) hpusi (by omega)
  have hf₁ : Fresh t₁.p := by
    rw [hp₁]
    exact ⟨hfresh.skb, hfresh.sndLen, hfresh.remain, hfresh.type1, hfresh.bridged⟩
  rw [hpf, ← List.drop_drop, hbody, List.drop_left' rfl] at hr₁
  obtain ⟨t₂, hlead₂, hat₂, hbet₂⟩ :=
    units_run halloc hends us hplain hf₁ hr₁ (Or.inr ⟨hpc₁, hne⟩)
  exact ⟨t₂, hlead₁.trans hlead₂, hat₂, hbet₂⟩

/-- **The first cell of the stream**, whatever the decoder was doing. -/
theorem first_cell (halloc : ops.AllocOk) (hat : AtCell E s) (hcells : E.cells = c :: cells)
    (hc : Sound c) (hinv : UleInv s) (hsplit : SplitInv s) (hsane : SaneIn ops s.h.ts s)
    (hplain : ∀ u ∈ us, u.Plain) (hends : Ends ops tail pend' rest') (hne : us ≠ [] ∨ pend' ≠ [])
    (hview : uleView c =
      (some lead.length, lead ++ ((us.map (Sndu.bytes ops)).flatten ++ tail))) :
    ∃ t g, Leads (uleStep ops) s t ∧
      AtCell ((({ E with out := E.out ++ g } : Ctx).enter c cells).handAll ops us) t ∧
      Between ops ((c.cc + 1) % 16) t.p pend' rest' := by
  obtain ⟨hpusi, hpf, hbody⟩ := view_some hview
  unfold UleInv at hinv
  unfold SplitInv at hsplit
  rw [hat.pc] at hinv hsplit
  obtain ⟨hdec, -⟩ := hinv
  have htype : TypeInv s.p := hsplit
  have hsync : ∀ {s'}, Leads (uleStep ops) s s' → Reset E s' → ∃ t g, Leads (uleStep ops) s t ∧
      AtCell ((({ E with out := E.out ++ g } : Ctx).enter c cells).handAll ops us) t ∧
      Between ops ((c.cc + 1) % 16) t.p pend' rest' := by
    intro s' hlead hreset
    obtain ⟨t, hlead', hat', hbet⟩ := sync_units halloc hreset hcells hc hplain hends hne hview
    refine ⟨t, [], hlead.trans hlead', ?_, hbet⟩
    rw [List.append_nil]
    exact hat'
  cases hneed : s.p.needPusi with
  | true =>
    obtain ⟨hskb, hlen⟩ := hdec.idle hneed
    exact hsync (Leads.refl s) ⟨hat, hneed, hskb, hlen, hdec.fresh hskb hlen, htype.fresh hskb hlen,
      hdec.bridged⟩
  | false =>
    by_cases hcc : c.cc = s.p.tscc
    · by_cases hrem : (c 4).toNat = s.p.uleSnduRemain
      · have htwo := units_two_le hends hne
        have hlen : (c.bytes.drop 5).length = 183 := by
          rw [List.length_drop, c.length_bytes]
        rw [hbody] at hlen
        have hlen' := hlen
        rw [List.length_append] at hlen'
        obtain ⟨t₁, hlead₁, hpc₁, hr₁, hp₁, hts₁⟩ :=
          resume_pusi ops hat hcells hc hneed hcc hpusi (by omega) hrem
        rw [hbody] at hr₁
        have hsane₁ := hsane.leads hlead₁
        rw [← hts₁] at hsane₁
        have hinv₁ : UleInv t₁ := by
          unfold UleInv
          rw [hpc₁, hp₁]
          refine ⟨⟨hdec.idle, hdec.fresh, hdec.five_le, hdec.bridged, hdec.skb⟩, ?_, hneed,
            fun _ => ?_⟩
          · have hfrom := hr₁.cursor.from_where
            have hs : TS_SZ = 188 := rfl
            refine ⟨by omega, ?_⟩
            rw [hr₁.cursor.remain]
            exact hfrom
          · rw [hr₁.cursor.remain, hlen]
            decide
        obtain ⟨t₂, g, hlead₂, hpc₂, hf₂, hr₂⟩ := stale_run halloc hpc₁ hinv₁
          (by rw [hp₁]; exact ⟨htype.fresh, htype.header⟩) hr₁
          (by rw [hp₁]; exact hrem.symm.trans hpf) (by rw [hlen]; decide) hsane₁
        obtain ⟨t₃, hlead₃, hat₃, hbet₃⟩ :=
          units_run halloc hends us hplain hf₂ hr₂ (hpc₂.imp_right fun h => ⟨h, hne⟩)
        exact ⟨t₃, g, (hlead₁.trans hlead₂).trans hlead₃, hat₃, hbet₃⟩
      · obtain ⟨t, hlead, hreset⟩ := reject_pointer ops hat hcells hc hneed hcc hpusi hrem
        exact hsync hlead hreset
    · obtain ⟨t, hlead, hreset⟩ := reject_cc ops hat hcells hc hneed hcc
      exact hsync hlead hreset

/-! ## The stream -/

/-- The first cell, and the cells behind it. -/
theorem hands_first {E' : Ctx} {calls : List (List TsPacket)} {cs : List TsPacket} {us' : List Sndu}
    (hlead : Leads (uleStep ops) s t)
    (hat : AtCell ((E'.enter c cs).handAll ops us) t)
    (hbet : Between ops ((c.cc + 1) % 16) t.p pend' rest')
    (hcells : Hands ops pend' rest' us' (cs ++ calls.flatten))
    (hchain : (c :: (cs ++ calls.flatten)).IsChain fun p q => q.cc = (p.cc + 1) % 16) :
    ∃ w, Feed ops s calls w ∧
      w.rx.map RxFrame.frame = E'.out ++ E'.frames ops (us ++ us') := by
  obtain ⟨w, hfeed, hout⟩ := hcells hat rfl hbet (inStep_tail hchain)
  refine ⟨w, Feed.head hlead hfeed, ?_⟩
  rw [hout, frames_append, ← List.append_assoc]
  rfl

theorem fault_forever (ops : UleOps) (h : s.pc = .fault) (n : ℕ) : (uleRun ops n s).pc = .fault := by
  refine iterate_inv (I := fun t : Ule => t.pc = .fault) (fun t ht => ?_) h n
  unfold uleStep
  rw [ht]
  exact ht

/-- From a state that is not sane the call does not return. -/
theorem never_done_of_not_sane (hinv : UleInv s) (h : ¬ Sane ops s) (n : ℕ) :
    (uleRun ops n s).pc ≠ .done := by
  refine iterate_of_tail (P := fun t : Ule => t.pc ≠ .done) ?_ (fun k => ?_) n
  · exact fun hpc => h (sane_of_done hpc)
  unfold UleInv at hinv
  unfold Sane at h
  cases hpc : s.pc with
  | complete =>
    rw [hpc] at h hinv
    simp only [AddrFits, not_forall] at h
    obtain ⟨skb, hskb, hrem, hcrc, hd, hfit⟩ := h
    obtain ⟨hlen, ht, hl, hsize⟩ := hinv.1.skb skb hskb
    rw [hrem, Nat.add_zero] at hl hsize
    have hc : Complete ops s skb :=
      ⟨hpc, hrem, hskb, hinv.1.five_le hlen, hl, ht, hsize, hinv.1.bridged, hcrc⟩
    have hfault := fault_forever ops (s := uleStep ops s) (by rw [complete_fault hc hd hfit]; rfl) k
    exact fun hdone => Pc.noConfusion (hfault.symm.trans hdone)
  | ext dest total =>
    rw [hpc] at h hinv
    simp only [ExtPassable, not_forall] at h
    obtain ⟨skb, hskb, hbad⟩ := h
    have hat : At (s.chain skb) ⟨s.p.uleNextHdr, s.p.uleSnduType⟩ s.p := ⟨hskb, rfl, rfl, rfl, rfl⟩
    by_cases hw : (s.chain skb).Within (s.chain skb).skb.size ⟨s.p.uleNextHdr, s.p.uleSnduType⟩
    · have hloop : (s.chain skb).SelfLoop ⟨s.p.uleNextHdr, s.p.uleSnduType⟩ := by
        by_contra hl
        exact hbad ⟨hw, hl⟩
      have hstay : ∃ total', (uleRun ops (k + 1) s).pc = .ext dest total' ∧
          At (s.chain skb) ⟨s.p.uleNextHdr, s.p.uleSnduType⟩ (uleRun ops (k + 1) s).p :=
        never_returned_of_selfLoop hpc hat hinv.2.2.2 hw hloop (k + 1)
      obtain ⟨total', hpc', -⟩ := hstay
      rw [uleRun, Function.iterate_succ_apply] at hpc'
      exact fun hdone => Pc.noConfusion (hpc'.symm.trans hdone)
    · have hfault := fault_forever ops (s := uleStep ops s) (by rw [ext_fault hpc hat hw]; rfl) k
      exact fun hdone => Pc.noConfusion (hfault.symm.trans hdone)
  | _ =>
    rw [hpc] at h
    exact absurd trivial h

/-- The buffer is the same, and the program has gone on by whole cells. -/
def Forward (s t : Ule) : Prop := t.h.buf = s.h.buf ∧ ∃ k, t.h.ts = s.h.ts + TS_SZ * k

theorem Forward.of_eq (h : t.h = s.h) : Forward s t := by
  unfold Forward
  rw [h]
  exact ⟨rfl, 0, rfl⟩

theorem Forward.trans {u : Ule} (h : Forward s t) (h' : Forward t u) : Forward s u := by
  obtain ⟨hbuf, k, hk⟩ := h
  obtain ⟨hbuf', k', hk'⟩ := h'
  exact ⟨hbuf'.trans hbuf, k + k', by rw [hk', hk, Nat.mul_add, Nat.add_assoc]⟩

theorem forward_allocSkb (ops : UleOps) (s : Ule) : Forward s (dvbNetUleAllocSkb ops s) := by
  unfold dvbNetUleAllocSkb
  split <;> exact .of_eq rfl

theorem forward_headers (s : Ule) (dest : List UInt8) : Forward s (dvbNetUleHeaders s dest) := by
  unfold dvbNetUleHeaders
  split_ifs <;> exact .of_eq rfl

theorem forward_sndType (ops : UleOps) (s : Ule) : Forward s (dvbNetUleSnduType ops s) := by
  unfold dvbNetUleSnduType
  dsimp only
  split
  · exact ⟨rfl, 1, rfl⟩
  · exact ⟨rfl, 1, rfl⟩
  · split_ifs
    · refine Forward.trans ?_ (forward_allocSkb ops _)
      exact ⟨rfl, 0, rfl⟩
    · refine Forward.trans ?_ (forward_allocSkb ops _)
      exact ⟨rfl, 0, rfl⟩

theorem forward_complete (ops : UleOps) (s : Ule) : Forward s (dvbNetUleComplete ops s) := by
  unfold dvbNetUleComplete dvbNetUleCheckCrc
  split_ifs
  · split
    · exact .of_eq rfl
    · split_ifs
      · exact .of_eq rfl
      · dsimp only
        split_ifs
        · exact Forward.trans (.of_eq rfl) (forward_headers _ _)
        · split
          · exact .of_eq rfl
          · exact .of_eq rfl
          · split
            · exact .of_eq rfl
            · exact Forward.trans (.of_eq rfl) (forward_headers _ _)
  · exact .of_eq rfl

/-- A step leaves the buffer alone, and does not go back in it. -/
theorem forward_step (ops : UleOps) (s : Ule) : Forward s (uleStep ops s) := by
  unfold uleStep
  cases hpc : s.pc <;> dsimp only
  case cell =>
    unfold dvbNetUleNewTsCell
    split_ifs
    · dsimp only
      split_ifs
      · exact ⟨rfl, 1, rfl⟩
      · exact ⟨rfl, 0, rfl⟩
    · exact .of_eq rfl
    · exact .of_eq rfl
  case pusi =>
    unfold dvbNetUleTsPusi
    split_ifs
    · dsimp only
      split_ifs
      · exact ⟨rfl, 1, rfl⟩
      · exact ⟨rfl, 0, rfl⟩
      · exact ⟨rfl, 1, rfl⟩
    · exact .of_eq rfl
  case newTs =>
    unfold dvbNetUleNewTs
    split_ifs <;> exact .of_eq rfl
  case pointer =>
    unfold dvbNetUleNewTsPointer
    split_ifs
    · dsimp only
      split_ifs <;> exact ⟨rfl, 0, rfl⟩
    · exact .of_eq rfl
    · exact .of_eq rfl
  case flush =>
    unfold dvbNetUleNewTsFlush
    split_ifs <;> exact ⟨rfl, 0, rfl⟩
  case payload =>
    unfold dvbNetUleNewPayload
    split_ifs
    · exact ⟨rfl, 1, rfl⟩
    · dsimp only
      by_cases h5 : be16 (s.h.buf s.h.fromWhere) (s.h.buf (s.h.fromWhere + 1)) &&& 0x7fff < 5
      · rw [if_pos h5]
        exact ⟨rfl, 1, rfl⟩
      · rw [if_neg h5]
        exact ⟨rfl, 0, rfl⟩
    · exact .of_eq rfl
    · exact .of_eq rfl
  case sndType => exact forward_sndType ops s
  case copy =>
    unfold dvbNetUleCopy
    dsimp only
    split <;> exact ⟨rfl, 0, rfl⟩
  case complete => exact forward_complete ops s
  case ext =>
    unfold handleUleExtensions
    split
    · exact .of_eq rfl
    · split_ifs <;> exact .of_eq rfl
  case deliver =>
    unfold dvbNetUleDeliver
    split <;> exact .of_eq rfl
  case more =>
    unfold dvbNetUleMore
    dsimp only
    split_ifs
    · exact ⟨rfl, 0, rfl⟩
    · exact ⟨rfl, 1, rfl⟩
    · exact ⟨rfl, 1, rfl⟩
  case done => exact .of_eq rfl
  case fault => exact .of_eq rfl

theorem forward_run (ops : UleOps) (s : Ule) (n : ℕ) : Forward s (uleRun ops n s) :=
  iterate_inv (I := Forward s) (fun t ht => ht.trans (forward_step ops t)) (.of_eq rfl) n

theorem done_forever (ops : UleOps) (h : s.pc = .done) (n : ℕ) : (uleRun ops n s).pc = .done := by
  refine iterate_inv (I := fun t : Ule => t.pc = .done) (fun t ht => ?_) h n
  rw [step_done ops ht]
  exact ht

/-! ## Exactly when -/

variable {calls pre : List (List TsPacket)} {front cs : List TsPacket}

/-- The pointer field of the cell, if there is one, points into the cell. -/
def PointerFits (c : TsPacket) : Prop := c 1 &&& TS_PUSI ≠ 0 → (c 4).toNat ≤ 183

instance (c : TsPacket) : Decidable (PointerFits c) := by
  unfold PointerFits
  infer_instance

variable (ops) in
/-- With the cell `c` a stream of the SNDUs `us` sets in.  The bytes `lead` in front of the pointer target
are anything. -/
structure Onset (c : TsPacket) (cs : List TsPacket) (calls : List (List TsPacket)) (lead : List UInt8)
    (us : List Sndu) : Prop where
  pusi : c 1 &&& TS_PUSI ≠ 0
  plain : ∀ u ∈ us, u.Plain
  carries : Carries ops 2 lead us (c :: (cs ++ calls.flatten))

variable (ops) in
/-- The calls return, and the last frames that they hand up are those of `us`, as far as the addresses are for
the device. -/
def Recovers (s : Ule) (calls : List (List TsPacket)) (us : List Sndu) : Prop :=
  ∃ t, Feed ops s calls t ∧
    (us.filter fun u => u.Wanted ops s.p.rxMode s.p.multiMacs).map Sndu.frame <:+ t.rx.map RxFrame.frame

variable (ops) in
/-- `dvb_net_ule` is called with each of `pre`, and then with `last`.  As far as the cell at the address `a` of
`last`, it meets only SNDUs that it can dispose of. -/
def Disposes (a : ℕ) (last : List TsPacket) : Ule → List (List TsPacket) → Prop
  | s, [] => ∀ n, (uleRun ops n (s.callCells last)).h.ts ≤ a → Sane ops (uleRun ops n (s.callCells last))
  | s, cells :: pre => (∀ n, Sane ops (uleRun ops n (s.callCells cells))) ∧
      ∀ t, Leads (uleStep ops) (s.callCells cells) t → t.pc = .done → Disposes a last t pre

theorem not_disposes {a n : ℕ} {last : List TsPacket} (hts : (uleRun ops n (s.callCells last)).h.ts ≤ a)
    (hbad : ¬ Sane ops (uleRun ops n (s.callCells last))) : ¬ Disposes ops a last s [] :=
  fun h => hbad (h n hts)

theorem uleRun_add (ops : UleOps) (n k : ℕ) (s : Ule) : uleRun ops n (uleRun ops k s) = uleRun ops (n + k) s :=
  (Function.iterate_add_apply (uleStep ops) n k s).symm

theorem ahead_drop {h : DvbNetUleHandle} {a : ℕ} (ha : Ahead h a cells) :
    ∀ j, Ahead h (a + TS_SZ * j) (cells.drop j) ∨ cells.length < j := by
  intro j
  induction j with
  | zero => exact .inl ha
  | succ j ih =>
    rcases ih with ih | hlt
    · rcases hrest : cells.drop j with _ | ⟨c, rest⟩
      · exact .inr (Nat.lt_succ_of_le (List.drop_eq_nil_iff.mp hrest))
      · rw [hrest] at ih
        have htail : cells.drop (j + 1) = rest := by rw [← List.drop_drop, hrest]; rfl
        rw [htail]
        have hnext := ih.next
        rw [Nat.add_assoc, ← Nat.mul_succ] at hnext
        exact .inl hnext
    · exact .inr (Nat.lt_succ_of_lt hlt)

/-- In the first `m` cells of a call the pointer fields fit, if those of the cells do. -/
theorem pointerInCell_call {m : ℕ} (hfits : ∀ p ∈ cells.take m, PointerFits p) {n : ℕ}
    (hts : (uleRun ops n (s.callCells cells)).h.ts < TS_SZ * m) :
    PointerInCell (uleRun ops n (s.callCells cells)) := by
  obtain ⟨hbuf, j, hj⟩ := forward_run ops (s.callCells cells) n
  have hj' : (uleRun ops n (s.callCells cells)).h.ts = TS_SZ * j := hj.trans (Nat.zero_add _)
  intro _ _ hpusi
  unfold Pusi at hpusi
  rw [hbuf, hj'] at hpusi ⊢
  have hjm : j < m := Nat.lt_of_mul_lt_mul_left (hj'.symm.trans_lt hts)
  have hat := atCell_call (s := s) (E := ⟨[], 0, s.p.rxMode, s.p.multiMacs, s.rx.map RxFrame.frame⟩) cells
    rfl rfl rfl
  have hend : ∀ i, cells.length ≤ j → (s.callCells cells).h.buf (TS_SZ * j + i) = 0 := by
    intro i hle
    refine List.getD_eq_default _ _ ?_
    rw [length_cells]
    exact Nat.le_add_right_of_le (Nat.mul_le_mul_left _ hle)
  by_cases hlt : j < cells.length
  · obtain ⟨c, rest, hdrop⟩ : ∃ c rest, cells.drop j = c :: rest :=
      List.exists_cons_of_ne_nil (List.drop_eq_nil_iff.not.mpr (Nat.not_le.mpr hlt))
    have ha := (ahead_drop hat.ahead j).resolve_right (Nat.not_lt.mpr hlt.le)
    rw [hdrop] at ha
    have hbyte : ∀ {i}, i < 188 → (s.callCells cells).h.buf (TS_SZ * j + i) = c i := by
      intro i hi
      have := ha.byte hi
      rwa [show (s.callCells cells).h.ts = 0 from rfl, Nat.zero_add] at this
    have hget : cells[j]? = some c := by
      rw [← Nat.add_zero j, ← List.getElem?_drop, hdrop]
      rfl
    have hmem : c ∈ cells.take m := List.mem_of_getElem? ((List.getElem?_take_of_lt hjm).trans hget)
    rw [hbyte (by decide)] at hpusi ⊢
    have := hfits c hmem hpusi
    omega
  · rw [hend 1 (Nat.not_lt.mp hlt)] at hpusi
    exact absurd rfl hpusi

/-- A state in the first `m` cells of a call is one of the runs that have been looked at. -/
theorem run_call {m : ℕ} (hrun : Run ops PointerInCell s) (hdone : s.pc = .done)
    (hfits : ∀ p ∈ cells.take m, PointerFits p) {n : ℕ}
    (hts : (uleRun ops n (s.callCells cells)).h.ts < TS_SZ * m) :
    Run ops PointerInCell (uleRun ops n (s.callCells cells)) := by
  refine Run.iterate (.call _ _ hrun hdone) n fun k hk => pointerInCell_call hfits ?_
  obtain ⟨d, rfl⟩ := Nat.exists_eq_add_of_lt hk
  obtain ⟨-, j, hj⟩ := forward_run ops (uleRun ops k (s.callCells cells)) (d + 1)
  rw [uleRun_add, show d + 1 + k = k + d + 1 by omega] at hj
  omega

/-- A state at which all cells of a call are allowed. -/
theorem run_call_all (hrun : Run ops PointerInCell s) (hdone : s.pc = .done)
    (hfits : ∀ p ∈ cells, PointerFits p) (n : ℕ) : Run ops PointerInCell (uleRun ops n (s.callCells cells)) := by
  refine run_call (m := (uleRun ops n (s.callCells cells)).h.ts + 1) hrun hdone
    (fun p hp => hfits p (List.mem_of_mem_take hp)) ?_
  exact (Nat.lt_succ_self _).trans_le (Nat.le_mul_of_pos_left _ (by decide))

/-- A call that returns has met only states from which it can go on. -/
theorem sane_of_returns (hinv : UleInv (uleRun ops n s)) (hlead : Leads (uleStep ops) s t) (hdone : t.pc = .done) :
    Sane ops (uleRun ops n s) := by
  by_contra hbad
  obtain ⟨k, rfl⟩ := hlead
  refine never_done_of_not_sane hinv hbad k ?_
  have hcomm : uleRun ops k (uleRun ops n s) = uleRun ops n (uleRun ops k s) :=
    Function.Commute.iterate_iterate_self (uleStep ops) k n s
  rw [hcomm]
  exact done_forever ops hdone n

theorem Feed.returns {w : Ule} (h : Feed ops s calls w) :
    ∃ t, Leads (uleStep ops) s t ∧ t.pc = .done := by
  cases h with
  | last hlead hpc => exact ⟨_, hlead, hpc⟩
  | call hlead hpc _ => exact ⟨_, hlead, hpc⟩

/-- A call that has returned stays where it is. -/
theorem Leads.eq_of_done (hlead : Leads (uleStep ops) s t) (hdone : s.pc = .done) : t = s := by
  obtain ⟨k, rfl⟩ := hlead
  exact Function.iterate_fixed (step_done ops hdone) k

/-- The calls behind one that returns. -/
theorem Feed.behind {w : Ule} (h : Feed ops s calls w) (hlead : Leads (uleStep ops) s t) (hdone : t.pc = .done) :
    Feed ops t calls w := by
  cases h with
  | last hlead' hpc =>
    obtain rfl := hlead.unique_of_halt hlead' (step_done ops hdone) (step_done ops hpc)
    exact .last (Leads.refl _) hpc
  | call hlead' hpc hrest =>
    obtain rfl := hlead.unique_of_halt hlead' (step_done ops hdone) (step_done ops hpc)
    exact .call (Leads.refl _) hpc hrest

/-- The pointer field of the first cell points into it. -/
theorem Onset.pointerFits (ho : Onset ops c cs calls lead us) : PointerFits c := by
  obtain ⟨us₁, pend, us₂, tail, rest, -, hst, -⟩ := packs_start ho.carries.packs ho.plain ho.pusi
  obtain ⟨-, hpf, hbody⟩ := view_some hst.view
  have hlen : (c.bytes.drop 5).length = 183 := by
    rw [List.length_drop, c.length_bytes]
  rw [hbody, List.length_append] at hlen
  intro _
  omega

/-- The cells up to the first one of the stream. -/
theorem fits_take (hfits : ∀ p ∈ front, PointerFits p) (hc : PointerFits c) :
    ∀ p ∈ (front ++ c :: cs).take (front.length + 1), PointerFits p := by
  intro p hp
  rw [List.take_append, List.take_of_length_le (Nat.le_succ _), Nat.add_sub_cancel_left] at hp
  rcases List.mem_append.mp hp with hp | hp
  · exact hfits p hp
  · rw [List.mem_singleton.mp hp]
    exact hc

theorem lt_succ_cell {a n : ℕ} (h : a ≤ TS_SZ * n) : a < TS_SZ * (n + 1) :=
  h.trans_lt (Nat.mul_lt_mul_of_pos_left (Nat.lt_succ_self n) (by decide))

/-- **Calls that return** have met only SNDUs that they could dispose of. -/
theorem disposes_of_feed (hc : PointerFits c) (hrun : Run ops PointerInCell s) (hdone : s.pc = .done)
    (hfits : ∀ p ∈ pre.flatten ++ front, PointerFits p)
    (h : Feed ops s (pre ++ (front ++ c :: cs) :: calls) t) :
    Disposes ops (TS_SZ * front.length) (front ++ c :: cs) s pre := by
  induction pre generalizing s with
  | nil =>
    intro n hn
    cases h with
    | call hlead _ hfeed =>
      obtain rfl := Leads.eq_of_done hlead hdone
      obtain ⟨u, hlead', hdone'⟩ := hfeed.returns
      exact sane_of_returns (inv_run (run_call hrun hdone (fits_take hfits hc) (lt_succ_cell hn))) hlead' hdone'
  | cons cells pre ih =>
    have hcells : ∀ p ∈ cells, PointerFits p := fun p hp =>
      hfits p (List.mem_append_left _ (List.mem_flatten_of_mem (List.mem_cons_self ..) hp))
    cases h with
    | call hlead _ hfeed =>
      obtain rfl := Leads.eq_of_done hlead hdone
      obtain ⟨u, hlead', hdone'⟩ := hfeed.returns
      refine ⟨fun n => sane_of_returns (inv_run (run_call_all hrun hdone hcells n)) hlead' hdone', ?_⟩
      intro w hw hwdone
      have hrest := hfeed.behind hw hwdone
      obtain ⟨k, rfl⟩ := hw
      refine ih (run_call_all hrun hdone hcells k) hwdone (fun p hp => hfits p ?_) hrest
      rw [List.flatten_cons, List.append_assoc]
      exact List.mem_append_right _ hp

/-- The calls up to the first cell of the stream. -/
theorem good_call (hrun : Run ops PointerInCell s) (hdone : s.pc = .done) {cells : List TsPacket} {a m : ℕ}
    (hfits : ∀ p ∈ cells.take m, PointerFits p) (ham : a ≤ TS_SZ * m)
    (hsane : ∀ n, (uleRun ops n (s.callCells cells)).h.ts < a → Sane ops (uleRun ops n (s.callCells cells)))
    (n : ℕ) (hn : (uleRun ops n (s.callCells cells)).h.ts < (s.callCells cells).h.ts + a) :
    UleInv (uleRun ops n (s.callCells cells)) ∧ Sane ops (uleRun ops n (s.callCells cells)) := by
  have hlt : (uleRun ops n (s.callCells cells)).h.ts < a := hn.trans_eq (Nat.zero_add a)
  exact ⟨inv_run (run_call hrun hdone hfits (hlt.trans_le ham)), hsane n hlt⟩

/-- The stream, once the run has come to its first cell. -/
theorem recovers_arrived (halloc : ops.AllocOk) (ho : Onset ops c cs calls lead us)
    (hrun : Run ops PointerInCell s) (hpc : s.pc = .cell) (hnew : s.h.newTs = true)
    (hahead : Ahead s.h s.h.ts (c :: cs)) (hsane : SaneIn ops s.h.ts s) : Recovers ops s calls us := by
  obtain ⟨hpusi, hus, h⟩ := ho
  obtain ⟨hinv, hsplit⟩ := splitInv_run hrun
  have hat : AtCell ⟨c :: cs, s.p.tscc, s.p.rxMode, s.p.multiMacs, s.rx.map RxFrame.frame⟩ s :=
    ⟨hpc, hnew, hahead, rfl, rfl, rfl⟩
  have hc := h.sound c (List.mem_cons_self ..)
  have hsound := fun d hd => h.sound d (List.mem_cons_of_mem c hd)
  have hchain := h.continuous
  obtain ⟨us₁, pend', us₂, tail, rest', rfl, hst, hpacks⟩ := packs_start h.packs hus hpusi
  have hus₂ : ∀ u ∈ us₂, u.Plain := fun u hu =>
    hus u (List.mem_append_right _ (List.mem_append_right _ hu))
  obtain ⟨t, g, hlead, hat', hbet⟩ :=
    first_cell halloc hat rfl hc hinv hsplit hsane hst.plain hst.ends hst.ne hst.view
  have hhands := stream_run halloc hpacks hus₂ hsound hchain.tail hst.pend
  obtain ⟨w, hfeed, hout⟩ := hands_first hlead hat' hbet hhands hchain
  exact ⟨w, hfeed, _, hout.symm⟩

/-- **What can be disposed of** does not keep the calls from the stream. -/
theorem recovers_of_disposes (halloc : ops.AllocOk) (ho : Onset ops c cs calls lead us)
    (hrun : Run ops PointerInCell s) (hdone : s.pc = .done) (hfits : ∀ p ∈ pre.flatten ++ front, PointerFits p)
    (h : Disposes ops (TS_SZ * front.length) (front ++ c :: cs) s pre) :
    Recovers ops s (pre ++ (front ++ c :: cs) :: calls) us := by
  induction pre generalizing s with
  | nil =>
    have hfront : ∀ p ∈ (front ++ c :: cs).take front.length, PointerFits p := by
      rw [List.take_left' rfl]
      exact hfits
    have hat := atCell_call (s := s) (E := ⟨[], 0, s.p.rxMode, s.p.multiMacs, s.rx.map RxFrame.frame⟩)
      (front ++ c :: cs) rfl rfl rfl
    obtain ⟨t, ⟨k, hk⟩, hpc, hnew, hahead, hts, hmode, hmacs⟩ := through_cells halloc front rfl rfl hat.ahead
      (good_call hrun hdone hfront (Nat.le_refl _) fun n hn => h n hn.le)
    have hk : uleRun ops k (s.callCells (front ++ c :: cs)) = t := hk
    have hts : t.h.ts = TS_SZ * front.length := hts.trans (Nat.zero_add _)
    have hrun' : Run ops PointerInCell t := by
      rw [← hk] at hts ⊢
      exact run_call hrun hdone (fits_take hfits ho.pointerFits) (lt_succ_cell hts.le)
    have hsane : SaneIn ops t.h.ts t := by
      intro n hn
      rw [← hk, uleRun_add] at hn ⊢
      exact h (n + k) (by rw [hn, hk, hts])
    obtain ⟨w, hfeed, hout⟩ := recovers_arrived halloc ho hrun' hpc hnew hahead hsane
    rw [hmode, hmacs] at hout
    exact ⟨w, .call (Leads.refl s) hdone (Feed.head ⟨k, hk⟩ hfeed), hout⟩
  | cons cells pre ih =>
    have hcells : ∀ p ∈ cells, PointerFits p := fun p hp =>
      hfits p (List.mem_append_left _ (List.mem_flatten_of_mem (List.mem_cons_self ..) hp))
    have hat := atCell_call (s := s) (E := ⟨[], 0, s.p.rxMode, s.p.multiMacs, s.rx.map RxFrame.frame⟩) cells
      rfl rfl rfl
    have hahead : Ahead (s.callCells cells).h (s.callCells cells).h.ts (cells ++ []) := by
      rw [List.append_nil]
      exact hat.ahead
    obtain ⟨t, hlead, hpc, -, hahead, -, hmode, hmacs⟩ := through_cells halloc cells rfl rfl hahead
      (good_call hrun hdone (fun p hp => hcells p (List.mem_of_mem_take hp)) (Nat.le_refl _) fun n _ => h.1 n)
    have hret : uleStep ops t = t.goto .done := by
      have hend : t.h.ts = t.h.tsEnd := hahead.1
      unfold uleStep
      rw [hpc]
      dsimp only
      rw [if_neg (by rw [hend]; exact Nat.lt_irrefl _)]
    have hlead := hlead.tail hret
    obtain ⟨k, hk⟩ := hlead
    have hrun' : Run ops PointerInCell (t.goto .done) := hk ▸ run_call_all hrun hdone hcells k
    obtain ⟨w, hfeed, hout⟩ := ih hrun' rfl (fun p hp => hfits p (by
      rw [List.flatten_cons, List.append_assoc]
      exact List.mem_append_right _ hp)) (h.2 _ ⟨k, hk⟩ rfl)
    have hout : _ <:+ _ := hout
    change (us.filter fun u => u.Wanted ops t.p.rxMode t.p.multiMacs).map Sndu.frame <:+ _ at hout
    rw [hmode, hmacs] at hout
    exact ⟨w, .call (Leads.refl s) hdone (Feed.head ⟨k, hk⟩ hfeed), hout⟩

/-- A cell that goes on with an SNDU of which the decapsulator does not know. -/
def strayCell : TsPacket := uleCell false 9 [1, 2, 3]

/-- An SNDU is broken off, and the cell behind it does not have the next counter. -/
def brokenCell : TsPacket := uleCell true 3 [0, 0x81, 0x30, 8, 0]

theorem onset_ip : Onset plainOps ipCell [] [] [] [ipSndu 7] := by
  refine ⟨by decide +kernel, fun u hu => ?_, carries_ip⟩
  obtain rfl := List.mem_singleton.mp hu
  exact plain_ipSndu _ (by decide)

/-- A call that returns is sane as soon as its states until then are. -/
theorem sane_of_done_at {m : ℕ} (hdone : (uleRun ops m s).pc = .done) (h : ∀ n < m, Sane ops (uleRun ops n s))
    (n : ℕ) : Sane ops (uleRun ops n s) := by
  rcases Nat.lt_or_ge n m with hn | hn
  · exact h n hn
  · obtain ⟨k, rfl⟩ := Nat.exists_eq_add_of_le hn
    rw [Nat.add_comm, ← uleRun_add]
    exact sane_of_done (done_forever ops hdone k)

/-- The bridged SNDU starts in the last four bytes of a cell. -/
def splitBridged : TsPacket :=
  uleCell true 0 (179 :: (List.replicate 179 0 ++ (bridgedTwice.bytes plainOps).take 4))
    (by decide +kernel)

/-- It is completed in the next cell, in which another SNDU starts. -/
def restBridged : TsPacket :=
  uleCell true 1 (30 :: ((bridgedTwice.bytes plainOps).drop 4 ++ (ipSndu 7 seven_pos seven_le).bytes plainOps))
    (by decide +kernel)

end Net
end TbsMedia
