import Mathlib
import TbsMedia.DvbNet.UleStream
import TbsMedia.DvbNet.UleTermination

/-!
# Cells with any content

What the decapsulator does with a cell of which nothing is known.  An SNDU that has arrived in it may be
anything: its processing comes to an end unless its extension headers are not passable, or its address is
not in the memory of the skb.  `Sane` says of a state that the next step is not a step at such a place.

Everything else in a cell moves the cursor.  A cell is looked at once more where its counter or its pointer
field does not fit, but then the decoder waits for PUSI and does not reject it again; from there on every
round of the loop takes at least a byte of the cell, or ends the SNDU that was in progress.  So the call
comes to the next cell, and a call all of whose states are sane returns.

* `settle`: an SNDU with any content is disposed of.
* `cell_leaves`: a cell with any content is left.
* `through_cells`: a row of such cells.
-/

namespace TbsMedia
namespace Net

open Lib
open Demux (TsPacket)

variable {ops : UleOps} {s t w : Ule} {E : Ctx} {skb : SkBuff} {dest : List UInt8} {total : ℤ}

/-! ## The condition on the states -/

/-- The extension header that is handled next can be got past. -/
def ExtPassable (s : Ule) : Prop :=
  ∀ skb ∈ s.p.uleSkb, (s.chain skb).Passable ⟨s.p.uleNextHdr, s.p.uleSnduType⟩

instance (s : Ule) : Decidable (ExtPassable s) := by
  unfold ExtPassable Chain.Passable
  infer_instance

/-- The destination address that is looked at next, if any, lies in the memory of the skb. -/
def AddrFits (ops : UleOps) (s : Ule) : Prop :=
  ∀ skb ∈ s.p.uleSkb, s.p.uleSnduRemain = 0 → uleCrc ops s.p skb = expectedCrc skb →
    s.p.uleDbit = 0 → skb.data + ETH_ALEN ≤ skb.size

instance (ops : UleOps) (s : Ule) : Decidable (AddrFits ops s) := by
  unfold AddrFits
  infer_instance

/-- The next step can dispose of what it finds in the SNDU. -/
def Sane (ops : UleOps) (s : Ule) : Prop :=
  match s.pc with
  | .complete => AddrFits ops s
  | .ext _ _ => ExtPassable s
  | _ => True

instance (ops : UleOps) (s : Ule) : Decidable (Sane ops s) := by
  unfold Sane
  split <;> infer_instance

theorem Sane.addr (h : Sane ops s) (hpc : s.pc = .complete) : AddrFits ops s := by
  unfold Sane at h
  rw [hpc] at h
  exact h

theorem Sane.ext (h : Sane ops s) (hpc : s.pc = .ext dest total) : ExtPassable s := by
  unfold Sane at h
  rw [hpc] at h
  exact h

theorem sane_of_done (hpc : s.pc = .done) : Sane ops s := by
  unfold Sane
  rw [hpc]
  trivial

/-! ## An SNDU with any content -/

/-- From `s` to `t` the cell and the feed have stayed as they are, and frames may have been handed
up. -/
structure Settles (s t : Ule) : Prop where
  h : t.h = s.h
  feed : SameFeed s.p t.p
  rx : ∃ g, t.rx.map RxFrame.frame = s.rx.map RxFrame.frame ++ g

theorem SameFeed.trans {p q r : DvbNetPriv} (h : SameFeed p q) (h' : SameFeed q r) :
    SameFeed p r :=
  ⟨h'.needPusi.trans h.needPusi, h'.tscc.trans h.tscc, h'.rxMode.trans h.rxMode,
    h'.multiMacs.trans h.multiMacs⟩

theorem Settles.trans {u : Ule} (h : Settles s t) (h' : Settles t u) : Settles s u := by
  obtain ⟨g, hg⟩ := h.rx
  obtain ⟨g', hg'⟩ := h'.rx
  refine ⟨h'.h.trans h.h, h.feed.trans h'.feed, g ++ g', ?_⟩
  rw [hg', hg, List.append_assoc]

/-- A step that hands up nothing and changes only the SNDU. -/
theorem Settles.quiet (hh : t.h = s.h) (hfeed : SameFeed s.p t.p) (hrx : t.rx = s.rx) :
    Settles s t :=
  ⟨hh, hfeed, [], by rw [hrx, List.append_nil]⟩

/-- The SNDU is disposed of. -/
structure Settled (s t : Ule) : Prop where
  pc : t.pc = .more
  fresh : Fresh t.p
  settles : Settles s t

/-- The last step of an SNDU that is handed up. -/
theorem settled_deliver (ops : UleOps) (hpc : s.pc = .deliver dest)
    (hskb : s.p.uleSkb ≠ none) : Settled s (uleStep ops s) := by
  obtain ⟨skb, hskb⟩ := Option.ne_none_iff_exists'.mp hskb
  unfold uleStep
  rw [hpc]
  dsimp only
  rw [dvbNetUleDeliver, hskb]
  refine ⟨rfl, fresh_reset _, rfl, ⟨rfl, rfl, rfl, rfl⟩, _, List.map_append⟩

variable (ops) in
/-- All steps of the run in the cell at address `a` are sane. -/
def SaneIn (a : ℕ) (s : Ule) : Prop :=
  ∀ n, (uleRun ops n s).h.ts = a → Sane ops (uleRun ops n s)

theorem SaneIn.step {a : ℕ} (h : SaneIn ops a s) : SaneIn ops a (uleStep ops s) := by
  intro n hn
  have hrun : uleRun ops n (uleStep ops s) = uleRun ops (n + 1) s :=
    (Function.iterate_succ_apply (uleStep ops) n s).symm
  rw [hrun] at hn ⊢
  exact h (n + 1) hn

theorem SaneIn.leads {a : ℕ} (h : SaneIn ops a s) (hst : Leads (uleStep ops) s t) :
    SaneIn ops a t := by
  obtain ⟨k, rfl⟩ := hst
  exact iterate_inv (I := SaneIn ops a) (fun _ => SaneIn.step) h k

variable (ops) in
/-- In the loop over the extension headers of the SNDU of `s`. -/
structure Looping (s : Ule) (size : ℕ) (t : Ule) : Prop where
  pc : ∃ dest total, t.pc = .ext dest total
  skb : ∃ skb, t.p.uleSkb = some skb ∧ skb.size = size
  type : t.p.uleSnduType < ETH_P_802_3_MIN
  settles : Settles s t
  sane : SaneIn ops s.h.ts t

/-- The SNDU is about to be handed up. -/
structure Leaving (s t : Ule) : Prop where
  pc : ∃ dest, t.pc = .deliver dest
  skb : t.p.uleSkb ≠ none
  settles : Settles s t

/-- One extension header. -/
theorem looping_step {size : ℕ} (hl : Looping ops s size t) :
    (Settled s (uleStep ops t) ∨ Leaving s (uleStep ops t)) ∨
      Looping ops s size (uleStep ops t) ∧ loopMeasure size (uleStep ops t) < loopMeasure size t := by
  obtain ⟨⟨dest, total, hpc⟩, ⟨skb, hskb, rfl⟩, ht, hs, hsane⟩ := hl
  have hat : At (t.chain skb) ⟨t.p.uleNextHdr, t.p.uleSnduType⟩ t.p := ⟨hskb, rfl, rfl, rfl, rfl⟩
  have hpass := (hsane 0 (congrArg DvbNetUleHandle.ts hs.h)).ext hpc skb hskb
  have hsane' := hsane.step
  by_cases hn : ∃ hd', (t.chain skb).Next ⟨t.p.uleNextHdr, t.p.uleSnduType⟩ hd'
  · obtain ⟨hd', hn⟩ := hn
    have hstep : uleStep ops t = _ := ext_next hpc hat hn hpass.1
    have hfeed : ∀ l, SameFeed t.p (pull ((t.chain skb).moved t.p
        ⟨t.p.uleNextHdr, t.p.uleSnduType⟩ hd') l) := by
      intro l
      rw [pull, (at_moved hat hd').skb]
      exact ⟨rfl, rfl, rfl, rfl⟩
    by_cases ht' : hd'.type < 1536
    · right
      rw [if_pos ht'] at hstep
      have hlt := measure_next ht hn hpass
      rw [hstep] at hsane' ⊢
      refine ⟨⟨⟨dest, _, rfl⟩, ⟨skb, hskb, rfl⟩, ht', ?_, hsane'⟩, hlt⟩
      exact hs.trans (.quiet rfl ⟨rfl, rfl, rfl, rfl⟩ rfl)
    · left
      right
      rw [if_neg ht'] at hstep
      rw [hstep]
      refine ⟨⟨dest, rfl⟩, ?_, hs.trans (.quiet rfl (hfeed _) rfl)⟩
      refine (pull_frame _ _).2 ?_
      rw [(at_moved hat hd').skb]
      rintro ⟨⟩
  · left
    left
    have hstep : uleStep ops t = _ := ext_stop hpc hat ht (fun hd' hn' => hn ⟨hd', hn'⟩) hpass.1
    rw [hstep]
    exact ⟨rfl, fresh_reset _, hs.trans (.quiet rfl ⟨rfl, rfl, rfl, rfl⟩ rfl)⟩

/-- The SNDU with its extension headers is disposed of. -/
theorem settle_loop {size : ℕ} (hl : Looping ops s size t) :
    ∃ w, Leads (uleStep ops) t w ∧ Settled s w := by
  obtain ⟨u, hlead, hu⟩ := exists_leads_of_measure (Looping ops s size)
    (fun t => Settled s (uleStep ops t) ∨ Leaving s (uleStep ops t)) (loopMeasure size)
    (fun t ht => looping_step ht) hl
  rcases hu with hu | ⟨⟨dest, hpc⟩, hskb, hs⟩
  · exact ⟨_, hlead.tail rfl, hu⟩
  · obtain ⟨hpc', hfresh, hs'⟩ := settled_deliver ops hpc hskb
    exact ⟨_, (hlead.tail rfl).tail rfl, hpc', hfresh, hs.trans hs'⟩

/-- **An SNDU that has arrived is disposed of**, whatever it contains. -/
theorem settle (hpc : s.pc = .complete) (hdec : DecInv s.p) (hskb : s.p.uleSkb = some skb)
    (hrem : s.p.uleSnduRemain = 0) (hsane : SaneIn ops s.h.ts s) :
    ∃ t, Leads (uleStep ops) s t ∧ Settled s t := by
  obtain ⟨hlen, ht, hl, hsize⟩ := hdec.skb skb hskb
  rw [hrem, Nat.add_zero] at hl hsize
  have hfits := (hsane 0 rfl).addr hpc skb hskb hrem
  have hstep : uleStep ops s =
      dvbNetUleCheckCrc ops s skb (uleCrc ops s.p skb) (expectedCrc skb) := by
    unfold uleStep
    rw [hpc]
    dsimp only
    rw [dvbNetUleComplete, if_pos hrem, hskb]
  by_cases hcrc : uleCrc ops s.p skb = expectedCrc skb
  · have hc : Complete ops s skb :=
      ⟨hpc, hrem, hskb, hdec.five_le hlen, hl, ht, hsize, hdec.bridged, hcrc⟩
    by_cases hdrop : Drops ops s.p skb
    · obtain ⟨reads, -, hdropped⟩ := complete_drop hc hdrop (hfits hcrc hdrop.1)
      refine ⟨_, Leads.single _, ?_⟩
      rw [hdropped]
      exact ⟨rfl, fresh_reset _, .quiet rfl ⟨rfl, rfl, rfl, rfl⟩ rfl⟩
    · have hfits' : s.p.uleDbit ≠ 0 ∨ skb.data + ETH_ALEN ≤ skb.size := by
        by_cases hd : s.p.uleDbit = 0
        · exact Or.inr (hfits hcrc hd)
        · exact Or.inl hd
      obtain ⟨reads, pulls, hpassed, -, -⟩ := complete_pass hc hdrop hfits'
      have hsane' := hsane.step
      rw [hpassed] at hsane'
      rcases headers_cases (s := { s with
          p.uleSkb := some (skb.strip s.p.uleDbit), p.reads := reads, p.pulls := pulls }) rfl
          (destOf s skb) with ⟨hlt, hpc', hp'⟩ | ⟨-, hgoto⟩
      · have hloop : Looping ops s skb.size (uleStep ops s) := by
          rw [hpassed]
          refine ⟨⟨_, _, hpc'⟩, ⟨skb.strip s.p.uleDbit, ?_, strip_size skb _⟩, ?_, ?_, hsane'⟩
          · rw [hp']
          · rw [hp']
            exact hlt
          · refine .quiet ?_ ?_ ?_
            · unfold dvbNetUleHeaders
              split_ifs <;> rfl
            · rw [hp']
              exact ⟨rfl, rfl, rfl, rfl⟩
            · unfold dvbNetUleHeaders
              split_ifs <;> rfl
        obtain ⟨w, hlead, hw⟩ := settle_loop hloop
        exact ⟨w, Leads.head rfl hlead, hw⟩
      · rw [hgoto] at hpassed
        have hset := settled_deliver ops (s := Ule.goto { s with
          p.uleSkb := some (skb.strip s.p.uleDbit), p.reads := reads, p.pulls := pulls }
          (.deliver (destOf s skb))) rfl (by rintro ⟨⟩)
        refine ⟨_, Leads.head hpassed (Leads.single _), hset.pc, hset.fresh, ?_⟩
        refine Settles.trans ?_ hset.settles
        exact .quiet rfl ⟨rfl, rfl, rfl, rfl⟩ rfl
  · refine ⟨_, Leads.single _, ?_⟩
    rw [hstep, dvbNetUleCheckCrc, if_pos hcrc]
    exact ⟨rfl, fresh_reset _, .quiet rfl ⟨rfl, rfl, rfl, rfl⟩ rfl⟩

/-! ## A cell with any content -/

/-- From `s` to `t` the call and the cell have stayed as they are, and the address filter. -/
structure SameCell (s t : Ule) : Prop where
  buf : t.h.buf = s.h.buf
  ts : t.h.ts = s.h.ts
  tsEnd : t.h.tsEnd = s.h.tsEnd
  rxMode : t.p.rxMode = s.p.rxMode
  multiMacs : t.p.multiMacs = s.p.multiMacs

/-- From `s` the call has come to the head of its loop, in front of the next cell. -/
structure NextCell (s t : Ule) : Prop where
  pc : t.pc = .cell
  newTs : t.h.newTs = true
  buf : t.h.buf = s.h.buf
  ts : t.h.ts = s.h.ts + TS_SZ
  tsEnd : t.h.tsEnd = s.h.tsEnd
  rxMode : t.p.rxMode = s.p.rxMode
  multiMacs : t.p.multiMacs = s.p.multiMacs

theorem SameCell.refl (s : Ule) : SameCell s s := ⟨rfl, rfl, rfl, rfl, rfl⟩

theorem SameCell.trans {u : Ule} (h : SameCell s t) (h' : SameCell t u) : SameCell s u :=
  ⟨h'.buf.trans h.buf, h'.ts.trans h.ts, h'.tsEnd.trans h.tsEnd, h'.rxMode.trans h.rxMode,
    h'.multiMacs.trans h.multiMacs⟩

theorem SameCell.next {u : Ule} (h : SameCell s t) (h' : NextCell t u) : NextCell s u :=
  ⟨h'.pc, h'.newTs, h'.buf.trans h.buf, h'.ts.trans (by rw [h.ts]), h'.tsEnd.trans h.tsEnd,
    h'.rxMode.trans h.rxMode, h'.multiMacs.trans h.multiMacs⟩

theorem Settles.sameCell (h : Settles s t) : SameCell s t :=
  ⟨by rw [h.h], by rw [h.h], by rw [h.h], h.feed.rxMode, h.feed.multiMacs⟩

variable (ops) in
/-- All states of the run in the cell at address `a` have the invariant and are sane. -/
def GoodIn (a : ℕ) (s : Ule) : Prop :=
  ∀ n, (uleRun ops n s).h.ts = a → UleInv (uleRun ops n s) ∧ Sane ops (uleRun ops n s)

theorem GoodIn.leads (h : GoodIn ops s.h.ts s) (hst : Leads (uleStep ops) s t) (hts : t.h.ts = s.h.ts) :
    GoodIn ops t.h.ts t := by
  obtain ⟨k, rfl⟩ := hst
  intro n hn
  have hrun : uleRun ops n ((uleStep ops)^[k] s) = uleRun ops (n + k) s :=
    (Function.iterate_add_apply (uleStep ops) n k s).symm
  rw [hrun] at hn ⊢
  exact h (n + k) (hn.trans hts)

theorem GoodIn.inv (h : GoodIn ops s.h.ts s) : UleInv s := (h 0 rfl).1

theorem GoodIn.sane (h : GoodIn ops s.h.ts s) : SaneIn ops s.h.ts s := fun n hn => (h n hn).2

/-- The type field: the cell ends in front of it or in it, or bytes of the cell are taken. -/
theorem sndType_leaves (halloc : ops.AllocOk) (hpc : s.pc = .sndType) (hinv : UleInv s) :
    NextCell s (uleStep ops s) ∨ (uleStep ops s).pc = .copy ∧ SameCell s (uleStep ops s) ∧
      (uleStep ops s).h.tsRemain < s.h.tsRemain := by
  unfold UleInv at hinv
  rw [hpc] at hinv
  have hle := hinv.2.1.le
  have hskb : ∀ (u : Ule) {n : ℕ}, SameCell s u → u.h.tsRemain < n →
      (dvbNetUleAllocSkb ops u).pc = .copy ∧ SameCell s (dvbNetUleAllocSkb ops u) ∧
        (dvbNetUleAllocSkb ops u).h.tsRemain < n := by
    intro u n hu hlt
    obtain ⟨⟨m, size⟩, hm⟩ := Option.isSome_iff_exists.mp
      (halloc u.allocs (u.p.uleSnduLen + ETH_HLEN + ETH_ALEN))
    unfold dvbNetUleAllocSkb
    rw [hm]
    exact ⟨rfl, hu.trans ⟨rfl, rfl, rfl, rfl, rfl⟩, hlt⟩
  unfold uleStep
  rw [hpc]
  dsimp only
  unfold dvbNetUleSnduType
  rcases hrem : s.h.tsRemain with _ | _ | k
  · exact .inl ⟨rfl, rfl, rfl, rfl, rfl, rfl, rfl⟩
  · exact .inl ⟨rfl, rfl, rfl, rfl, rfl, rfl, rfl⟩
  · right
    rw [hrem] at hle
    have hsub : ∀ i, 0 < i → i ≤ 2 → u8Sub s.h.tsRemain i < k + 1 + 1 := by
      intro i h0 h2
      rw [hrem, u8Sub_of_le (by omega) (by omega)]
      omega
    dsimp only
    split_ifs
    · refine hskb _ ?_ ?_
      · exact ⟨rfl, rfl, rfl, rfl, rfl⟩
      · exact hsub 1 (by decide) (by decide)
    · refine hskb _ ?_ ?_
      · exact ⟨rfl, rfl, rfl, rfl, rfl⟩
      · exact hsub 2 (by decide) (by decide)

/-- The copy, and the processing of the SNDU if it is complete. -/
theorem copy_leaves (hpc : s.pc = .copy) (hgood : GoodIn ops s.h.ts s) :
    ∃ t, Leads (uleStep ops) s t ∧ t.pc = .more ∧ SameCell s t ∧ t.h.tsRemain ≤ s.h.tsRemain := by
  have hinv := hgood.inv
  unfold UleInv at hinv
  rw [hpc] at hinv
  obtain ⟨-, hin, -, hskb⟩ := hinv
  obtain ⟨skb, hskb⟩ := Option.ne_none_iff_exists'.mp hskb
  have hcopy : (uleStep ops s).pc = .complete ∧ SameCell s (uleStep ops s) ∧
      (uleStep ops s).h.tsRemain ≤ s.h.tsRemain := by
    have hle := hin.le
    unfold uleStep
    rw [hpc]
    dsimp only
    unfold dvbNetUleCopy
    rw [hskb]
    refine ⟨rfl, ⟨rfl, rfl, rfl, rfl, rfl⟩, ?_⟩
    change u8Sub s.h.tsRemain (min s.p.uleSnduRemain s.h.tsRemain) ≤ s.h.tsRemain
    rw [u8Sub_of_le (by omega) (Nat.min_le_right _ _)]
    exact Nat.sub_le _ _
  have hgood' := hgood.leads (Leads.single s) hcopy.2.1.ts
  generalize ht : uleStep ops s = t at hcopy hgood'
  obtain ⟨hpc', hsame, hle⟩ := hcopy
  have hinv' := hgood'.inv
  unfold UleInv at hinv'
  rw [hpc'] at hinv'
  by_cases hrem : t.p.uleSnduRemain = 0
  · obtain ⟨skb', hskb'⟩ := Option.ne_none_iff_exists'.mp hinv'.2.2.2.1
    obtain ⟨w, hlead, hmore, -, hset⟩ := settle hpc' hinv'.1 hskb' hrem hgood'.sane
    exact ⟨w, Leads.head ht hlead, hmore, hsame.trans hset.sameCell, by rw [hset.h]; exact hle⟩
  · have hstep : uleStep ops t = t.goto .more := by
      unfold uleStep
      rw [hpc']
      exact if_neg hrem
    exact ⟨_, Leads.head ht (Leads.head hstep (Leads.refl _)), rfl,
      hsame.trans ⟨rfl, rfl, rfl, rfl, rfl⟩, hle⟩

/-- Behind an SNDU the cell is left, or the next one starts. -/
theorem more_leaves (hpc : s.pc = .more) (hinv : UleInv s) (hts : s.h.ts < s.h.tsEnd) :
    ∃ t, Leads (uleStep ops) s t ∧ (NextCell s t ∨
      t.pc = .payload ∧ SameCell s t ∧ t.p.uleSkb = none ∧ t.h.tsRemain = s.h.tsRemain) := by
  unfold UleInv at hinv
  rw [hpc] at hinv
  obtain ⟨-, -, hneed, -⟩ := hinv
  by_cases hnext : s.h.tsRemain ≥ 2 ∧
      ¬(s.h.buf s.h.fromWhere = 0xff ∧ s.h.buf (s.h.fromWhere + 1) = 0xff)
  · have hcell : uleStep ops s = { s with
        pc := .cell, h.newTs := false
        p.uleSkb := none, p.uleSnduType1 := false, p.uleSnduLen := 0 } := by
      unfold uleStep
      rw [hpc]
      exact if_pos hnext
    generalize hu : uleStep ops s = u at hcell
    have h₁ : uleStep ops u = u.goto .pusi := by
      unfold uleStep
      rw [show u.pc = .cell by rw [hcell]]
      dsimp only
      rw [if_pos (by rw [hcell]; exact hts), if_neg (by rw [hcell]; exact Bool.false_ne_true)]
    have h₂ : uleStep ops (u.goto .pusi) = u.goto .newTs :=
      if_neg (by rw [hcell]; exact Bool.eq_false_iff.mp hneed)
    have h₃ : uleStep ops (u.goto .newTs) = u.goto .payload :=
      if_neg (by rw [hcell]; exact Bool.false_ne_true)
    refine ⟨_, Leads.head hu (Leads.head h₁ (Leads.head h₂ (Leads.head h₃ (Leads.refl _)))), .inr ?_⟩
    rw [hcell]
    exact ⟨rfl, ⟨rfl, rfl, rfl, rfl, rfl⟩, rfl, rfl⟩
  · refine ⟨_, Leads.single _, .inl ?_⟩
    unfold uleStep
    rw [hpc]
    dsimp only
    unfold dvbNetUleMore
    dsimp only
    rw [if_neg hnext]
    split_ifs <;> exact ⟨rfl, rfl, rfl, rfl, rfl, rfl, rfl⟩

/-- What a round of the loop makes smaller. -/
def roundMeasure (s : Ule) : ℕ := 2 * s.h.tsRemain + if s.p.uleSkb.isSome then 1 else 0

/-- One round of the loop. -/
theorem payload_round (halloc : ops.AllocOk) (hpc : s.pc = .payload) (hgood : GoodIn ops s.h.ts s)
    (hts : s.h.ts < s.h.tsEnd) :
    ∃ t, Leads (uleStep ops) s t ∧
      (NextCell s t ∨ t.pc = .payload ∧ SameCell s t ∧ roundMeasure t < roundMeasure s) := by
  -- from the copy on, with at most `n` bytes left
  have hcopy : ∀ {u : Ule} (n : ℕ), Leads (uleStep ops) s u → u.pc = .copy → SameCell s u →
      u.h.tsRemain ≤ n → 2 * n < roundMeasure s → ∃ t, Leads (uleStep ops) s t ∧
        (NextCell s t ∨ t.pc = .payload ∧ SameCell s t ∧ roundMeasure t < roundMeasure s) := by
    intro u n hlead hpc' hsame hle hlt
    obtain ⟨v, hlead', hmore, hsame', hle'⟩ := copy_leaves hpc' (hgood.leads hlead hsame.ts)
    have hall := hlead.trans hlead'
    have hv := hsame.trans hsame'
    obtain ⟨t, hlast, hout⟩ := more_leaves hmore (hgood.leads hall hv.ts).inv
      (by rw [hv.ts, hv.tsEnd]; exact hts)
    refine ⟨t, hall.trans hlast, ?_⟩
    rcases hout with hnext | ⟨hpay, hin, hnone, hrem⟩
    · exact .inl (hv.next hnext)
    · refine .inr ⟨hpay, hv.trans hin, ?_⟩
      have hmeasure : roundMeasure t = 2 * v.h.tsRemain := by
        unfold roundMeasure
        rw [hnone, hrem]
        rfl
      omega
  have htype : ∀ {u : Ule}, Leads (uleStep ops) s u → u.pc = .sndType → SameCell s u →
      u.h.tsRemain ≤ s.h.tsRemain → ∃ t, Leads (uleStep ops) s t ∧
        (NextCell s t ∨ t.pc = .payload ∧ SameCell s t ∧ roundMeasure t < roundMeasure s) := by
    intro u hlead hpc' hsame hle
    have hlead' := hlead.tail rfl
    rcases sndType_leaves halloc hpc' (hgood.leads hlead hsame.ts).inv with hnext | ⟨hpc'', hsame', hlt⟩
    · exact ⟨_, hlead', .inl (hsame.next hnext)⟩
    · refine hcopy (s.h.tsRemain - 1) hlead' hpc'' (hsame.trans hsame') (by omega) ?_
      unfold roundMeasure
      omega
  have hinv := hgood.inv
  unfold UleInv at hinv
  rw [hpc] at hinv
  obtain ⟨-, hin, -, hroom⟩ := hinv
  have hle := hin.le
  by_cases hskb : s.p.uleSkb.isNone = true
  · have hstep : uleStep ops s = dvbNetUleNewPayload s := by
      unfold uleStep
      rw [hpc]
      exact if_pos hskb
    unfold dvbNetUleNewPayload at hstep
    by_cases h2 : s.h.tsRemain < 2
    · have hnew : s.h.newTs = true := by
        by_contra hnew
        exact absurd (hroom (.inl ((Bool.not_eq_true _).mp hnew))) (Nat.not_le.mpr h2)
      rw [if_pos h2] at hstep
      exact ⟨_, Leads.head hstep (Leads.refl _), .inl ⟨rfl, hnew, rfl, rfl, rfl, rfl, rfl⟩⟩
    · rw [if_neg h2] at hstep
      by_cases hlen : s.p.uleSnduLen = 0
      · rw [if_pos hlen] at hstep
        dsimp only at hstep
        by_cases h5 : be16 (s.h.buf s.h.fromWhere) (s.h.buf (s.h.fromWhere + 1)) &&& 0x7fff < 5
        · rw [if_pos h5] at hstep
          exact ⟨_, Leads.head hstep (Leads.refl _), .inl ⟨rfl, rfl, rfl, rfl, rfl, rfl, rfl⟩⟩
        · rw [if_neg h5] at hstep
          refine htype (Leads.head hstep (Leads.refl _)) rfl ⟨rfl, rfl, rfl, rfl, rfl⟩ ?_
          change u8Sub s.h.tsRemain 2 ≤ s.h.tsRemain
          rw [u8Sub_of_le (by omega) (Nat.not_lt.mp h2)]
          exact Nat.sub_le _ _
      · rw [if_neg hlen] at hstep
        exact htype (Leads.head hstep (Leads.refl _)) rfl ⟨rfl, rfl, rfl, rfl, rfl⟩ (Nat.le_refl _)
  · have hstep : uleStep ops s = s.goto .copy := by
      unfold uleStep
      rw [hpc]
      exact if_neg hskb
    refine hcopy s.h.tsRemain (Leads.head hstep (Leads.refl _)) rfl ⟨rfl, rfl, rfl, rfl, rfl⟩
      (Nat.le_refl _) ?_
    unfold roundMeasure
    rw [if_pos (Option.isSome_iff_ne_none.mpr fun h => hskb (by rw [h]; rfl))]
    exact Nat.lt_succ_self _

/-- The payload of a cell is got through. -/
theorem payload_leaves (halloc : ops.AllocOk) (hpc : s.pc = .payload) (hgood : GoodIn ops s.h.ts s)
    (hts : s.h.ts < s.h.tsEnd) : ∃ t, Leads (uleStep ops) s t ∧ NextCell s t := by
  refine exists_leads_of_rounds (fun u => u.pc = .payload ∧ SameCell s u ∧ GoodIn ops u.h.ts u) (NextCell s)
    roundMeasure (fun u ⟨hpc', hsame, hgood'⟩ => ?_) ⟨hpc, SameCell.refl s, hgood⟩
  obtain ⟨t, hlead, hnext | ⟨hpay, hin, hlt⟩⟩ := payload_round halloc hpc' hgood'
    (by rw [hsame.ts, hsame.tsEnd]; exact hts)
  · exact ⟨t, hlead, .inl (hsame.next hnext)⟩
  · exact ⟨t, hlead, .inr ⟨⟨hpay, hsame.trans hin, hgood'.leads hlead hin.ts⟩, hlt⟩⟩

/-- In front of the payload: the cell is left, or its payload is come to, or it is rejected by a decoder
that does not wait for PUSI, and looked at again by one that does. -/
def Entered (s t : Ule) : Prop :=
  NextCell s t ∨ SameCell s t ∧ (t.pc = .payload ∨
    t.pc = .cell ∧ t.h.newTs = true ∧ t.p.needPusi = true ∧ s.p.needPusi = false)

theorem Entered.head {u : Ule} (hsame : SameCell s u) (hneed : u.p.needPusi = s.p.needPusi)
    (h : Entered u t) : Entered s t := by
  rcases h with hnext | ⟨hin, hout⟩
  · exact .inl (hsame.next hnext)
  · exact .inr ⟨hsame.trans hin, by rwa [hneed] at hout⟩

/-- Over the pointer field. -/
theorem pointer_entered (hpc : s.pc = .pointer) (hgood : GoodIn ops s.h.ts s) :
    ∃ t, Leads (uleStep ops) s t ∧ Entered s t := by
  have hinv := hgood.inv
  unfold UleInv at hinv
  rw [hpc] at hinv
  have hflush : ∀ {u : Ule}, uleStep ops s = u → u.pc = .flush → SameCell s u →
      ∃ t, Leads (uleStep ops) s t ∧ Entered s t := by
    intro u hu hpc' hsame
    have hinv' := (hgood.leads (Leads.head hu (Leads.refl _)) hsame.ts).inv
    unfold UleInv at hinv'
    rw [hpc'] at hinv'
    have hstep := flush_step ops hpc' hinv'.2.2.2.2.1
    exact ⟨_, Leads.head hu (Leads.head hstep (Leads.refl _)),
      .inr ⟨hsame.trans ⟨rfl, rfl, rfl, rfl, rfl⟩, .inl rfl⟩⟩
  have hstep : uleStep ops s = dvbNetUleNewTsPointer s := by
    unfold uleStep
    rw [hpc]
  unfold dvbNetUleNewTsPointer at hstep
  split_ifs at hstep with hpusi hneed
  · dsimp only at hstep
    split_ifs at hstep
    · have hno : s.p.needPusi = false := by simpa using hneed
      exact ⟨_, Leads.head hstep (Leads.refl _),
        .inr ⟨⟨rfl, rfl, rfl, rfl, rfl⟩, .inr ⟨rfl, hinv.2.2.1, rfl, hno⟩⟩⟩
    · exact hflush hstep rfl ⟨rfl, rfl, rfl, rfl, rfl⟩
  · exact hflush hstep rfl ⟨rfl, rfl, rfl, rfl, rfl⟩
  · exact ⟨_, Leads.head hstep (Leads.refl _), .inr ⟨⟨rfl, rfl, rfl, rfl, rfl⟩, .inl rfl⟩⟩

/-- Over the continuity counter. -/
theorem newTs_entered (hpc : s.pc = .newTs) (hnew : s.h.newTs = true) (hgood : GoodIn ops s.h.ts s)
    (hsync : s.p.needPusi = true → (s.h.buf (s.h.ts + 3) &&& 0x0f).toNat = s.p.tscc) :
    ∃ t, Leads (uleStep ops) s t ∧ Entered s t := by
  by_cases hcc : (s.h.buf (s.h.ts + 3) &&& 0x0f).toNat = s.p.tscc
  · have hstep : uleStep ops s = { s with pc := .pointer, p.tscc := (s.p.tscc + 1) % 16 } := by
      unfold uleStep
      rw [hpc]
      dsimp only
      rw [if_pos hnew, dvbNetUleNewTs, if_pos hcc]
    generalize hu : uleStep ops s = u at hstep
    have hlead := Leads.head hu (Leads.refl u)
    have hsame : SameCell s u := by rw [hstep]; exact ⟨rfl, rfl, rfl, rfl, rfl⟩
    obtain ⟨t, hlead', hout⟩ := pointer_entered (by rw [hstep]) (hgood.leads hlead hsame.ts)
    exact ⟨t, hlead.trans hlead', hout.head hsame (by rw [hstep])⟩
  · have hstep : uleStep ops s = ((s.countFrameError s.p.uleSkb.isSome).resync).goto .cell := by
      unfold uleStep
      rw [hpc]
      dsimp only
      rw [if_pos hnew, dvbNetUleNewTs, if_neg hcc]
    have hno : s.p.needPusi = false := Bool.eq_false_iff.mpr fun hneed => hcc (hsync hneed)
    exact ⟨_, Leads.head hstep (Leads.refl _),
      .inr ⟨⟨rfl, rfl, rfl, rfl, rfl⟩, .inr ⟨rfl, hnew, rfl, hno⟩⟩⟩

/-- Over the header of the cell. -/
theorem cell_entered (hpc : s.pc = .cell) (hnew : s.h.newTs = true) (hts : s.h.ts < s.h.tsEnd)
    (hgood : GoodIn ops s.h.ts s) : ∃ t, Leads (uleStep ops) s t ∧ Entered s t := by
  have hstep : uleStep ops s = dvbNetUleNewTsCell s := by
    unfold uleStep
    rw [hpc]
    dsimp only
    rw [if_pos hts, if_pos hnew]
  unfold dvbNetUleNewTsCell at hstep
  dsimp only at hstep
  split_ifs at hstep
  · exact ⟨_, Leads.head hstep (Leads.refl _), .inl ⟨rfl, hnew, rfl, rfl, rfl, rfl, rfl⟩⟩
  · generalize hu : uleStep ops s = u at hstep
    have hlead := Leads.head hu (Leads.refl u)
    have hsame : SameCell s u := by rw [hstep]; exact ⟨rfl, rfl, rfl, rfl, rfl⟩
    have hnew' : u.h.newTs = true := by rw [hstep]; exact hnew
    have hneed' : u.p.needPusi = s.p.needPusi := by rw [hstep]
    have hpusi : uleStep ops u = if u.p.needPusi then dvbNetUleTsPusi u else u.goto .newTs := by
      unfold uleStep
      rw [hstep]
    generalize hv : uleStep ops u = v at hpusi
    have hlead' := hlead.tail hv
    have hskip : NextCell u v → ∃ t, Leads (uleStep ops) s t ∧ Entered s t :=
      fun hnext => ⟨_, hlead', .inl (hsame.next hnext)⟩
    have henter : v.pc = .newTs → SameCell u v → v.h.newTs = u.h.newTs → v.p.needPusi = u.p.needPusi →
        (v.p.needPusi = true → (v.h.buf (v.h.ts + 3) &&& 0x0f).toNat = v.p.tscc) →
        ∃ t, Leads (uleStep ops) s t ∧ Entered s t := by
      intro hpc' hin hn hneed hsync
      obtain ⟨t, hlast, hout⟩ := newTs_entered hpc' (hn.trans hnew')
        (hgood.leads hlead' (hsame.trans hin).ts) hsync
      exact ⟨t, hlead'.trans hlast, hout.head (hsame.trans hin) (hneed.trans hneed')⟩
    by_cases hneed : u.p.needPusi = true
    · rw [if_pos hneed] at hpusi
      unfold dvbNetUleTsPusi at hpusi
      dsimp only at hpusi
      split_ifs at hpusi
      · exact hskip (by rw [hpusi]; exact ⟨rfl, hnew', rfl, rfl, rfl, rfl, rfl⟩)
      · rw [hpusi] at henter
        exact henter rfl ⟨rfl, rfl, rfl, rfl, rfl⟩ rfl rfl fun _ => rfl
      · exact hskip (by rw [hpusi]; exact ⟨rfl, hnew', rfl, rfl, rfl, rfl, rfl⟩)
    · rw [if_neg hneed] at hpusi
      rw [hpusi] at henter
      exact henter rfl ⟨rfl, rfl, rfl, rfl, rfl⟩ rfl rfl fun h => absurd h hneed

/-- **A cell with any content is left.** -/
theorem cell_leaves (halloc : ops.AllocOk) (hpc : s.pc = .cell) (hnew : s.h.newTs = true)
    (hts : s.h.ts < s.h.tsEnd) (hgood : GoodIn ops s.h.ts s) :
    ∃ t, Leads (uleStep ops) s t ∧ NextCell s t := by
  have hrest : ∀ {u : Ule}, Leads (uleStep ops) s u → SameCell s u → u.pc = .payload →
      ∃ t, Leads (uleStep ops) s t ∧ NextCell s t := by
    intro u hlead hsame hpay
    obtain ⟨t, hlead', hnext⟩ := payload_leaves halloc hpay (hgood.leads hlead hsame.ts)
      (by rw [hsame.ts, hsame.tsEnd]; exact hts)
    exact ⟨t, hlead.trans hlead', hsame.next hnext⟩
  obtain ⟨u, hlead, hnext | ⟨hsame, hpay | ⟨hpc', hnew', hneed', -⟩⟩⟩ := cell_entered hpc hnew hts hgood
  · exact ⟨u, hlead, hnext⟩
  · exact hrest hlead hsame hpay
  · -- the cell is looked at again
    obtain ⟨v, hlead', hnext | ⟨hsame', hpay | ⟨-, -, -, hno⟩⟩⟩ := cell_entered hpc' hnew'
      (by rw [hsame.ts, hsame.tsEnd]; exact hts) (hgood.leads hlead hsame.ts)
    · exact ⟨v, hlead.trans hlead', hsame.next hnext⟩
    · exact hrest (hlead.trans hlead') (hsame.trans hsame') hpay
    · exact absurd (hneed'.symm.trans hno) (by decide)

/-- **A row of cells with any content**, in front of others. -/
theorem through_cells (halloc : ops.AllocOk) (front : List TsPacket) {rest : List TsPacket}
    (hpc : s.pc = .cell) (hnew : s.h.newTs = true) (ha : Ahead s.h s.h.ts (front ++ rest))
    (hgood : ∀ n, (uleRun ops n s).h.ts < s.h.ts + TS_SZ * front.length →
      UleInv (uleRun ops n s) ∧ Sane ops (uleRun ops n s)) :
    ∃ t, Leads (uleStep ops) s t ∧ t.pc = .cell ∧ t.h.newTs = true ∧ Ahead t.h t.h.ts rest ∧
      t.h.ts = s.h.ts + TS_SZ * front.length ∧ t.p.rxMode = s.p.rxMode ∧
      t.p.multiMacs = s.p.multiMacs := by
  induction front generalizing s with
  | nil => exact ⟨s, Leads.refl s, hpc, hnew, ha, rfl, rfl, rfl⟩
  | cons c front ih =>
    have hnext : Ahead s.h (s.h.ts + TS_SZ) (front ++ rest) := ha.next
    have hlen : TS_SZ * (c :: front).length = TS_SZ + TS_SZ * front.length := by
      rw [List.length_cons, Nat.mul_succ, Nat.add_comm]
    have hpos : 0 < TS_SZ := by decide
    obtain ⟨t, ⟨k, hk⟩, ht⟩ := cell_leaves halloc hpc hnew hnext.lt fun n hn => hgood n (by omega)
    obtain ⟨w, hlead, hpc', hnew', ha', hts', hmode, hmacs⟩ := ih ht.pc ht.newTs
      (by rw [ht.ts]; exact ⟨hnext.1.trans ht.tsEnd.symm, ht.buf ▸ hnext.2⟩) fun n hn => by
        have hrun : uleRun ops n t = uleRun ops (n + k) s := by
          rw [← hk]
          exact (Function.iterate_add_apply (uleStep ops) n k s).symm
        rw [hrun] at hn ⊢
        exact hgood (n + k) (by rw [ht.ts] at hn; omega)
    exact ⟨w, Leads.trans ⟨k, hk⟩ hlead, hpc', hnew', ha', by rw [hts', ht.ts, hlen, Nat.add_assoc],
      hmode.trans ht.rxMode, hmacs.trans ht.multiMacs⟩

end Net
end TbsMedia
