import TbsMedia.DvbNet.UlePostCrc

/-!
# What is read of a complete SNDU

An SNDU whose length field is right and whose CRC is right may still announce more than it has: the
code reads the destination address and the extension headers without a look at the length.
`accesses_confined_iff` says exactly which SNDUs it stays within.
-/

namespace TbsMedia
namespace Net

open Lib

variable {ops : UleOps} {s t : Ule} {skb : SkBuff} {c : Chain} {hd hd' hd₀ : Hdr}
  {dest : List UInt8} {total : ℤ}

/-- Everything that has been read lies in front of the tail at that time, and no more has been
pulled than there was. -/
structure Confined (s : Ule) : Prop where
  defined : s.pc ≠ .fault
  reads : ∀ r ∈ s.p.reads, r.1 < r.2
  pulls : ∀ l ∈ s.p.pulls, l.1 ≤ l.2

/-! ## Confined chains -/

theorem Chain.Next.le_limit (hn : c.Next hd hd') {limit : ℕ} (hw : c.Within limit hd) :
    hd'.off ≤ limit := by
  cases hn with
  | optional _ hlen _ => exact (touched_optional hlen _).mp hw.2
  | bridged _ hb =>
    have hfit := ((touched_bridged hb.1 hb.2.1 _).mp hw.2).1
    exact Nat.le_trans (Nat.le_add_right _ 14) hfit

theorem off_le_of_visits (hv : c.Visits hd₀ hd) : hd₀.off ≤ hd.off := by
  induction hv with
  | refl => exact Nat.le_refl _
  | tail _ hn ih => exact Nat.le_trans ih hn.off_le

theorem within_mono {l₁ l₂ : ℕ} (hle : l₁ ≤ l₂) (hw : c.Within l₁ hd) : c.Within l₂ hd :=
  ⟨hw.1, fun a ha => Nat.lt_of_lt_of_le (hw.2 a ha) hle⟩

/-- Where the processing is, as long as it is confined. -/
inductive Stage (s : Ule) (c : Chain) (hd₀ : Hdr) (t : Ule) : Prop where
  | start : t = s → Stage s c hd₀ t
  | ext {dest : List UInt8} {total : ℤ} {hd : Hdr} : t.pc = .ext dest total → At c hd t.p →
      c.Visits hd₀ hd → hd.type < 1536 → total = hd.off - c.skb.data → Stage s c hd₀ t
  | deliver {dest : List UInt8} : t.pc = .deliver dest → t.p.uleSkb.isSome → Stage s c hd₀ t
  | more : t.pc = .more → Stage s c hd₀ t

/-- The reads for a header stay in front of the tail. -/
theorem confined_moved (hc : Confined t) (hw : c.Within c.skb.tail hd) :
    ∀ r ∈ t.p.reads ++ (c.touched hd).map fun a => (a, c.skb.tail), r.1 < r.2 := by
  intro r hr
  rcases List.mem_append.mp hr with hr | hr
  · exact hc.reads r hr
  · obtain ⟨a, ha, rfl⟩ := List.mem_map.mp hr
    exact hw.2 a ha

/-- A round at a header within the payload stays confined. -/
theorem stage_ext (hsize : c.skb.tail ≤ c.skb.size)
    (hend : c.skb.tail = c.skb.data + c.skb.len) (h₀ : hd₀.off = c.skb.data) (hc : Confined t)
    (hpc : t.pc = .ext dest total) (h : At c hd t.p) (hv : c.Visits hd₀ hd) (ht : hd.type < 1536)
    (htotal : total = hd.off - c.skb.data) (hw : c.Within c.skb.tail hd) :
    Confined (uleStep ops t) ∧ Stage s c hd₀ (uleStep ops t) := by
  have hreads := confined_moved hc hw
  have hws := within_mono hsize hw
  by_cases hn : ∃ hd', c.Next hd hd'
  · obtain ⟨hd', hn⟩ := hn
    have hle := hn.le_limit hw
    have hlo := off_le_of_visits hv
    have hoff := hn.off_le
    rw [ext_next hpc h hn hws]
    split_ifs with ht'
    · refine ⟨⟨?_, hreads, hc.pulls⟩, ?_⟩
      · rintro ⟨⟩
      · exact Stage.ext rfl (at_moved h hd') (hv.tail hn) ht' (by omega)
    · have hat := at_moved h hd'
      have hpull : (pull (c.moved t.p hd hd') (total + ((hd'.off : ℤ) - hd.off)).toNat) =
          { c.moved t.p hd hd' with
            uleSkb := some (skbPull c.skb (total + ((hd'.off : ℤ) - hd.off)).toNat)
            pulls := t.p.pulls ++ [((total + ((hd'.off : ℤ) - hd.off)).toNat, c.skb.len)] } := by
        rw [pull, hat.skb]
        rfl
      rw [hpull]
      refine ⟨⟨?_, hreads, ?_⟩, Stage.deliver rfl rfl⟩
      · rintro ⟨⟩
      · intro l hl
        rcases List.mem_append.mp hl with hl | hl
        · exact hc.pulls l hl
        · obtain rfl := List.mem_singleton.mp hl
          change (total + ((hd'.off : ℤ) - hd.off)).toNat ≤ c.skb.len
          omega
  · rw [ext_stop hpc h ht (fun hd' hn' => hn ⟨hd', hn'⟩) hws]
    refine ⟨⟨?_, hreads, hc.pulls⟩, Stage.more rfl⟩
    rintro ⟨⟩

theorem stage_deliver (hc : Confined t) (hpc : t.pc = .deliver dest) (hskb : t.p.uleSkb.isSome) :
    Confined (uleStep ops t) ∧ Stage s c hd₀ (uleStep ops t) := by
  obtain ⟨skb, hskb⟩ := Option.isSome_iff_exists.mp hskb
  unfold uleStep
  rw [hpc]
  dsimp only
  rw [dvbNetUleDeliver, hskb]
  refine ⟨⟨?_, hc.reads, hc.pulls⟩, Stage.more rfl⟩
  rintro ⟨⟩

/-! ## The address -/

theorem addrReads_confined (h : Complete ops s skb) :
    (∀ r ∈ skb.addrReads, r.1 < r.2) ↔ 10 ≤ s.p.uleSnduLen := by
  have h5 := h.five_le
  have hl := h.len
  have ht := h.tail
  constructor
  · intro hr
    have hlast := hr (skb.data + 5, skb.tail - 4)
      (List.mem_map.mpr ⟨5, List.mem_range.mpr (by decide), rfl⟩)
    dsimp only at hlast
    omega
  · rintro h10 r hr
    obtain ⟨i, hi, rfl⟩ := List.mem_map.mp hr
    have hi6 : i < 6 := List.mem_range.mp hi
    dsimp only
    omega

theorem confined_addr (h : Complete ops s skb) (hc : Confined s) (h10 : 10 ≤ s.p.uleSnduLen)
    {reads : List (ℕ × ℕ)} (hr : AddrRead skb s.p.reads reads) : ∀ r ∈ reads, r.1 < r.2 := by
  intro r hmem
  rcases hr.1 r hmem with hold | hnew
  · exact hc.reads r hold
  · exact (addrReads_confined h).mpr h10 r hnew

theorem addr_fits (h : Complete ops s skb) (h10 : 10 ≤ s.p.uleSnduLen) :
    skb.data + ETH_ALEN ≤ skb.size := by
  have hsize := h.size
  have htail := h.tail
  have hl := h.len
  have he : ETH_ALEN = 6 := rfl
  omega

/-- An SNDU with room for its address is dropped without a look at anything else. -/
theorem stage_drop (h : Complete ops s skb) (hc : Confined s) (h10 : 10 ≤ s.p.uleSnduLen)
    (hdrop : Drops ops s.p skb) : Confined (uleStep ops s) ∧ (uleStep ops s).pc = .more := by
  obtain ⟨reads, hr, hstep⟩ := complete_drop h hdrop (addr_fits h h10)
  rw [hstep]
  refine ⟨⟨?_, confined_addr h hc h10 hr, hc.pulls⟩, rfl⟩
  rintro ⟨⟩

/-- The step over the CRC and the address stays confined where there is room for an address. -/
theorem stage_pass (h : Complete ops s skb) (hc : Confined s)
    (hlen : s.p.uleDbit ≠ 0 ∨ 10 ≤ s.p.uleSnduLen) (hdrop : ¬ Drops ops s.p skb) :
    Confined (uleStep ops s) ∧ Stage s (postCrc s skb) (firstHdr s skb) (uleStep ops s) := by
  obtain ⟨reads, pulls, hstep, hno, hyes⟩ :=
    complete_pass h hdrop (hlen.imp_right (addr_fits h))
  have hconf : (∀ r ∈ reads, r.1 < r.2) ∧ ∀ l ∈ pulls, l.1 ≤ l.2 := by
    by_cases hd : s.p.uleDbit = 0
    · have h10 := hlen.resolve_left (not_not.mpr hd)
      have hl := h.len
      have he : ETH_ALEN = 6 := rfl
      refine ⟨confined_addr h hc h10 (hyes hd).1, ?_⟩
      rw [(hyes hd).2]
      intro l hmem
      rcases List.mem_append.mp hmem with hmem | hmem
      · exact hc.pulls l hmem
      · obtain rfl := List.mem_singleton.mp hmem
        dsimp only
        omega
    · rw [(hno hd).1, (hno hd).2]
      exact ⟨hc.reads, hc.pulls⟩
  rw [hstep]
  rcases headers_cases (s := { s with
      p.uleSkb := some (skb.strip s.p.uleDbit), p.reads := reads, p.pulls := pulls }) rfl
      (destOf s skb) with ⟨ht, hpc, hp⟩ | ⟨-, heq⟩
  · refine ⟨⟨?_, ?_, ?_⟩, Stage.ext hpc ?_ Relation.ReflTransGen.refl ht (Int.sub_self _).symm⟩
    · rw [hpc]
      rintro ⟨⟩
    · rw [hp]
      exact hconf.1
    · rw [hp]
      exact hconf.2
    · rw [hp]
      exact ⟨rfl, rfl, rfl, rfl, rfl⟩
  · rw [heq]
    refine ⟨⟨?_, hconf.1, hconf.2⟩, Stage.deliver rfl rfl⟩
    rintro ⟨⟩

/-! ## Reads behind the payload -/

/-- **A confined run over the chain comes to no header that is not within the payload.** -/
theorem within_of_confined (hv : c.Visits hd₀ hd) (ht : hd.type < 1536) :
    ∀ {t : Ule} {total : ℤ}, t.pc = .ext dest total → At c hd₀ t.p →
      (∀ u, Processing ops t u → Confined u) → c.Within c.skb.tail hd := by
  have hsize : ∀ {t : Ule} {total : ℤ} {a : Hdr}, t.pc = .ext dest total → At c a t.p →
      (∀ u, Processing ops t u → Confined u) → c.Within c.skb.size a := by
    intro t total a hpc h hconf
    by_contra hw
    refine (hconf _ (Processing.single ?_ (ext_fault hpc h hw))).defined rfl
    rw [hpc]
    rintro ⟨⟩
  induction hv using Relation.ReflTransGen.head_induction_on with
  | refl =>
    intro t total hpc h hconf
    have hws := hsize hpc h hconf
    have hone : Processing ops t (uleStep ops t) := by
      refine Processing.single ?_ rfl
      rw [hpc]
      rintro ⟨⟩
    have hreads : (uleStep ops t).p.reads =
        t.p.reads ++ (c.touched hd).map fun a => (a, c.skb.tail) := by
      by_cases hn : ∃ hd', c.Next hd hd'
      · obtain ⟨hd', hn⟩ := hn
        rw [ext_next hpc h hn hws]
        split_ifs
        · rfl
        · rw [pull, (at_moved h hd').skb]
          rfl
      · rw [ext_stop hpc h ht (fun hd' hn' => hn ⟨hd', hn'⟩) hws]
        rfl
    refine ⟨hws.1, fun a ha => (hconf _ hone).reads (a, c.skb.tail) ?_⟩
    rw [hreads]
    exact List.mem_append_right _ (List.mem_map.mpr ⟨a, ha, rfl⟩)
  | head hn hv ih =>
    rename_i a b
    intro t total hpc h hconf
    have hws := hsize hpc h hconf
    have hstep : uleStep ops t = _ := ext_next hpc h hn hws
    rw [if_pos (type_lt_of_visits hv ht)] at hstep
    refine ih rfl (at_moved h b) fun u hu => hconf u (Processing.head ?_ hstep hu)
    rw [hpc]
    rintro ⟨⟩

/-- An SNDU with an address has room for it, if the processing is confined. -/
theorem room_of_confined (h : Complete ops s skb)
    (hconf : ∀ t, Processing ops s t → Confined t) : s.p.uleDbit ≠ 0 ∨ 10 ≤ s.p.uleSnduLen := by
  by_cases hd : s.p.uleDbit = 0
  · right
    have hone : Confined (uleStep ops s) := by
      refine hconf _ (Processing.single ?_ rfl)
      rw [h.pc]
      rintro ⟨⟩
    by_cases hfit : skb.data + ETH_ALEN ≤ skb.size
    · have hreads : ∀ r ∈ skb.addrReads, r ∈ (uleStep ops s).p.reads := by
        by_cases hdrop : Drops ops s.p skb
        · obtain ⟨reads, hr, hstep⟩ := complete_drop h hdrop hfit
          rw [hstep]
          exact hr.2.2
        · obtain ⟨reads, pulls, hstep, -, hyes⟩ := complete_pass h hdrop (Or.inr hfit)
          rw [hstep, dvbNetUleHeaders]
          split_ifs <;> exact (hyes hd).1.2.2
      exact (addrReads_confined h).mp fun r hr => hone.reads r (hreads r hr)
    · refine absurd ?_ hone.defined
      rw [complete_fault h hd hfit]
      rfl
  · exact Or.inl hd

/-- **The processing of a complete SNDU stays within its payload exactly if** there is room for the
destination address, unless there is none, and every header that its chain comes to has a handler in
the tables and ends within the payload, unless the SNDU is dropped for its address. -/
theorem accesses_confined_iff (ops : UleOps) (s : Ule) (skb : SkBuff) (h : Complete ops s skb)
    (hc : Confined s) :
    (∀ t, Processing ops s t → Confined t) ↔
      (s.p.uleDbit ≠ 0 ∨ 10 ≤ s.p.uleSnduLen) ∧
        (¬ Drops ops s.p skb → ∀ hd, (postCrc s skb).Visits (firstHdr s skb) hd →
          hd.type < ETH_P_802_3_MIN → (postCrc s skb).Within (skb.tail - 4) hd) := by
  have hpc : s.pc ≠ .more := by
    rw [h.pc]
    rintro ⟨⟩
  constructor
  · intro hconf
    refine ⟨room_of_confined h hconf, fun hdrop hd hv ht => ?_⟩
    have hlen := room_of_confined h hconf
    obtain ⟨reads, pulls, hstep, -, -⟩ := complete_pass h hdrop (hlen.imp_right (addr_fits h))
    rw [← strip_tail skb s.p.uleDbit]
    rcases headers_cases (s := { s with
        p.uleSkb := some (skb.strip s.p.uleDbit), p.reads := reads, p.pulls := pulls }) rfl
        (destOf s skb) with ⟨-, hpc', hp⟩ | ⟨hge, -⟩
    · refine within_of_confined hv ht hpc' ?_ fun u hu => hconf u (Processing.head hpc hstep hu)
      rw [hp]
      exact ⟨rfl, rfl, rfl, rfl, rfl⟩
    · exact absurd (type_lt_of_visits hv ht) hge
  · rintro ⟨hlen, hchain⟩ t hproc
    by_cases hdrop : Drops ops s.p skb
    · have hone := stage_drop h hc (hlen.resolve_left (not_not.mpr hdrop.1)) hdrop
      refine (Processing.inv (I := fun t => Confined t ∧ (t = s ∨ t.pc = .more)) ?_
        ⟨hc, Or.inl rfl⟩ hproc).1
      rintro u hu ⟨-, rfl | hmore⟩
      · exact ⟨hone.1, Or.inr hone.2⟩
      · exact absurd hmore hu
    · have hend := strip_end h
      have htail := strip_tail skb s.p.uleDbit
      have hsize : (postCrc s skb).skb.tail ≤ (postCrc s skb).skb.size := by
        change (skb.strip _).tail ≤ (skb.strip _).size
        rw [htail, strip_size]
        exact Nat.le_trans (Nat.sub_le _ _) h.size
      refine (Processing.inv
        (I := fun t => Confined t ∧ Stage s (postCrc s skb) (firstHdr s skb) t) ?_
        ⟨hc, Stage.start rfl⟩ hproc).1
      rintro u hu ⟨hcu, hst⟩
      cases hst with
      | start hus =>
        rw [hus]
        exact stage_pass h hc hlen hdrop
      | ext hpcu hat hv ht htotal =>
        refine stage_ext hsize hend rfl hcu hpcu hat hv ht htotal ?_
        change (postCrc s skb).Within (skb.strip _).tail _
        rw [htail]
        exact hchain hdrop _ hv ht
      | deliver hpcu hsome => exact stage_deliver hcu hpcu hsome
      | more hmore => exact absurd hmore hu

theorem accesses_confined_padded : (arrived plainOps .RX_MODE_UNI paddedSndu).p.uleDbit ≠ 0 ∧
    ∀ t, Processing plainOps (arrived plainOps .RX_MODE_UNI paddedSndu) t → Confined t := by
  refine ⟨by decide, (accesses_confined_iff plainOps _ _ (arrived_holds .RX_MODE_UNI paddedSndu).complete
    ⟨by rintro ⟨⟩, by rintro _ ⟨⟩, by rintro _ ⟨⟩⟩).mpr ⟨Or.inl (by decide), ?_⟩⟩
  intro _ hd hv ht
  rcases Relation.ReflTransGen.cases_head hv with rfl | ⟨b, hn, hb⟩
  · decide +kernel
  · have hlt := type_lt_of_visits hb ht
    cases hn with
    | optional => exact absurd hlt (by decide +kernel)
    | bridged _ hbr => exact absurd hbr.1 (by decide +kernel)

/-- A padding header in front of one byte of payload. -/
def shortPadded : Sndu :=
  { paddedSndu with payload := [7], payload_pos := by decide, length_le := by decide }

/-- The decapsulator takes the first byte of the CRC for part of a type field. -/
theorem accesses_leave_payload :
    ∃ n, ∃ r ∈ (uleRun plainOps n ((Ule.init .RX_MODE_UNI []).callCells
      [uleCell true 0 (0 :: shortPadded.bytes plainOps) (by decide +kernel)])).p.reads,
      ¬ r.1 < r.2 := by
  refine ⟨10, ?_⟩
  decide +kernel

end Net
end TbsMedia
