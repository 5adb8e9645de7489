import Mathlib
import TbsMedia.DvbNet.UlePostCrc

/-!
# Bridged frames

A bridged SNDU carries a whole Ethernet frame.  Whether the decapsulator hands it up unchanged
depends on two things.  The length test compares a length field with the rest of the SNDU, CRC and
destination address included, so that it fails for every frame that has one.  And with a destination
address the type of the inner frame is looked for six bytes too far, in its payload: what is found
there may start a chain of extension headers of its own.  `bridged_delivered_iff` says exactly which
frames arrive.
-/

namespace TbsMedia
namespace Net

open Lib

variable {ops : UleOps} {s t : Ule} {skb : SkBuff} {c : Chain} {hd hd' hd₀ : Hdr}
  {dest : List UInt8} {total : ℤ}

/-- The steps of the chain for which everything that is read is there. -/
def Chain.Walks (c : Chain) : Hdr → Hdr → Prop :=
  Relation.ReflTransGen fun a b => c.Next a b ∧ c.Within c.skb.size a

/-! ## What is handed up -/

/-- The step that hands up a bridged skb. -/
theorem deliver_bridged (ops : UleOps) (hpc : t.pc = .deliver dest) (hskb : t.p.uleSkb = some skb)
    (hb : t.p.uleBridged = true) :
    (uleStep ops t).pc = .more ∧ (uleStep ops t).rx = t.rx ++ [(dvbNetEthTypeTrans ops skb).1] := by
  unfold uleStep
  rw [hpc]
  dsimp only
  rw [dvbNetUleDeliver, hskb, hb]
  exact ⟨rfl, rfl⟩

/-- Where the processing of a bridged SNDU is, and what it has handed up. -/
inductive BridgedStage (ops : UleOps) (s : Ule) (c : Chain) (hd₀ : Hdr) (t : Ule) : Prop where
  | start : t = s → BridgedStage ops s c hd₀ t
  | ext {dest : List UInt8} {total : ℤ} {hd : Hdr} : t.pc = .ext dest total → At c hd t.p →
      c.Walks hd₀ hd → hd.type < 1536 → total = (hd.off : ℤ) - hd₀.off → t.rx = s.rx →
      t.p.uleBridged = true ∨ hd.hlen = 0 → BridgedStage ops s c hd₀ t
  | deliver {dest : List UInt8} {hd : Hdr} : t.pc = .deliver dest → c.Walks hd₀ hd →
      1536 ≤ hd.type → t.p.uleSkb = some (skbPull c.skb (hd.off - hd₀.off)) →
      t.p.uleBridged = true → t.rx = s.rx → BridgedStage ops s c hd₀ t
  | dropped : t.pc = .more → t.rx = s.rx → BridgedStage ops s c hd₀ t
  | delivered {hd : Hdr} : t.pc = .more → c.Walks hd₀ hd → 1536 ≤ hd.type →
      t.rx = s.rx ++ [(dvbNetEthTypeTrans ops (skbPull c.skb (hd.off - hd₀.off))).1] →
      BridgedStage ops s c hd₀ t
  | fault : t.pc = .fault → t.rx = s.rx → BridgedStage ops s c hd₀ t

theorem off_le_of_walks (hv : c.Walks hd₀ hd) : hd₀.off ≤ hd.off := by
  induction hv with
  | refl => exact Nat.le_refl _
  | tail _ hn ih => exact Nat.le_trans ih hn.1.off_le

/-- A round of the loop. -/
theorem bridgedStage_ext (hpc : t.pc = .ext dest total) (h : At c hd t.p) (hv : c.Walks hd₀ hd)
    (ht : hd.type < 1536) (htotal : total = (hd.off : ℤ) - hd₀.off) (hrx : t.rx = s.rx)
    (hb : t.p.uleBridged = true ∨ hd.hlen = 0) :
    BridgedStage ops s c hd₀ (uleStep ops t) := by
  by_cases hw : c.Within c.skb.size hd
  · by_cases hn : ∃ hd', c.Next hd hd'
    · obtain ⟨hd', hn⟩ := hn
      have hwalk : c.Walks hd₀ hd' := hv.tail ⟨hn, hw⟩
      have hb' : (t.p.uleBridged || decide (hd.hlen = 0)) = true := by
        rcases hb with hb | hb
        · rw [hb, Bool.true_or]
        · rw [decide_eq_true hb, Bool.or_true]
      have hlo := off_le_of_walks hv
      have hoff := hn.off_le
      rw [ext_next hpc h hn hw]
      split_ifs with ht'
      · exact .ext rfl (at_moved h hd') hwalk ht' (by omega) hrx (Or.inl hb')
      · have hl : (total + ((hd'.off : ℤ) - hd.off)).toNat = hd'.off - hd₀.off := by omega
        have hpull : pull (c.moved t.p hd hd') (hd'.off - hd₀.off) =
            { c.moved t.p hd hd' with
              uleSkb := some (skbPull c.skb (hd'.off - hd₀.off))
              pulls := t.p.pulls ++ [(hd'.off - hd₀.off, c.skb.len)] } := by
          rw [pull, (at_moved h hd').skb]
          rfl
        rw [hl, hpull]
        exact .deliver rfl hwalk (Nat.not_lt.mp ht') rfl hb' hrx
    · rw [ext_stop hpc h ht (fun hd' hn' => hn ⟨hd', hn'⟩) hw]
      exact .dropped rfl hrx
  · rw [ext_fault hpc h hw]
    exact .fault rfl hrx

/-- **The processing of a bridged SNDU is at one of its stages.** -/
theorem bridgedStage_of_processing
    (hstart : BridgedStage ops s c hd₀ (uleStep ops s)) (h : Processing ops s t) :
    BridgedStage ops s c hd₀ t := by
  refine Processing.inv (I := BridgedStage ops s c hd₀) ?_ (.start rfl) h
  rintro u hu hst
  cases hst with
  | start hus =>
    rw [hus]
    exact hstart
  | ext hpc hat hv ht htotal hrx hb => exact bridgedStage_ext hpc hat hv ht htotal hrx hb
  | deliver hpc hv ht hskb hb hrx =>
    obtain ⟨hpc', hrx'⟩ := deliver_bridged ops hpc hskb hb
    rw [hrx] at hrx'
    exact .delivered hpc' hv ht hrx'
  | dropped hmore => exact absurd hmore hu
  | delivered hmore => exact absurd hmore hu
  | fault hpc hrx =>
    refine .fault ?_ ?_
    · unfold uleStep
      rw [hpc]
      exact hpc
    · unfold uleStep
      rw [hpc]
      exact hrx

/-- **A chain that ends with the type of a payload is walked to its end.** -/
theorem processing_of_walks (ops : UleOps) (hv : c.Walks hd hd') (ht' : 1536 ≤ hd'.type) :
    ∀ {t : Ule} {total : ℤ}, t.pc = .ext dest total → At c hd t.p → hd.type < 1536 →
      t.p.uleBridged = true ∨ hd.hlen = 0 → ∃ u, Processing ops t u ∧ u.pc = .deliver dest ∧
        u.rx = t.rx ∧ u.p.uleBridged = true ∧
        u.p.uleSkb = some (skbPull c.skb (total + ((hd'.off : ℤ) - hd.off)).toNat) := by
  induction hv using Relation.ReflTransGen.head_induction_on with
  | refl =>
    intro t total hpc h ht hb
    exact absurd ht (Nat.not_lt.mpr ht')
  | head hn hv ih =>
    rename_i a b
    intro t total hpc h ht hb
    have hmore : t.pc ≠ .more := by
      rw [hpc]
      rintro ⟨⟩
    have hb' : (t.p.uleBridged || decide (a.hlen = 0)) = true := by
      rcases hb with hb | hb
      · rw [hb, Bool.true_or]
      · rw [decide_eq_true hb, Bool.or_true]
    have hstep : uleStep ops t = _ := ext_next hpc h hn.1 hn.2
    by_cases hbt : b.type < 1536
    · rw [if_pos hbt] at hstep
      obtain ⟨u, hu, hpcu, hrx, hbu, hskb⟩ := ih (t := { t with
        p := c.moved t.p a b, pc := .ext dest (total + ((b.off : ℤ) - a.off)) })
        rfl (at_moved h b) hbt (Or.inl hb')
      refine ⟨u, Processing.head hmore hstep hu, hpcu, hrx, hbu, ?_⟩
      rw [hskb]
      congr 3
      omega
    · rw [if_neg hbt] at hstep
      rcases Relation.ReflTransGen.cases_head hv with rfl | ⟨d, hd, -⟩
      · refine ⟨_, Processing.single hmore hstep, rfl, rfl, ?_, ?_⟩
        · rw [pull, (at_moved h b).skb]
          exact hb'
        · rw [pull, (at_moved h b).skb]
      · exact absurd hd.1.type_lt hbt

/-- Pulling headers from a bridged skb changes the packet, if there is anything to pull and enough
to pull it from. -/
theorem pulled_frame_iff (ops : UleOps) (hend : skb.tail = skb.data + skb.len) (l : ℕ) :
    (dvbNetEthTypeTrans ops (skbPull skb l)).1.frame = skb.mem.read skb.data skb.len ↔
      l = 0 ∨ skb.len < l := by
  rw [ethTypeTrans_frame, skbPull]
  by_cases hl : l > skb.len
  · rw [if_pos hl, hend, Nat.add_sub_cancel_left]
    exact ⟨fun _ => Or.inr hl, fun _ => rfl⟩
  · rw [if_neg hl]
    dsimp only
    constructor
    · intro heq
      have hlen := congrArg List.length heq
      rw [Mem.length_read, Mem.length_read] at hlen
      omega
    · rintro (rfl | hlt)
      · rw [Nat.add_zero, hend, Nat.add_sub_cancel_left]
      · exact absurd hlt hl

/-! ## The inner frame -/

/-- The type or length field of an Ethernet frame. -/
def hProto (frame : List UInt8) : ℕ := be16 (frame.getD 12 0) (frame.getD 13 0)

/-- An Ethernet frame, with a type or with the length of its payload. -/
structure EthFrame (frame : List UInt8) : Prop where
  header : ETH_HLEN ≤ frame.length
  proto : ETH_P_802_3_MIN ≤ hProto frame ∨ hProto frame = frame.length - ETH_HLEN

variable {u : Sndu}

/-- Where the type of the inner frame stands, there it is. -/
theorem Holds.word_proto (h : Holds ops u s skb) (hf : EthFrame u.payload) :
    (postCrc s skb).word ((firstHdr s skb).off + 12) = hProto u.payload := by
  have hlen : 14 ≤ u.payload.length := hf.header
  have hget : ∀ i, i < 14 → (skb.strip s.p.uleDbit).mem ((skb.strip s.p.uleDbit).data + i) =
      u.payload.getD i 0 := by
    intro i hi
    rw [Mem.apply_of_read_eq h.strip.2 (show i < u.payload.length by omega),
      List.getD_eq_getElem?_getD, List.getElem?_eq_getElem (by omega), Option.getD_some]
  have h12 := hget 12 (by decide)
  have h13 := hget 13 (by decide)
  change be16 _ _ = be16 _ _
  rw [← h12, ← h13]
  rfl

/-- **The length test fails for every frame that has a length.** -/
theorem bridges_iff (h : Holds ops u s skb) (ht : u.type = 1) (hf : EthFrame u.payload) :
    (postCrc s skb).Bridges (firstHdr s skb) ↔ ETH_P_802_3_MIN ≤ hProto u.payload := by
  have htype : (firstHdr s skb).type = 1 := h.type.trans ht
  have hlen : (firstHdr s skb).hlen = 0 := by rw [Hdr.hlen, htype]
  have hidx : (firstHdr s skb).htype = 1 := by rw [Hdr.htype, htype]
  have hword := h.word_proto hf
  have hsnd : (postCrc s skb).sndLen = u.len := h.sndLen
  have hdata : (postCrc s skb).skb.data = (firstHdr s skb).off := rfl
  have hul : u.len = (u.dest.getD []).length + u.payload.length + 4 := by
    rw [Sndu.len, Sndu.body, List.length_append]
  have hm : ETH_P_802_3_MIN = 1536 := rfl
  have hh : ETH_HLEN = 14 := rfl
  have hhead := hf.header
  rw [Chain.Bridges, hword, hsnd, hdata]
  constructor
  · rintro ⟨-, -, hb⟩
    by_contra hlt
    have hb := hb (by omega)
    rcases hf.proto with hp | hp <;> omega
  · intro hge
    exact ⟨hlen, hidx, fun hlt => absurd hlt (by omega)⟩

/-! ## Delivery -/

/-- What is found where the type of the inner frame is looked for with a destination address. -/
def misread (s : Ule) (skb : SkBuff) : Hdr :=
  ⟨(firstHdr s skb).off, (postCrc s skb).word ((firstHdr s skb).off + 18)⟩

/-- It is there, and it is the type of a payload, or it starts a chain of headers that ends with
one, and that is longer than the frame, so that it is not pulled. -/
def MisreadHarmless (s : Ule) (skb : SkBuff) (frame : List UInt8) : Prop :=
  (firstHdr s skb).off + 20 ≤ skb.size ∧
    ∃ hd, (postCrc s skb).Walks (misread s skb) hd ∧ ETH_P_802_3_MIN ≤ hd.type ∧
      (hd.off = (misread s skb).off ∨ frame.length < hd.off - (misread s skb).off)

/-- The header behind the bridged one. -/
def behindBridged (s : Ule) (skb : SkBuff) : Hdr :=
  ⟨(firstHdr s skb).off, (postCrc s skb).word ((postCrc s skb).innerType (firstHdr s skb))⟩

/-- A bridged header is within the memory of the skb if the type behind it is. -/
theorem within_bridged (h : Holds ops u s skb) (hf : EthFrame u.payload)
    (hb : (postCrc s skb).Bridges (firstHdr s skb)) :
    (postCrc s skb).Within (postCrc s skb).skb.size (firstHdr s skb) ↔
      (u.dest = none ∨ (firstHdr s skb).off + 20 ≤ skb.size) := by
  have hsize : (postCrc s skb).skb.size = skb.size := strip_size skb _
  have hend := strip_end h.complete
  have htail := strip_tail skb s.p.uleDbit
  have hlen := h.strip.1
  have hin := h.size
  have hhead : 14 ≤ u.payload.length := hf.header
  have hoff : (firstHdr s skb).off = (skb.strip s.p.uleDbit).data := rfl
  have hdbit : (postCrc s skb).dbit = s.p.uleDbit := rfl
  rw [Chain.Within, touched_bridged hb.1 hb.2.1, hsize, Chain.innerType, hdbit]
  constructor
  · rintro ⟨-, -, hinner⟩
    by_cases hd : u.dest = none
    · exact Or.inl hd
    · right
      have hinner := hinner hb
      rw [if_neg fun hd' => hd (h.dbit_iff.mp hd')] at hinner
      exact hinner
  · intro hfit
    refine ⟨?_, by omega, fun _ => ?_⟩
    · rw [hb.2.1]
      decide
    · rcases hfit with hd | hfit
      · rw [if_pos (h.dbit_iff.mpr hd)]
        omega
      · split_ifs <;> omega

/-- **The chain of a bridged SNDU**, if the length test is passed and the type behind it is there. -/
theorem bridged_next (h : Holds ops u s skb) (ht : u.type = 1)
    (hb : (postCrc s skb).Bridges (firstHdr s skb)) :
    (postCrc s skb).Next (firstHdr s skb) (behindBridged s skb) := by
  refine Chain.Next.bridged ?_ hb
  rw [show (firstHdr s skb).type = 1 from h.type.trans ht]
  decide

theorem next_unique {b : Hdr} (hn : c.Next hd hd') (hb : c.Next hd b) : hd' = b := by
  cases hn with
  | optional _ hlen _ =>
    cases hb with
    | optional => rfl
    | bridged _ hbr => exact absurd hbr.1 hlen
  | bridged _ hbr =>
    cases hb with
    | optional _ hlen _ => exact absurd hbr.1 hlen
    | bridged => rfl

/-- Without a destination address, the type of the frame is found. -/
theorem behindBridged_noAddr (h : Holds ops u s skb) (hf : EthFrame u.payload)
    (hd : u.dest = none) : behindBridged s skb = ⟨(firstHdr s skb).off, hProto u.payload⟩ := by
  have hin : (postCrc s skb).innerType (firstHdr s skb) = (firstHdr s skb).off + 12 := by
    rw [Chain.innerType, if_pos]
    exact h.dbit_iff.mpr hd
  rw [behindBridged, hin, h.word_proto hf]

theorem behindBridged_addr (h : Holds ops u s skb) (hd : u.dest ≠ none) :
    behindBridged s skb = misread s skb := by
  have hin : (postCrc s skb).innerType (firstHdr s skb) = (firstHdr s skb).off + 18 := by
    rw [Chain.innerType, if_neg]
    exact fun hd' => hd (h.dbit_iff.mp hd')
  rw [behindBridged, hin, misread]

/-- When the chain of a bridged SNDU ends without harm. -/
theorem walks_bridged_iff (h : Holds ops u s skb) (ht : u.type = 1) (hf : EthFrame u.payload) :
    (∃ hd, (postCrc s skb).Walks (firstHdr s skb) hd ∧ ETH_P_802_3_MIN ≤ hd.type ∧
      (hd.off - (firstHdr s skb).off = 0 ∨ u.payload.length < hd.off - (firstHdr s skb).off)) ↔
    ETH_P_802_3_MIN ≤ hProto u.payload ∧
      (u.dest = none ∨ MisreadHarmless s skb u.payload) := by
  have htype : (firstHdr s skb).type = 1 := h.type.trans ht
  constructor
  · rintro ⟨hd, hwalk, hge, hpull⟩
    rcases Relation.ReflTransGen.cases_head hwalk with rfl | ⟨b, ⟨hn, hw⟩, hrest⟩
    · rw [htype] at hge
      exact absurd hge (by decide)
    · have hb : (postCrc s skb).Bridges (firstHdr s skb) := by
        cases hn with
        | optional _ hlen _ =>
          rw [Hdr.hlen, htype] at hlen
          exact absurd rfl hlen
        | bridged _ hb => exact hb
      refine ⟨(bridges_iff h ht hf).mp hb, ?_⟩
      by_cases hdest : u.dest = none
      · exact Or.inl hdest
      · right
        obtain rfl := next_unique (bridged_next h ht hb) hn
        rw [behindBridged_addr h hdest] at hrest
        refine ⟨((within_bridged h hf hb).mp hw).resolve_left hdest, hd, hrest, hge, ?_⟩
        have hle : (firstHdr s skb).off ≤ hd.off := off_le_of_walks hwalk
        rcases hpull with hpull | hpull
        · exact Or.inl (Nat.le_antisymm (Nat.le_of_sub_eq_zero hpull) hle)
        · exact Or.inr hpull
  · rintro ⟨hge, hdest⟩
    have hb := (bridges_iff h ht hf).mpr hge
    have hw : (postCrc s skb).Within (postCrc s skb).skb.size (firstHdr s skb) :=
      (within_bridged h hf hb).mpr (hdest.imp_right And.left)
    have hn := bridged_next h ht hb
    by_cases hdn : u.dest = none
    · refine ⟨behindBridged s skb, Relation.ReflTransGen.single ⟨hn, hw⟩, ?_,
        Or.inl (Nat.sub_self _)⟩
      rw [behindBridged_noAddr h hf hdn]
      exact hge
    · obtain ⟨-, hd, hwalk, hge', hpull⟩ := hdest.resolve_left hdn
      rw [← behindBridged_addr h hdn] at hwalk
      refine ⟨hd, Relation.ReflTransGen.head ⟨hn, hw⟩ hwalk, hge', ?_⟩
      rcases hpull with hpull | hpull
      · left
        rw [hpull]
        exact Nat.sub_self _
      · exact Or.inr hpull

/-- The first step of a bridged SNDU that is not dropped. -/
theorem bridged_start (h : Holds ops u s skb) (ht : u.type = 1) (hacc : ¬ Drops ops s.p skb) :
    (uleStep ops s).pc = .ext (destOf s skb) 0 ∧
      At (postCrc s skb) (firstHdr s skb) (uleStep ops s).p ∧ (uleStep ops s).rx = s.rx := by
  obtain ⟨reads, pulls, hstep, -, -⟩ := complete_pass h.complete hacc h.addr_fits
  rw [hstep]
  rcases headers_cases (s := { s with
      p.uleSkb := some (skb.strip s.p.uleDbit), p.reads := reads, p.pulls := pulls }) rfl
      (destOf s skb) with ⟨-, hpc, hp⟩ | ⟨hge, -⟩
  · refine ⟨hpc, ?_, ?_⟩
    · rw [hp]
      exact ⟨rfl, rfl, rfl, rfl, rfl⟩
    · rw [dvbNetUleHeaders]
      split_ifs <;> rfl
  · refine absurd ?_ hge
    rw [show s.p.uleSnduType = 1 from h.type.trans ht]
    decide

/-- **A bridged frame is handed up unchanged exactly if** it has a type, not a length, and, where
there is a destination address, what the code takes for its type does no harm. -/
theorem bridged_delivered_iff (ops : UleOps) (u : Sndu) (s : Ule) (skb : SkBuff)
    (h : Holds ops u s skb) (ht : u.type = 1) (hf : EthFrame u.payload)
    (hacc : ¬ Drops ops s.p skb) :
    (∃ t, Processing ops s t ∧ t.pc = .more ∧
      ∃ pktType protocol, t.rx = s.rx ++ [⟨u.payload, pktType, protocol⟩]) ↔
    ETH_P_802_3_MIN ≤ hProto u.payload ∧ (u.dest = none ∨ MisreadHarmless s skb u.payload) := by
  have htype : (firstHdr s skb).type = 1 := h.type.trans ht
  have hlt : (firstHdr s skb).type < 1536 := by
    rw [htype]
    decide
  have hlen0 : (firstHdr s skb).hlen = 0 := by rw [Hdr.hlen, htype]
  obtain ⟨hpc, hat, hrx⟩ := bridged_start h ht hacc
  obtain ⟨hlen, hread⟩ := h.strip
  have hpull := fun l => pulled_frame_iff ops (strip_end h.complete) l
  rw [hlen, hread] at hpull
  rw [← walks_bridged_iff h ht hf]
  constructor
  · rintro ⟨t, hproc, hmore, pktType, protocol, hrxt⟩
    have hstage := bridgedStage_of_processing
      (.ext hpc hat Relation.ReflTransGen.refl hlt (Int.sub_self _).symm hrx (Or.inr hlen0)) hproc
    have hnew : t.rx ≠ s.rx := by
      intro heq
      have := congrArg List.length (hrxt.symm.trans heq)
      rw [List.length_append, List.length_singleton] at this
      omega
    cases hstage with
    | start hts =>
      rw [hts, h.pc] at hmore
      cases hmore
    | ext hpct =>
      rw [hpct] at hmore
      cases hmore
    | deliver hpct =>
      rw [hpct] at hmore
      cases hmore
    | dropped _ hrx' => exact absurd hrx' hnew
    | delivered _ hwalk hge hrx' =>
      refine ⟨_, hwalk, hge, (hpull _).mp ?_⟩
      have hframe := List.append_cancel_left (hrx'.symm.trans hrxt)
      exact congrArg RxFrame.frame (List.head_eq_of_cons_eq hframe)
    | fault _ hrx' => exact absurd hrx' hnew
  · rintro ⟨hd, hwalk, hge, hl⟩
    have hmore : s.pc ≠ .more := by
      rw [h.pc]
      rintro ⟨⟩
    obtain ⟨t, hproc, hpct, hrxt, hbt, hskbt⟩ :=
      processing_of_walks ops hwalk hge hpc hat hlt (Or.inr hlen0)
    obtain ⟨hpc', hrx'⟩ := deliver_bridged ops hpct hskbt hbt
    have hle := off_le_of_walks hwalk
    have htotal : ((0 : ℤ) + ((hd.off : ℤ) - (firstHdr s skb).off)).toNat =
        hd.off - (firstHdr s skb).off := by omega
    rw [htotal] at hrx'
    generalize hframe : (dvbNetEthTypeTrans ops
      (skbPull (postCrc s skb).skb (hd.off - (firstHdr s skb).off))).1 = frame at hrx'
    have hbytes : frame.frame = u.payload := by
      rw [← hframe]
      exact (hpull _).mpr hl
    refine ⟨uleStep ops t, Processing.head hmore rfl (hproc.trans (Processing.single ?_ rfl)),
      hpc', frame.pktType, frame.protocol, ?_⟩
    · rw [hpct]
      rintro ⟨⟩
    · rw [hrx', hrxt, hrx, ← hbytes]

/-- An IPv4 packet in an Ethernet frame, bridged without a destination address. -/
def bridgedIp : Sndu where
  dest := none
  type := 1
  payload := [2, 0, 0, 0, 0, 1] ++ [2, 0, 0, 0, 0, 2] ++ [8, 0] ++ [0x45, 0, 0, 20, 0, 1]
  length_dest := length_dest_none
  type_lt := bridged_type_lt
  payload_pos := by decide
  length_le := by decide

theorem bridged_delivered_ip :
    ∃ t, Processing plainOps (arrived plainOps .RX_MODE_UNI bridgedIp) t ∧ t.pc = .more ∧
      ∃ pktType protocol, t.rx = [] ++ [⟨bridgedIp.payload, pktType, protocol⟩] :=
  (bridged_delivered_iff plainOps bridgedIp _ _ (arrived_holds .RX_MODE_UNI bridgedIp) rfl
    ⟨by decide, by decide⟩ (by decide)).mpr ⟨by decide, Or.inl rfl⟩

/-- An LLC frame with three bytes of payload, bridged without a destination address. -/
def bridgedLlc : Sndu :=
  { bridgedIp with
    payload := [2, 0, 0, 0, 0, 1] ++ [2, 0, 0, 0, 0, 2] ++ [0, 3] ++ [0x42, 0x42, 3]
    payload_pos := by decide
    length_le := by decide }

/-- The LLC frame is discarded, because its length is not that of the frame with the CRC. -/
theorem bridged_llc_lost :
    EthFrame bridgedLlc.payload ∧
      ∃ n, (uleRun plainOps n ((Ule.init .RX_MODE_PROMISC []).callCells
        [uleCell true 0 (0 :: bridgedLlc.bytes plainOps) (by decide +kernel)])).pc = .done ∧
      (uleRun plainOps n ((Ule.init .RX_MODE_PROMISC []).callCells
        [uleCell true 0 (0 :: bridgedLlc.bytes plainOps) (by decide +kernel)])).rx = [] := by
  refine ⟨⟨by decide, by decide⟩, 14, ?_⟩
  decide +kernel

end Net
end TbsMedia
