import TbsMedia.DvbNet.Sndu
import TbsMedia.DvbNet.UleExtension

/-!
# Behind the CRC check

What `dvb_net_ule_check_crc` does with an SNDU that has arrived completely and with the right CRC:
it removes the CRC and the destination address, follows the chain of extension headers, and hands
the packet up.  `Complete` is the state at its start, and `Processing` relates it to the states on
the way to the next SNDU.
-/

namespace TbsMedia
namespace Net

open Lib

variable (ops : UleOps)

/-- An SNDU has arrived that passes the length check and the CRC check. -/
structure Complete (s : Ule) (skb : SkBuff) : Prop where
  pc : s.pc = .complete
  remain : s.p.uleSnduRemain = 0
  cur : s.p.uleSkb = some skb
  five_le : 5 ≤ s.p.uleSnduLen
  len : skb.len = s.p.uleSnduLen
  tail : skb.tail = skb.data + skb.len
  size : skb.tail ≤ skb.size
  bridged : s.p.uleBridged = false
  crc : uleCrc ops s.p skb = expectedCrc skb

/-- The states on the way from `s` to the end of the SNDU. -/
def Processing : Ule → Ule → Prop :=
  Relation.ReflTransGen fun s t => s.pc ≠ .more ∧ uleStep ops s = t

/-- The destination address is looked at, and it is not for this device. -/
def Drops (p : DvbNetPriv) (skb : SkBuff) : Prop :=
  p.uleDbit = 0 ∧ p.rxMode ≠ .RX_MODE_PROMISC ∧ dropAddr ops p skb = true

instance (p : DvbNetPriv) (skb : SkBuff) : Decidable (Drops ops p skb) :=
  inferInstanceAs (Decidable (_ ∧ _))

/-- The skb without the CRC and without the destination address, if there is one. -/
def SkBuff.strip (skb : SkBuff) (dbit : UInt8) : SkBuff :=
  if dbit ≠ 0 then skb.trim else skbPull skb.trim ETH_ALEN

/-- What is read of the destination address. -/
def SkBuff.addrReads (skb : SkBuff) : List (ℕ × ℕ) :=
  (List.range ETH_ALEN).map fun i => (skb.data + i, skb.tail - 4)

variable {ops} {s t : Ule} {skb : SkBuff}

theorem Processing.trans {u : Ule} (hst : Processing ops s t) (htu : Processing ops t u) :
    Processing ops s u :=
  Relation.ReflTransGen.trans hst htu

theorem Processing.single (hpc : s.pc ≠ .more) (h : uleStep ops s = t) : Processing ops s t :=
  Relation.ReflTransGen.single ⟨hpc, h⟩

theorem Processing.head {u : Ule} (hpc : s.pc ≠ .more) (h : uleStep ops s = t)
    (htu : Processing ops t u) : Processing ops s u :=
  Relation.ReflTransGen.head ⟨hpc, h⟩ htu

/-- What every step up to the end of the SNDU preserves. -/
theorem Processing.inv {I : Ule → Prop} (hstep : ∀ s, s.pc ≠ .more → I s → I (uleStep ops s))
    (hs : I s) (h : Processing ops s t) : I t := by
  induction h with
  | refl => exact hs
  | tail _ hbc ih =>
    obtain ⟨hpc, rfl⟩ := hbc
    exact hstep _ hpc ih

theorem touch_eq {p : DvbNetPriv} (skb : SkBuff) (a n : ℕ) (h : p.uleSkb = some skb) :
    touch p a n =
      if a + n ≤ skb.size then
        some (skb, { p with reads := p.reads ++ (List.range n).map fun i => (a + i, skb.tail) })
      else none := by
  unfold touch
  rw [h]

/-! ## The step over the CRC and the address -/

theorem complete_step (h : Complete ops s skb) :
    uleStep ops s = dvbNetUleCheckCrc ops s skb (uleCrc ops s.p skb) (expectedCrc skb) := by
  unfold uleStep
  rw [h.pc]
  dsimp only
  rw [dvbNetUleComplete, if_pos h.remain, h.cur]

/-- Without an address the step goes on to the extension headers. -/
theorem complete_noAddr (h : Complete ops s skb) (hd : s.p.uleDbit ≠ 0) :
    uleStep ops s =
      dvbNetUleHeaders { s with p.uleSkb := some (skb.strip s.p.uleDbit) }
        (List.replicate ETH_ALEN 0) := by
  rw [complete_step h, dvbNetUleCheckCrc, if_neg (not_not.mpr h.crc)]
  dsimp only
  rw [if_pos hd, SkBuff.strip, if_pos hd]

/-- The reads of a step that looks at the destination address. -/
def AddrRead (skb : SkBuff) (before after : List (ℕ × ℕ)) : Prop :=
  (∀ r ∈ after, r ∈ before ∨ r ∈ skb.addrReads) ∧ (∀ r ∈ before, r ∈ after) ∧
    ∀ r ∈ skb.addrReads, r ∈ after

theorem addrRead_once (skb : SkBuff) (before : List (ℕ × ℕ)) :
    AddrRead skb before (before ++ skb.addrReads) :=
  ⟨fun _ => List.mem_append.mp, fun _ => List.mem_append_left _, fun _ => List.mem_append_right _⟩

theorem addrRead_twice (skb : SkBuff) (before : List (ℕ × ℕ)) :
    AddrRead skb before (before ++ skb.addrReads ++ skb.addrReads) := by
  refine ⟨fun r hr => ?_, fun r hr => ?_, fun r hr => List.mem_append_right _ hr⟩
  · rcases List.mem_append.mp hr with hr | hr
    · exact List.mem_append.mp hr
    · exact Or.inr hr
  · exact List.mem_append_left _ (List.mem_append_left _ hr)

theorem touch_addr {p : DvbNetPriv} (h : p.uleSkb = some skb.trim)
    (hfit : skb.data + ETH_ALEN ≤ skb.size) :
    touch p skb.trim.data ETH_ALEN =
      some (skb.trim, { p with reads := p.reads ++ skb.addrReads }) := by
  rw [touch_eq skb.trim _ _ h, if_pos (show skb.trim.data + ETH_ALEN ≤ skb.trim.size from hfit)]
  rfl

/-- An address that is not for this device ends the SNDU. -/
theorem complete_drop (h : Complete ops s skb) (hdrop : Drops ops s.p skb)
    (hfit : skb.data + ETH_ALEN ≤ skb.size) :
    ∃ reads, AddrRead skb s.p.reads reads ∧
      uleStep ops s = Ule.finish { s with p.uleSkb := some skb.trim, p.reads := reads } := by
  obtain ⟨hd, hprom, hdrop⟩ := hdrop
  refine ⟨_, addrRead_once skb _, ?_⟩
  rw [complete_step h, dvbNetUleCheckCrc, if_neg (not_not.mpr h.crc)]
  dsimp only
  rw [if_neg (not_not.mpr hd), dvbNetUleShouldDrop, if_neg hprom, touch_addr rfl hfit]
  have hdrop' : dropAddr ops { s.p with
      uleSkb := some skb.trim, reads := s.p.reads ++ skb.addrReads } skb.trim = true := hdrop
  dsimp only [Option.map_some]
  rw [hdrop']

/-- An address that is for this device is removed. -/
theorem complete_addr (h : Complete ops s skb) (hd : s.p.uleDbit = 0)
    (hdrop : ¬ Drops ops s.p skb) (hfit : skb.data + ETH_ALEN ≤ skb.size) :
    ∃ reads, AddrRead skb s.p.reads reads ∧
      uleStep ops s =
        dvbNetUleHeaders
          { s with
            p.uleSkb := some (skb.strip s.p.uleDbit), p.reads := reads
            p.pulls := s.p.pulls ++ [(ETH_ALEN, skb.len - 4)] }
          (skb.mem.read skb.data ETH_ALEN) := by
  by_cases hprom : s.p.rxMode = .RX_MODE_PROMISC
  · refine ⟨_, addrRead_once skb _, ?_⟩
    rw [complete_step h, dvbNetUleCheckCrc, if_neg (not_not.mpr h.crc)]
    dsimp only
    rw [if_neg (not_not.mpr hd), dvbNetUleShouldDrop, if_pos hprom]
    dsimp only
    rw [touch_addr rfl hfit, SkBuff.strip, if_neg (not_not.mpr hd)]
    rfl
  · have hkeep : dropAddr ops s.p skb = false := by
      by_contra hk
      exact hdrop ⟨hd, hprom, (Bool.not_eq_false _).mp hk⟩
    refine ⟨_, addrRead_twice skb _, ?_⟩
    rw [complete_step h, dvbNetUleCheckCrc, if_neg (not_not.mpr h.crc)]
    dsimp only
    rw [if_neg (not_not.mpr hd), dvbNetUleShouldDrop, if_neg hprom, touch_addr rfl hfit]
    have hkeep' : dropAddr ops { s.p with
        uleSkb := some skb.trim, reads := s.p.reads ++ skb.addrReads } skb.trim = false := hkeep
    dsimp only [Option.map_some]
    rw [hkeep']
    dsimp only
    rw [touch_addr rfl hfit, SkBuff.strip, if_neg (not_not.mpr hd)]
    rfl

/-- An address that ends outside the memory of the skb. -/
theorem complete_fault (h : Complete ops s skb) (hd : s.p.uleDbit = 0)
    (hfit : ¬ skb.data + ETH_ALEN ≤ skb.size) : uleStep ops s = Ule.goto
      { s with p.uleSkb := some skb.trim } .fault := by
  have htouch : touch { s.p with uleSkb := some skb.trim } skb.trim.data ETH_ALEN = none := by
    rw [touch_eq skb.trim _ _ rfl, if_neg (show ¬ skb.trim.data + ETH_ALEN ≤ skb.trim.size from hfit)]
  rw [complete_step h, dvbNetUleCheckCrc, if_neg (not_not.mpr h.crc)]
  dsimp only
  rw [if_neg (not_not.mpr hd), dvbNetUleShouldDrop]
  by_cases hprom : s.p.rxMode = .RX_MODE_PROMISC
  · rw [if_pos hprom]
    dsimp only
    rw [htouch]
  · rw [if_neg hprom, htouch]
    rfl

/-! ## The skb behind the address -/

/-- The chain of extension headers behind the destination address. -/
def postCrc (s : Ule) (skb : SkBuff) : Chain := ⟨skb.strip s.p.uleDbit, s.p.uleSnduLen, s.p.uleDbit⟩

/-- Its first header. -/
def firstHdr (s : Ule) (skb : SkBuff) : Hdr := ⟨(skb.strip s.p.uleDbit).data, s.p.uleSnduType⟩

theorem strip_tail (skb : SkBuff) (dbit : UInt8) : (skb.strip dbit).tail = skb.tail - 4 := by
  unfold SkBuff.strip skbPull
  split_ifs <;> rfl

theorem strip_size (skb : SkBuff) (dbit : UInt8) : (skb.strip dbit).size = skb.size := by
  unfold SkBuff.strip skbPull
  split_ifs <;> rfl

theorem strip_mem (skb : SkBuff) (dbit : UInt8) : (skb.strip dbit).mem = skb.mem := by
  unfold SkBuff.strip skbPull
  split_ifs <;> rfl

/-- Behind the address the skb is shorter, and still ends at its tail. -/
theorem strip_end (h : Complete ops s skb) :
    (skb.strip s.p.uleDbit).tail =
      (skb.strip s.p.uleDbit).data + (skb.strip s.p.uleDbit).len := by
  have h5 := h.five_le
  have hl := h.len
  have ht := h.tail
  have he : ETH_ALEN = 6 := rfl
  unfold SkBuff.strip skbPull SkBuff.trim
  split_ifs with hd hlt <;> dsimp only at * <;> omega

/-- The address that the packet is delivered with. -/
def destOf (s : Ule) (skb : SkBuff) : List UInt8 :=
  if s.p.uleDbit ≠ 0 then List.replicate ETH_ALEN 0 else skb.mem.read skb.data ETH_ALEN

/-- **The step over the CRC and the address**, of an SNDU that is not dropped. -/
theorem complete_pass (h : Complete ops s skb) (hdrop : ¬ Drops ops s.p skb)
    (hfit : s.p.uleDbit ≠ 0 ∨ skb.data + ETH_ALEN ≤ skb.size) :
    ∃ reads pulls,
      uleStep ops s =
        dvbNetUleHeaders
          { s with
            p.uleSkb := some (skb.strip s.p.uleDbit), p.reads := reads, p.pulls := pulls }
          (destOf s skb) ∧
      (s.p.uleDbit ≠ 0 → reads = s.p.reads ∧ pulls = s.p.pulls) ∧
      (s.p.uleDbit = 0 →
        AddrRead skb s.p.reads reads ∧ pulls = s.p.pulls ++ [(ETH_ALEN, skb.len - 4)]) := by
  unfold destOf
  by_cases hd : s.p.uleDbit = 0
  · obtain ⟨reads, hreads, hstep⟩ := complete_addr h hd hdrop (hfit.resolve_left (not_not.mpr hd))
    rw [if_neg (not_not.mpr hd)]
    exact ⟨reads, _, hstep, fun hd' => absurd hd hd', fun _ => ⟨hreads, rfl⟩⟩
  · rw [if_pos hd]
    exact ⟨s.p.reads, s.p.pulls, complete_noAddr h hd, fun _ => ⟨rfl, rfl⟩, fun hd' => absurd hd' hd⟩

/-- The processing comes to the extension headers, or to the payload. -/
theorem headers_cases (h : s.p.uleSkb = some skb) (dest : List UInt8) :
    (s.p.uleSnduType < 1536 ∧ (dvbNetUleHeaders s dest).pc = .ext dest 0 ∧
      (dvbNetUleHeaders s dest).p = { s.p with uleNextHdr := skb.data }) ∨
    (¬ s.p.uleSnduType < 1536 ∧ dvbNetUleHeaders s dest = s.goto (.deliver dest)) := by
  unfold dvbNetUleHeaders
  rw [h]
  by_cases ht : s.p.uleSnduType < ETH_P_802_3_MIN
  · rw [if_pos ht]
    exact Or.inl ⟨ht, rfl, rfl⟩
  · rw [if_neg ht]
    exact Or.inr ⟨ht, rfl⟩

/-! ## An SNDU that has arrived -/

variable (ops) in
/-- The SNDU `u` stands in the skb, and nothing of it is missing. -/
structure Holds (u : Sndu) (s : Ule) (skb : SkBuff) : Prop where
  pc : s.pc = .complete
  remain : s.p.uleSnduRemain = 0
  cur : s.p.uleSkb = some skb
  sndLen : s.p.uleSnduLen = u.len
  type : s.p.uleSnduType = u.type
  dbit : s.p.uleDbit = if u.dest = none then 1 else 0
  bridged : s.p.uleBridged = false
  len : skb.len = u.len
  tail : skb.tail = skb.data + skb.len
  size : skb.tail ≤ skb.size
  content : skb.mem.read skb.data skb.len = u.body ++ bytes32 (u.crc ops)

variable {u : Sndu}

theorem Holds.body (h : Holds ops u s skb) : skb.mem.read skb.data (skb.len - 4) = u.body := by
  have hlen : skb.len - 4 = u.body.length := by
    rw [h.len, Sndu.len, Nat.add_sub_cancel]
  rw [← Mem.take_read _ (Nat.sub_le skb.len 4), h.content, hlen, List.take_left' rfl]

/-- The code computes the CRC that the sender has computed. -/
theorem Holds.uleCrc (h : Holds ops u s skb) : Net.uleCrc ops s.p skb = u.crc ops := by
  have hle := u.len_le
  have hword : (u.len ||| if s.p.uleDbit ≠ 0 then 0x8000 else 0) = u.lenWord := by
    rw [h.dbit, Sndu.lenWord]
    by_cases hd : u.dest = none
    · rw [if_pos hd, if_pos hd, if_pos (by decide), Nat.or_comm, Nat.add_comm]
      exact (Nat.two_pow_add_eq_or_of_lt (i := 15) (by omega) 1).symm
    · rw [if_neg hd, if_neg hd, if_neg (by decide), Nat.or_zero, Nat.add_zero]
  rw [Net.uleCrc, h.sndLen, hword, h.type, h.body, Sndu.crc, Sndu.header, ops.crc32Be_append,
    ops.crc32Be_append]
  rfl

theorem Holds.expectedCrc (h : Holds ops u s skb) : Net.expectedCrc skb = u.crc ops := by
  have h5 := u.five_le
  have hl := h.len
  have ht := h.tail
  have hlen : u.body.length = skb.len - 4 := by
    rw [h.len, Sndu.len, Nat.add_sub_cancel]
  have hlen4 : (bytes32 (u.crc ops)).length = 4 := rfl
  have hsplit : skb.mem.read skb.data skb.len = u.body ++ bytes32 (u.crc ops) ↔ _ :=
    Mem.read_eq_append_iff (by omega)
  have hcrc := (hsplit.mp h.content).2
  have hget : ∀ i (hi : i < 4), skb.mem (skb.tail - (4 - i)) =
      (bytes32 (u.crc ops)).get ⟨i, hi⟩ := by
    intro i hi
    have := Mem.apply_of_read_eq hcrc (i := i) (by omega)
    rw [List.get_eq_getElem, ← this]
    congr 1
    omega
  rw [Net.expectedCrc, hget 0 (by decide), hget 1 (by decide), hget 2 (by decide),
    hget 3 (by decide)]
  exact word32_bytes32 _

/-- **An SNDU that has arrived passes the checks.** -/
theorem Holds.complete (h : Holds ops u s skb) : Complete ops s skb where
  pc := h.pc
  remain := h.remain
  cur := h.cur
  five_le := by
    rw [h.sndLen]
    exact u.five_le
  len := h.len.trans h.sndLen.symm
  tail := h.tail
  size := h.size
  bridged := h.bridged
  crc := h.uleCrc.trans h.expectedCrc.symm

theorem Holds.dbit_iff (h : Holds ops u s skb) : s.p.uleDbit ≠ 0 ↔ u.dest = none := by
  rw [h.dbit]
  by_cases hd : u.dest = none
  · rw [if_pos hd]
    exact ⟨fun _ => hd, fun _ => by decide⟩
  · rw [if_neg hd]
    exact ⟨fun h0 => absurd rfl h0, fun hd' => absurd hd' hd⟩

/-- The destination address, if there is one, lies in the memory of the skb. -/
theorem Holds.addr_fits (h : Holds ops u s skb) :
    s.p.uleDbit ≠ 0 ∨ skb.data + ETH_ALEN ≤ skb.size := by
  by_cases hd : u.dest = none
  · exact Or.inl (h.dbit_iff.mpr hd)
  · obtain ⟨d, hd⟩ := Option.ne_none_iff_exists'.mp hd
    have hlen := u.length_dest d hd
    have hul : u.len = d.length + u.payload.length + 4 := by
      rw [Sndu.len, Sndu.body, List.length_append, hd]
      rfl
    have hsize := h.size
    have htail := h.tail
    have hl := h.len
    have he : ETH_ALEN = 6 := rfl
    right
    omega

/-- The destination address stands first in the skb. -/
theorem Holds.read_dest (h : Holds ops u s skb) {d : List UInt8} (hd : u.dest = some d) :
    skb.mem.read skb.data ETH_ALEN = d := by
  have h6 : d.length = 6 := u.length_dest d hd
  have hbody : u.body = d ++ u.payload := by
    rw [Sndu.body, hd]
    rfl
  have hlen : skb.len - 4 = d.length + u.payload.length := by
    rw [h.len, Sndu.len, Nat.add_sub_cancel, hbody, List.length_append]
  have hread := h.body
  rw [hbody] at hread
  have hread := ((Mem.read_eq_append_iff hlen).mp hread).1
  rwa [h6] at hread

/-- Behind the address the skb holds the payload. -/
theorem Holds.strip (h : Holds ops u s skb) :
    (skb.strip s.p.uleDbit).len = u.payload.length ∧
      (skb.strip s.p.uleDbit).mem.read (skb.strip s.p.uleDbit).data u.payload.length =
        u.payload := by
  have hbody := h.body
  have hlen : skb.len - 4 = u.body.length := by
    rw [h.len, Sndu.len, Nat.add_sub_cancel]
  rw [strip_mem]
  rcases hd : u.dest with _ | d
  · have hb : u.body = u.payload := by
      rw [Sndu.body, hd]
      rfl
    rw [SkBuff.strip, if_pos (h.dbit_iff.mpr hd)]
    rw [hb] at hbody hlen
    refine ⟨hlen, ?_⟩
    rw [hlen] at hbody
    exact hbody
  · have h6 : d.length = 6 := u.length_dest d hd
    have hb : u.body = d ++ u.payload := by
      rw [Sndu.body, hd]
      rfl
    have hdb : ¬ s.p.uleDbit ≠ 0 := by
      rw [h.dbit_iff, hd]
      rintro ⟨⟩
    have he : ETH_ALEN = 6 := rfl
    rw [hb, List.length_append] at hlen
    rw [hb] at hbody
    have hpull : ¬ ETH_ALEN > skb.trim.len := by
      change ¬ ETH_ALEN > skb.len - 4
      omega
    rw [SkBuff.strip, if_neg hdb, skbPull, if_neg hpull]
    refine ⟨?_, ?_⟩
    · change skb.len - 4 - ETH_ALEN = u.payload.length
      omega
    · have hread := ((Mem.read_eq_append_iff hlen).mp hbody).2
      rw [h6] at hread
      exact hread

/-- The packet that an skb is. -/
theorem ethTypeTrans_frame (ops : UleOps) (skb : SkBuff) :
    (dvbNetEthTypeTrans ops skb).1.frame = skb.mem.read skb.data (skb.tail - skb.data) := by
  unfold dvbNetEthTypeTrans skbPull
  split_ifs <;> rfl

variable (ops) in
/-- An skb that holds `u`. -/
def arrivedSkb (u : Sndu) : SkBuff :=
  ⟨Mem.ofList 0 (List.replicate 20 0 ++ (u.body ++ bytes32 (u.crc ops))), 20 + u.len, 20,
    20 + u.len, u.len⟩

variable (ops) in
/-- The state of a decapsulator that has got `u` first of all. -/
def arrived (rxMode : RxMode) (u : Sndu) : Ule :=
  let s := Ule.init rxMode []
  { s with
    pc := .complete, p.uleSkb := some (arrivedSkb ops u), p.uleSnduLen := u.len
    p.uleSnduType := u.type, p.uleDbit := if u.dest = none then 1 else 0 }

theorem arrived_holds (rxMode : RxMode) (u : Sndu) :
    Holds ops u (arrived ops rxMode u) (arrivedSkb ops u) where
  pc := rfl
  remain := rfl
  cur := rfl
  sndLen := rfl
  type := rfl
  dbit := rfl
  bridged := rfl
  len := rfl
  tail := rfl
  size := Nat.le_refl _
  content := by
    have hlen : (u.body ++ bytes32 (u.crc ops)).length = u.len := List.length_append
    change (Mem.ofList 0 (List.replicate 20 0 ++ (u.body ++ bytes32 (u.crc ops)))).read 20 u.len = _
    rw [Mem.read_ofList, List.drop_left' (List.length_replicate), ← hlen, List.take_length]
    exact Nat.le_of_eq (by rw [List.length_append, List.length_replicate, hlen])

/-- A padding header in front of an IPv4 payload. -/
def paddedSndu : Sndu where
  dest := none
  type := 0x0100
  payload := [8, 0, 0x45, 0, 0]
  length_dest := length_dest_none
  type_lt := by decide
  payload_pos := by decide
  length_le := by decide

end Net
end TbsMedia
