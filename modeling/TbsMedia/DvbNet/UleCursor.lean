import TbsMedia.DvbNet.UlePostCrc
import TbsMedia.DvbNet.UleReads

/-!
# The cell cursor

While a cell is processed, `from_where` points into it or behind its end, and `ts_remain` is the
number of bytes from there to the end.  `UleInv` says this for every point of the program, with what
the decoder state has to be like for the next step to keep it: that no SNDU is in progress while the
decoder waits for PUSI, and that it does not run out of a cell in the middle of a length field.

The check of the pointer field in `dvb_net_ule_ts_pusi` lets one value too many pass: with a pointer
field of 184 `ts_remain` wraps.  `cursor_inside` is about the runs in which this does not happen.
-/

namespace TbsMedia
namespace Net

open Lib

variable {ops : UleOps} {s : Ule} {p : DvbNetPriv}

/-! ## The invariant -/

/-- The skb of an SNDU of `sndLen` bytes, of which `remain` are missing. -/
structure SkbInv (sndLen remain : ℕ) (skb : SkBuff) : Prop where
  tail : skb.tail = skb.data + skb.len
  len : skb.len + remain = sndLen
  size : skb.tail + remain ≤ skb.size

/-- The decoder between two cells, or in front of the payload of a cell. -/
structure DecInv (p : DvbNetPriv) : Prop where
  idle : p.needPusi = true → p.uleSkb = none ∧ p.uleSnduLen = 0
  fresh : p.uleSkb = none → p.uleSnduLen = 0 → p.uleSnduRemain = 0
  five_le : p.uleSnduLen ≠ 0 → 5 ≤ p.uleSnduLen
  bridged : p.uleBridged = false
  skb : ∀ skb, p.uleSkb = some skb → p.uleSnduLen ≠ 0 ∧
    SkbInv p.uleSnduLen p.uleSnduRemain skb

/-- The cursor points into the cell, and `ts_remain` bytes are left. -/
def Inside (h : DvbNetUleHandle) : Prop :=
  h.ts + 4 ≤ h.fromWhere ∧ h.fromWhere + h.tsRemain = h.ts + TS_SZ

/-- The next SNDU starts in the middle of the cell, with a length field that is not split. -/
def Follows (s : Ule) : Prop :=
  s.p.needPusi = false ∧ s.p.uleSkb = none ∧ s.p.uleSnduLen = 0 ∧ 2 ≤ s.h.tsRemain

/-- The cursor is at the start of the cell. -/
def AtStart (h : DvbNetUleHandle) : Prop := h.fromWhere = h.ts + 4 ∧ h.tsRemain = 184

/-- The cell has PUSI set. -/
def Pusi (h : DvbNetUleHandle) : Prop := h.buf (h.ts + 1) &&& TS_PUSI ≠ 0

/-- What holds at each point of the program. -/
def UleInv (s : Ule) : Prop :=
  match s.pc with
  | .cell => DecInv s.p ∧ (s.h.newTs = false → Follows s ∧ Inside s.h)
  | .pusi => DecInv s.p ∧ Inside s.h ∧ (if s.h.newTs then AtStart s.h else Follows s)
  | .newTs =>
    DecInv s.p ∧ Inside s.h ∧
      if s.h.newTs then if s.p.needPusi then Pusi s.h else AtStart s.h else Follows s
  | .pointer =>
    DecInv s.p ∧ Inside s.h ∧ s.h.newTs = true ∧
      if s.p.needPusi then Pusi s.h else AtStart s.h
  | .flush =>
    DecInv s.p ∧ Inside s.h ∧ s.h.newTs = true ∧ s.p.needPusi = false ∧
      s.p.uleSnduRemain ≤ 183 ∧ (s.p.uleSnduLen ≠ 0 → 2 ≤ s.h.tsRemain)
  | .payload =>
    DecInv s.p ∧ Inside s.h ∧ s.p.needPusi = false ∧
      (s.h.newTs = false ∨ s.p.uleSnduLen ≠ 0 → 2 ≤ s.h.tsRemain)
  | .sndType =>
    DecInv s.p ∧ Inside s.h ∧ s.p.needPusi = false ∧ s.p.uleSkb = none ∧ s.p.uleSnduLen ≠ 0
  | .copy => DecInv s.p ∧ Inside s.h ∧ s.p.needPusi = false ∧ s.p.uleSkb ≠ none
  | .complete =>
    DecInv s.p ∧ Inside s.h ∧ s.p.needPusi = false ∧ s.p.uleSkb ≠ none ∧
      (s.p.uleSnduRemain ≠ 0 → s.h.tsRemain = 0)
  | .ext _ _ =>
    Inside s.h ∧ s.p.needPusi = false ∧ s.p.uleSkb ≠ none ∧ s.p.uleSnduType < 1536
  | .deliver _ => Inside s.h ∧ s.p.needPusi = false ∧ s.p.uleSkb ≠ none
  | .more =>
    DecInv s.p ∧ Inside s.h ∧ s.p.needPusi = false ∧
      (s.p.uleSkb = none → s.p.uleSnduLen = 0) ∧ (s.p.uleSkb ≠ none → s.h.tsRemain = 0)
  | .done => DecInv s.p
  | .fault => Inside s.h

/-! ## Small steps of the cursor and of the decoder -/

theorem Inside.le (h : Inside s.h) : s.h.tsRemain ≤ 184 := by
  have hs : TS_SZ = 188 := rfl
  unfold Inside at h
  omega

theorem Inside.advance (h : Inside s.h) {k : ℕ} (hk : k ≤ s.h.tsRemain) :
    Inside (s.advance k).h := by
  have hle := h.le
  have hsub : (s.advance k).h.tsRemain = s.h.tsRemain - k := u8Sub_of_le (by omega) hk
  have hs : TS_SZ = 188 := rfl
  unfold Inside at h ⊢
  rw [hsub]
  change s.h.ts + 4 ≤ s.h.fromWhere + k ∧ s.h.fromWhere + k + _ = s.h.ts + TS_SZ
  omega

theorem AtStart.inside {h : DvbNetUleHandle} (ha : AtStart h) : Inside h := by
  have hs : TS_SZ = 188 := rfl
  unfold Inside
  rw [ha.1, ha.2, hs]
  omega

theorem decInv_reset (p : DvbNetPriv) : DecInv (resetUle p) :=
  ⟨fun _ => ⟨rfl, rfl⟩, fun _ _ => rfl, fun h => absurd rfl h, rfl, by rintro _ ⟨⟩⟩

theorem decInv_resync (s : Ule) : DecInv s.resync.p :=
  ⟨fun _ => ⟨rfl, rfl⟩, fun _ _ => rfl, fun h => absurd rfl h, rfl, by rintro _ ⟨⟩⟩

/-! ## The step over each point -/

theorem inv_cell (hpc : s.pc = .cell) (h : UleInv s) : UleInv (uleStep ops s) := by
  unfold UleInv at h
  rw [hpc] at h
  obtain ⟨hdec, hmid⟩ := h
  unfold uleStep
  rw [hpc]
  dsimp only
  split_ifs with hlt hnew
  · unfold dvbNetUleNewTsCell
    dsimp only
    split_ifs with herr
    · exact ⟨decInv_resync _, fun hf => Bool.noConfusion (hnew.symm.trans hf)⟩
    · have hstart : AtStart { s.h with tsRemain := 184, fromWhere := s.h.ts + 4 } := ⟨rfl, rfl⟩
      refine ⟨hdec, hstart.inside, ?_⟩
      change if s.h.newTs = true then _ else _
      rw [if_pos hnew]
      exact hstart
  · obtain ⟨hfol, hin⟩ := hmid ((Bool.not_eq_true _).mp hnew)
    refine ⟨hdec, hin, ?_⟩
    change if s.h.newTs = true then _ else _
    rw [if_neg hnew]
    exact hfol
  · exact hdec

/-- The pointer field of the cell that the decoder synchronizes on is not 184. -/
def PointerInCell (s : Ule) : Prop :=
  s.pc = .pusi → s.p.needPusi = true → Pusi s.h → (s.h.buf (s.h.ts + 4)).toNat ≠ 184

instance (s : Ule) : Decidable (PointerInCell s) := by
  unfold PointerInCell Pusi
  infer_instance

theorem inv_pusi (hpc : s.pc = .pusi) (h : UleInv s) (hok : PointerInCell s) :
    UleInv (uleStep ops s) := by
  unfold UleInv at h
  rw [hpc] at h
  obtain ⟨hdec, hin, hstart⟩ := h
  unfold uleStep
  rw [hpc]
  dsimp only
  by_cases hneed : s.p.needPusi = true
  · have hnew : s.h.newTs = true := by
      by_contra hnew
      rw [if_neg hnew] at hstart
      exact Bool.noConfusion (hneed.symm.trans hstart.1)
    rw [if_pos hnew] at hstart
    rw [if_pos hneed]
    unfold dvbNetUleTsPusi
    dsimp only
    rw [hstart.2]
    split_ifs with hp hpf
    · exact ⟨⟨hdec.idle, hdec.fresh, hdec.five_le, hdec.bridged, hdec.skb⟩,
        fun hf => Bool.noConfusion (hnew.symm.trans hf)⟩
    · have h184 := hok hpc hneed hp
      have hsub : u8Sub 184 (1 + (s.h.buf (s.h.ts + 4)).toNat) =
          184 - (1 + (s.h.buf (s.h.ts + 4)).toNat) := u8Sub_of_le (by omega) (by omega)
      have hs : TS_SZ = 188 := rfl
      refine ⟨⟨hdec.idle, hdec.fresh, hdec.five_le, hdec.bridged, hdec.skb⟩, ?_, ?_⟩
      · unfold Inside
        dsimp only
        rw [hsub]
        omega
      · dsimp only
        rw [if_pos hnew, if_pos hneed]
        exact hp
    · exact ⟨hdec, fun hf => Bool.noConfusion (hnew.symm.trans hf)⟩
  · rw [if_neg hneed]
    refine ⟨hdec, hin, ?_⟩
    change if s.h.newTs = true then if s.p.needPusi = true then _ else _ else _
    rw [if_neg hneed]
    exact hstart

theorem inv_newTs (hpc : s.pc = .newTs) (h : UleInv s) : UleInv (uleStep ops s) := by
  unfold UleInv at h
  rw [hpc] at h
  obtain ⟨hdec, hin, hstart⟩ := h
  unfold uleStep
  rw [hpc]
  dsimp only
  split_ifs with hnew
  · rw [if_pos hnew] at hstart
    unfold dvbNetUleNewTs
    split_ifs with hcc
    · exact ⟨⟨hdec.idle, hdec.fresh, hdec.five_le, hdec.bridged, hdec.skb⟩, hin, hnew, hstart⟩
    · exact ⟨decInv_resync _, fun hf => Bool.noConfusion (hnew.symm.trans hf)⟩
  · rw [if_neg hnew] at hstart
    exact ⟨hdec, hin, hstart.1, fun _ => hstart.2.2.2⟩

theorem inv_pointer (hpc : s.pc = .pointer) (h : UleInv s) : UleInv (uleStep ops s) := by
  unfold UleInv at h
  rw [hpc] at h
  obtain ⟨hdec, hin, hnew, hstart⟩ := h
  unfold uleStep
  rw [hpc]
  dsimp only
  unfold dvbNetUleNewTsPointer
  by_cases hp : s.h.buf (s.h.ts + 1) &&& TS_PUSI ≠ 0
  · rw [if_pos hp]
    cases hneed : s.p.needPusi with
    | false =>
      rw [hneed] at hstart
      have hst : AtStart s.h := hstart
      dsimp only
      rw [if_pos (by rfl)]
      split_ifs with hbad
      · exact ⟨decInv_resync _, fun hf => Bool.noConfusion (hnew.symm.trans hf)⟩
      · have hgood : (s.h.buf s.h.fromWhere).toNat + 1 < s.h.tsRemain := by
          by_contra hg
          exact hbad (Or.inl hg)
        have hrem : (s.h.buf s.h.fromWhere).toNat = s.p.uleSnduRemain := by
          by_contra hr
          exact hbad (Or.inr hr)
        have h184 := hst.2
        refine ⟨hdec, hin.advance (by omega), hnew, hneed, ?_, fun _ => ?_⟩
        · change s.p.uleSnduRemain ≤ 183
          omega
        · change 2 ≤ u8Sub s.h.tsRemain 1
          rw [h184, u8Sub_of_le (by decide) (by decide)]
          decide
    | true =>
      obtain ⟨hskb, hlen⟩ := hdec.idle hneed
      have hrem := hdec.fresh hskb hlen
      rw [if_neg (by decide)]
      refine ⟨⟨?_, hdec.fresh, hdec.five_le, hdec.bridged, hdec.skb⟩, hin, hnew, rfl, ?_, ?_⟩
      · rintro ⟨⟩
      · change s.p.uleSnduRemain ≤ 183
        omega
      · exact fun hne => absurd hlen hne
  · rw [if_neg hp]
    have hneed : s.p.needPusi = false := by
      by_contra hneed
      rw [if_pos ((Bool.not_eq_false _).mp hneed)] at hstart
      exact hp hstart
    rw [hneed] at hstart
    have h184 : s.h.tsRemain = 184 := And.right hstart
    refine ⟨hdec, hin, hneed, fun _ => ?_⟩
    change 2 ≤ s.h.tsRemain
    omega

theorem inv_flush (hpc : s.pc = .flush) (h : UleInv s) : UleInv (uleStep ops s) := by
  unfold UleInv at h
  rw [hpc] at h
  obtain ⟨hdec, hin, hnew, hneed, hrem, hlen⟩ := h
  unfold uleStep
  rw [hpc]
  dsimp only
  rw [dvbNetUleNewTsFlush, if_neg (by omega)]
  refine ⟨hdec, hin, hneed, ?_⟩
  rintro (hf | hne)
  · exact Bool.noConfusion (hnew.symm.trans hf)
  · exact hlen hne

theorem inv_payload (hpc : s.pc = .payload) (h : UleInv s) : UleInv (uleStep ops s) := by
  unfold UleInv at h
  rw [hpc] at h
  obtain ⟨hdec, hin, hneed, hroom⟩ := h
  unfold uleStep
  rw [hpc]
  dsimp only
  cases hskb : s.p.uleSkb with
  | some skb =>
    rw [if_neg (by rintro ⟨⟩)]
    refine ⟨hdec, hin, hneed, ?_⟩
    change s.p.uleSkb ≠ none
    rw [hskb]
    rintro ⟨⟩
  | none =>
    have hno : ∀ skb, s.p.uleSkb ≠ some skb := by
      intro skb hs
      rw [hskb] at hs
      cases hs
    rw [if_pos (by rfl)]
    unfold dvbNetUleNewPayload
    split_ifs with hshort hlen
    · have hlen : s.p.uleSnduLen = 0 := by
        by_contra hne
        exact absurd (hroom (Or.inr hne)) (by omega)
      have hnew : s.h.newTs = true := by
        by_contra hne
        exact absurd (hroom (Or.inl ((Bool.not_eq_true _).mp hne))) (by omega)
      refine ⟨⟨fun _ => ⟨hskb, rfl⟩, fun _ _ => hdec.fresh hskb hlen, fun hne => absurd rfl hne,
        hdec.bridged, fun skb hs => absurd hs (hno skb)⟩, ?_⟩
      exact fun hf => Bool.noConfusion (hnew.symm.trans hf)
    · dsimp only
      by_cases h5 : be16 (s.h.buf s.h.fromWhere) (s.h.buf (s.h.fromWhere + 1)) &&& 0x7fff < 5
      · rw [if_pos h5]
        refine ⟨⟨fun _ => ⟨hskb, rfl⟩, fun _ _ => hdec.fresh hskb hlen, fun hne => absurd rfl hne,
          hdec.bridged, fun skb hs => absurd hs (hno skb)⟩, ?_⟩
        rintro ⟨⟩
      · have hne : be16 (s.h.buf s.h.fromWhere) (s.h.buf (s.h.fromWhere + 1)) &&& 0x7fff ≠ 0 := by
          omega
        rw [if_neg h5]
        refine ⟨⟨fun hn => ?_, fun _ h0 => absurd h0 hne, fun _ => Nat.not_lt.mp h5, hdec.bridged,
          fun skb hs => absurd hs (hno skb)⟩, hin.advance (by omega), hneed, hskb, hne⟩
        exact Bool.noConfusion (hn.symm.trans hneed)
    · exact ⟨hdec, hin, hneed, hskb, hlen⟩

theorem skbInv_new (m : Mem UInt8) {len size : ℕ} (h : len + ETH_HLEN + ETH_ALEN ≤ size) :
    SkbInv len len (newSkb m size) := by
  have h1 : ETH_HLEN = 14 := rfl
  have h2 : ETH_ALEN = 6 := rfl
  refine ⟨rfl, Nat.zero_add _, ?_⟩
  change ETH_HLEN + ETH_ALEN + len ≤ size
  omega

/-- What holds in front of the allocation of the skb. -/
theorem inv_allocSkb (hdec : DecInv s.p) (hin : Inside s.h) (hneed : s.p.needPusi = false)
    (hlen : s.p.uleSnduLen ≠ 0) : UleInv (dvbNetUleAllocSkb ops s) := by
  unfold dvbNetUleAllocSkb
  rcases halloc : ops.devAllocSkb s.allocs (s.p.uleSnduLen + ETH_HLEN + ETH_ALEN)
    with _ | ⟨m, size⟩
  · exact hdec
  · refine ⟨⟨fun hn => Bool.noConfusion (hn.symm.trans hneed), ?_, hdec.five_le, hdec.bridged, ?_⟩,
      hin, hneed, ?_⟩
    · rintro ⟨⟩
    · rintro skb hskb
      obtain rfl := Option.some.inj hskb
      exact ⟨hlen, skbInv_new m (ops.le_size halloc)⟩
    · rintro ⟨⟩

theorem inv_sndType (hpc : s.pc = .sndType) (h : UleInv s) : UleInv (uleStep ops s) := by
  unfold UleInv at h
  rw [hpc] at h
  obtain ⟨hdec, hin, hneed, hskb, hlen⟩ := h
  have hno : ∀ skb, s.p.uleSkb ≠ some skb := by
    intro skb hs
    rw [hskb] at hs
    cases hs
  have hdec' : ∀ p : DvbNetPriv, p.needPusi = false → p.uleSkb = none →
      p.uleSnduLen = s.p.uleSnduLen → p.uleBridged = s.p.uleBridged → DecInv p := by
    intro p hn hs hl hb
    refine ⟨fun hn' => Bool.noConfusion (hn'.symm.trans hn), fun _ h0 => absurd (hl.symm.trans h0) hlen,
      fun _ => hl ▸ hdec.five_le hlen, hb.trans hdec.bridged, fun skb hs' => ?_⟩
    rw [hs] at hs'
    cases hs'
  unfold uleStep
  rw [hpc]
  dsimp only
  unfold dvbNetUleSnduType
  rcases hrem : s.h.tsRemain with _ | _ | k
  · refine ⟨hdec' _ hneed hskb rfl rfl, ?_⟩
    rintro ⟨⟩
  · refine ⟨hdec' _ hneed hskb rfl rfl, ?_⟩
    rintro ⟨⟩
  · dsimp only
    split_ifs with h1
    · exact inv_allocSkb (hdec' _ hneed hskb rfl rfl) (hin.advance (by omega)) hneed hlen
    · exact inv_allocSkb (hdec' _ hneed hskb rfl rfl) (hin.advance (by omega)) hneed hlen

theorem inv_copy (hpc : s.pc = .copy) (h : UleInv s) : UleInv (uleStep ops s) := by
  unfold UleInv at h
  rw [hpc] at h
  obtain ⟨hdec, hin, hneed, hskb⟩ := h
  obtain ⟨skb, hskb⟩ := Option.ne_none_iff_exists'.mp hskb
  obtain ⟨hlen, hinv⟩ := hdec.skb skb hskb
  have hle := hin.le
  unfold uleStep
  rw [hpc]
  dsimp only
  unfold dvbNetUleCopy
  rw [hskb]
  dsimp only
  generalize hn : min s.p.uleSnduRemain s.h.tsRemain = n
  have hread : (s.h.buf.read s.h.fromWhere n).length = n := Mem.length_read ..
  have hinv' := hinv
  obtain ⟨ht, hl, hs⟩ := hinv'
  refine ⟨⟨fun hn => Bool.noConfusion (hn.symm.trans hneed), ?_, hdec.five_le, hdec.bridged, ?_⟩,
    hin.advance (by omega), hneed, ?_, ?_⟩
  · rintro ⟨⟩
  · rintro skb' hskb'
    obtain rfl := Option.some.inj hskb'
    refine ⟨hlen, ?_, ?_, ?_⟩
    · change skb.tail + _ = skb.data + (skb.len + _)
      omega
    · change skb.len + (s.h.buf.read s.h.fromWhere n).length + (s.p.uleSnduRemain - n) = s.p.uleSnduLen
      omega
    · change skb.tail + (s.h.buf.read s.h.fromWhere n).length + (s.p.uleSnduRemain - n) ≤ skb.size
      omega
  · rintro ⟨⟩
  · change s.p.uleSnduRemain - n ≠ 0 → u8Sub s.h.tsRemain n = 0
    intro hne
    rw [u8Sub_of_le (by omega) (by omega)]
    omega

theorem inv_finish (hin : Inside s.h) (hneed : s.p.needPusi = false) : UleInv s.finish :=
  ⟨decInv_reset s.p, hin, hneed, fun _ => rfl, fun h => absurd rfl h⟩

theorem inv_headers (dest : List UInt8) (hin : Inside s.h) (hneed : s.p.needPusi = false)
    (hskb : s.p.uleSkb ≠ none) : UleInv (dvbNetUleHeaders s dest) := by
  unfold dvbNetUleHeaders
  split_ifs with ht
  · exact ⟨hin, hneed, hskb, ht⟩
  · exact ⟨hin, hneed, hskb⟩

theorem touch_frame {a n : ℕ} {skb : SkBuff} {p' : DvbNetPriv} (h : touch p a n = some (skb, p')) :
    p'.needPusi = p.needPusi ∧ p'.uleSkb = p.uleSkb := by
  unfold touch at h
  split at h
  · cases h
  · split_ifs at h
    obtain ⟨-, rfl⟩ := Prod.mk.inj (Option.some.inj h)
    exact ⟨rfl, rfl⟩

theorem shouldDrop_frame {skb : SkBuff} {b : Bool} {p' : DvbNetPriv}
    (h : dvbNetUleShouldDrop ops p skb = some (b, p')) :
    p'.needPusi = p.needPusi ∧ p'.uleSkb = p.uleSkb := by
  unfold dvbNetUleShouldDrop at h
  split_ifs at h
  · obtain ⟨-, rfl⟩ := Prod.mk.inj (Option.some.inj h)
    exact ⟨rfl, rfl⟩
  · obtain ⟨⟨skb', p₁⟩, htouch, heq⟩ := Option.map_eq_some_iff.mp h
    obtain ⟨-, rfl⟩ := Prod.mk.inj heq
    exact touch_frame htouch

theorem pull_frame (p : DvbNetPriv) (l : ℕ) :
    (pull p l).needPusi = p.needPusi ∧ (p.uleSkb ≠ none → (pull p l).uleSkb ≠ none) := by
  unfold pull
  rcases hs : p.uleSkb with _ | skb
  · exact ⟨rfl, fun h => absurd rfl h⟩
  · refine ⟨rfl, fun _ => ?_⟩
    rintro ⟨⟩

theorem inv_checkCrc {skb : SkBuff} (c₁ c₂ : UInt32) (hin : Inside s.h)
    (hneed : s.p.needPusi = false) : UleInv (dvbNetUleCheckCrc ops s skb c₁ c₂) := by
  unfold dvbNetUleCheckCrc
  by_cases hcrc : c₁ ≠ c₂
  · rw [if_pos hcrc]
    exact inv_finish hin hneed
  rw [if_neg hcrc]
  dsimp only
  by_cases hdbit : s.p.uleDbit ≠ 0
  · rw [if_pos hdbit]
    refine inv_headers _ hin hneed ?_
    rintro ⟨⟩
  rw [if_neg hdbit]
  rcases hdrop : dvbNetUleShouldDrop ops { s.p with uleSkb := some skb.trim } skb.trim
    with _ | ⟨_ | _, p⟩
  · exact hin
  · obtain ⟨hn, hs⟩ := shouldDrop_frame hdrop
    dsimp only
    rcases htouch : touch p skb.trim.data ETH_ALEN with _ | ⟨skb', p'⟩
    · exact hin
    · obtain ⟨hn', hs'⟩ := touch_frame htouch
      obtain ⟨hn'', hs''⟩ := pull_frame p' ETH_ALEN
      refine inv_headers _ hin (hn''.trans (hn'.trans (hn.trans hneed))) (hs'' ?_)
      rw [hs', hs]
      rintro ⟨⟩
  · exact inv_finish hin ((shouldDrop_frame hdrop).1.trans hneed)

theorem inv_complete (hpc : s.pc = .complete) (h : UleInv s) : UleInv (uleStep ops s) := by
  unfold UleInv at h
  rw [hpc] at h
  obtain ⟨hdec, hin, hneed, hskb, hrest⟩ := h
  unfold uleStep
  rw [hpc]
  dsimp only
  unfold dvbNetUleComplete
  split_ifs with hrem
  · split
    · trivial
    · exact inv_checkCrc _ _ hin hneed
  · exact ⟨hdec, hin, hneed, fun hs => absurd hs hskb, fun _ => hrest hrem⟩

theorem inv_ext {dest : List UInt8} {total : ℤ} (hpc : s.pc = .ext dest total) (h : UleInv s) :
    UleInv (uleStep ops s) := by
  unfold UleInv at h
  rw [hpc] at h
  obtain ⟨hin, hneed, hskb, ht⟩ := h
  obtain ⟨skb, hskb⟩ := Option.ne_none_iff_exists'.mp hskb
  have hat : At ⟨skb, s.p.uleSnduLen, s.p.uleDbit⟩ ⟨s.p.uleNextHdr, s.p.uleSnduType⟩ s.p :=
    ⟨hskb, rfl, rfl, rfl, rfl⟩
  generalize Chain.mk skb s.p.uleSnduLen s.p.uleDbit = c at hat
  generalize Hdr.mk s.p.uleNextHdr s.p.uleSnduType = hd at hat
  rw [hat.type] at ht
  have hsome : s.p.uleSkb ≠ none := by
    rw [hskb]
    rintro ⟨⟩
  by_cases hw : c.Within c.skb.size hd
  · by_cases hn : ∃ hd', c.Next hd hd'
    · obtain ⟨hd', hn⟩ := hn
      rw [ext_next hpc hat hn hw]
      split_ifs with ht'
      · exact ⟨hin, hneed, hsome, ht'⟩
      · obtain ⟨hn', hs'⟩ := pull_frame (c.moved s.p hd hd') (total + ((hd'.off : ℤ) - hd.off)).toNat
        exact ⟨hin, hn'.trans hneed, hs' hsome⟩
    · rw [ext_stop hpc hat ht (fun hd' hn' => hn ⟨hd', hn'⟩) hw]
      exact inv_finish hin hneed
  · rw [ext_fault hpc hat hw]
    exact hin

theorem inv_deliver {dest : List UInt8} (hpc : s.pc = .deliver dest) (h : UleInv s) :
    UleInv (uleStep ops s) := by
  unfold UleInv at h
  rw [hpc] at h
  obtain ⟨hin, hneed, hskb⟩ := h
  unfold uleStep
  rw [hpc]
  dsimp only
  unfold dvbNetUleDeliver
  split
  · exact hin
  · exact inv_finish hin hneed

theorem inv_more (hpc : s.pc = .more) (h : UleInv s) : UleInv (uleStep ops s) := by
  unfold UleInv at h
  rw [hpc] at h
  obtain ⟨hdec, hin, hneed, hlen, hrest⟩ := h
  unfold uleStep
  rw [hpc]
  dsimp only
  unfold dvbNetUleMore
  by_cases hgo : s.h.tsRemain ≥ 2 ∧
      ¬ (s.h.buf s.h.fromWhere = 0xff ∧ s.h.buf (s.h.fromWhere + 1) = 0xff)
  · have hskb : s.p.uleSkb = none := by
      by_contra hne
      have := hrest hne
      omega
    have hrem := hdec.fresh hskb (hlen hskb)
    rw [if_pos hgo]
    refine ⟨⟨fun hn => Bool.noConfusion (hn.symm.trans hneed), fun _ _ => hrem,
      fun hne => absurd rfl hne, hdec.bridged, by rintro _ ⟨⟩⟩, fun _ => ⟨⟨hneed, rfl, rfl, hgo.1⟩, hin⟩⟩
  · rw [if_neg hgo]
    dsimp only
    split_ifs with hskb
    · have hskb : s.p.uleSkb = none := Option.isNone_iff_eq_none.mp hskb
      refine ⟨⟨fun _ => ⟨hskb, rfl⟩, fun _ _ => hdec.fresh hskb (hlen hskb),
        fun hne => absurd rfl hne, hdec.bridged, fun skb hs => ?_⟩, ?_⟩
      · exact absurd (hskb.symm.trans hs) (by rintro ⟨⟩)
      · rintro ⟨⟩
    · refine ⟨hdec, ?_⟩
      rintro ⟨⟩

/-- **The invariant is kept by every step** but the one that synchronizes on a pointer field of
184. -/
theorem inv_step (h : UleInv s) (hok : PointerInCell s) : UleInv (uleStep ops s) := by
  cases hpc : s.pc with
  | cell => exact inv_cell hpc h
  | pusi => exact inv_pusi hpc h hok
  | newTs => exact inv_newTs hpc h
  | pointer => exact inv_pointer hpc h
  | flush => exact inv_flush hpc h
  | payload => exact inv_payload hpc h
  | sndType => exact inv_sndType hpc h
  | copy => exact inv_copy hpc h
  | complete => exact inv_complete hpc h
  | ext => exact inv_ext hpc h
  | deliver => exact inv_deliver hpc h
  | more => exact inv_more hpc h
  | done =>
    unfold uleStep
    rw [hpc]
    exact h
  | fault =>
    unfold uleStep
    rw [hpc]
    exact h

/-! ## Runs -/

/-- The states of a decapsulator that is started and then called any number of times, each time with
any cells, where every step is taken in a state with `ok`. -/
inductive Run (ops : UleOps) (ok : Ule → Prop) : Ule → Prop where
  | init (rxMode : RxMode) (multiMacs : List (List UInt8)) : Run ops ok (.init rxMode multiMacs)
  | call {s : Ule} (buf : Mem UInt8) (n : ℕ) : Run ops ok s → s.pc = .done →
      Run ops ok (s.call buf (TS_SZ * n))
  | step {s : Ule} : Run ops ok s → ok s → Run ops ok (uleStep ops s)

theorem Run.iterate {ok : Ule → Prop} (h : Run ops ok s) :
    ∀ n, (∀ k < n, ok (uleRun ops k s)) → Run ops ok (uleRun ops n s)
  | 0, _ => h
  | n + 1, hok => by
    rw [uleRun, Function.iterate_succ_apply']
    exact .step (h.iterate n fun k hk => hok k (Nat.lt_succ_of_lt hk)) (hok n (Nat.lt_succ_self n))

/-- **Every state of such a run has the invariant.** -/
theorem inv_run (h : Run ops PointerInCell s) : UleInv s := by
  induction h with
  | init => exact ⟨fun _ => ⟨rfl, rfl⟩, fun _ _ => rfl, fun h => absurd rfl h, rfl, by rintro _ ⟨⟩⟩
  | call buf n _ hdone ih =>
    unfold UleInv at ih
    rw [hdone] at ih
    refine ⟨ih, ?_⟩
    rintro ⟨⟩
  | step _ hok ih => exact inv_step ih hok

/-- A complete SNDU with the right CRC is as its processing expects it. -/
theorem complete_of_run (h : Run ops PointerInCell s) (hpc : s.pc = .complete)
    (hrem : s.p.uleSnduRemain = 0) {skb : SkBuff} (hskb : s.p.uleSkb = some skb)
    (hcrc : uleCrc ops s.p skb = expectedCrc skb) : Complete ops s skb := by
  have hinv := inv_run h
  unfold UleInv at hinv
  rw [hpc] at hinv
  obtain ⟨hlen, ht, hl, hs⟩ := hinv.1.skb skb hskb
  rw [hrem, Nat.add_zero] at hl hs
  exact ⟨hpc, hrem, hskb, hinv.1.five_le hlen, hl, ht, hs, hinv.1.bridged, hcrc⟩

/-- **What is copied fits into the skb**, which with what is missing always has the length that the SNDU announced. -/
theorem skb_holds (ops : UleOps) (s : Ule) (skb : SkBuff) (h : Run ops PointerInCell s) (hskb : s.p.uleSkb = some skb)
    (hpc : s.pc = .copy ∨ s.pc = .complete) : skb.tail + min s.p.uleSnduRemain s.h.tsRemain ≤ skb.size ∧
      skb.len + s.p.uleSnduRemain = s.p.uleSnduLen := by
  have hinv := inv_run h
  unfold UleInv at hinv
  have hdec : DecInv s.p := by
    rcases hpc with hpc | hpc
    · rw [hpc] at hinv
      exact hinv.1
    · rw [hpc] at hinv
      exact hinv.1
  obtain ⟨-, -, hlen, hsize⟩ := hdec.skb skb hskb
  exact ⟨by omega, hlen⟩

/-- The whole of an SNDU of 11 bytes is copied. -/
theorem skb_holds_plain : ∃ (s : Ule) (skb : SkBuff), s.pc = .copy ∧
    skb.tail + min s.p.uleSnduRemain s.h.tsRemain ≤ skb.size ∧ skb.len + s.p.uleSnduRemain = s.p.uleSnduLen := by
  obtain ⟨s, hrun, hpc, hsome⟩ : ∃ s, Run plainOps PointerInCell s ∧ s.pc = .copy ∧ s.p.uleSkb.isSome :=
    ⟨uleRun plainOps 7 ((Ule.init .RX_MODE_PROMISC []).callCells
      [uleCell true 0 [0, 0x80, 11, 8, 0, 1, 2, 3, 4, 5, 6, 7, 8, 9, 10, 11]]),
      (Run.call _ 1 (.init .RX_MODE_PROMISC []) rfl).iterate 7 (by decide +kernel), by decide +kernel,
      by decide +kernel⟩
  obtain ⟨skb, hskb⟩ := Option.isSome_iff_exists.mp hsome
  exact ⟨s, skb, hpc, skb_holds plainOps s skb hrun hskb (.inl hpc)⟩

/-! ## The cursor in a run -/

/-- A cell has been entered, and not been left. -/
def InCell (s : Ule) : Prop :=
  match s.pc with
  | .cell => s.h.newTs = false
  | .done => False
  | _ => True

/-- The address lies in the current cell. -/
def OfCell (h : DvbNetUleHandle) (a : ℕ) : Prop := h.ts ≤ a ∧ a < h.ts + TS_SZ

/-- The cursor is in the cell, and only the cell is read. -/
structure CursorOk (s : Ule) : Prop where
  cursor : InCell s → s.h.ts + 4 ≤ s.h.fromWhere ∧ s.h.fromWhere ≤ s.h.ts + TS_SZ ∧
    s.h.fromWhere + s.h.tsRemain = s.h.ts + TS_SZ
  reads : ∀ a ∈ cellReads s, OfCell s.h a

theorem inside_of_inv (h : UleInv s) (hin : InCell s) : Inside s.h := by
  unfold UleInv at h
  unfold InCell at hin
  cases hpc : s.pc <;> rw [hpc] at h hin
  case cell => exact (h.2 hin).2
  case ext => exact h.1
  case deliver => exact h.1
  case done => exact hin.elim
  case fault => exact h
  all_goals exact h.2.1

/-- What is read at the cursor is in the cell, as far as it is left. -/
theorem Inside.read (h : Inside s.h) {i : ℕ} (hi : i < s.h.tsRemain) :
    OfCell s.h (s.h.fromWhere + i) := by
  have hs : TS_SZ = 188 := rfl
  unfold Inside at h
  unfold OfCell
  omega

theorem head_read (s : Ule) {i : ℕ} (hi : i < 5) : OfCell s.h (s.h.ts + i) := by
  have hs : TS_SZ = 188 := rfl
  unfold OfCell
  omega

theorem reads_of_inv (h : UleInv s) : ∀ a ∈ cellReads s, OfCell s.h a := by
  have htwo : ∀ {i}, Inside s.h → 2 ≤ s.h.tsRemain → i < 2 → OfCell s.h (s.h.fromWhere + i) :=
    fun hin hr hi => hin.read (by omega)
  unfold UleInv at h
  unfold cellReads
  cases hpc : s.pc <;> rw [hpc] at h <;> dsimp only
  case cell =>
    split_ifs
    · simpa using ⟨head_read s (i := 0) (by decide), head_read s (i := 1) (by decide),
        head_read s (i := 3) (by decide)⟩
    · simp
  case pusi =>
    split_ifs
    · simpa using ⟨head_read s (i := 1) (by decide), head_read s (i := 3) (by decide),
        head_read s (i := 4) (by decide)⟩
    · simp
  case newTs =>
    split_ifs
    · simpa using head_read s (i := 3) (by decide)
    · simp
  case pointer =>
    split_ifs with hp
    · obtain ⟨-, hin, -, hst⟩ := h
      rw [hp.2] at hst
      have h184 : s.h.tsRemain = 184 := And.right hst
      simpa using ⟨head_read s (i := 1) (by decide), hin.read (i := 0) (by omega)⟩
    · simpa using head_read s (i := 1) (by decide)
  case flush =>
    rw [if_neg (by have := h.2.2.2.2.1; omega)]
    simp
  case payload =>
    split_ifs with hp
    · simpa using ⟨htwo (i := 0) h.2.1 hp.2.1 (by decide), htwo (i := 1) h.2.1 hp.2.1 (by decide)⟩
    · simp
  case sndType =>
    rcases hr : s.h.tsRemain with _ | _ | k
    · simp
    · simpa using h.2.1.read (i := 0) (by omega)
    · split_ifs
      · simpa using htwo (i := 0) h.2.1 (by omega) (by decide)
      · simpa using ⟨htwo (i := 0) h.2.1 (by omega) (by decide),
          htwo (i := 1) h.2.1 (by omega) (by decide)⟩
  case copy =>
    intro a ha
    obtain ⟨i, hi, rfl⟩ := List.mem_map.mp ha
    have hi := List.mem_range.mp hi
    exact h.2.1.read (by omega)
  case complete =>
    split_ifs with hp
    · simpa using ⟨htwo (i := 0) h.2.1 (by omega) (by decide),
        htwo (i := 1) h.2.1 (by omega) (by decide)⟩
    · simp
  case more =>
    split_ifs with hp
    · simpa using ⟨htwo (i := 0) h.2.1 hp (by decide), htwo (i := 1) h.2.1 hp (by decide)⟩
    · simp
  all_goals simp

/-- **The cursor stays inside the cell** in every run that synchronizes on no cell with a pointer
field of 184. -/
theorem cursor_inside (ops : UleOps) (s : Ule) (h : Run ops PointerInCell s) : CursorOk s := by
  have hinv := inv_run h
  refine ⟨fun hin => ?_, reads_of_inv hinv⟩
  obtain ⟨hlo, hsum⟩ := inside_of_inv hinv hin
  exact ⟨hlo, by omega, hsum⟩

/-- The step that synchronizes on a pointer field that passes the check. -/
theorem pusi_step (hpc : s.pc = .pusi) (hneed : s.p.needPusi = true) (hp : Pusi s.h)
    (hle : (s.h.buf (s.h.ts + 4)).toNat ≤ s.h.tsRemain) :
    uleStep ops s = { s with
      pc := .newTs, p.tscc := (s.h.buf (s.h.ts + 3) &&& 0x0f).toNat
      h.fromWhere := s.h.ts + 5 + (s.h.buf (s.h.ts + 4)).toNat
      h.tsRemain := u8Sub s.h.tsRemain (1 + (s.h.buf (s.h.ts + 4)).toNat) } := by
  have hp : s.h.buf (s.h.ts + 1) &&& TS_PUSI ≠ 0 := hp
  unfold uleStep
  rw [hpc]
  dsimp only
  rw [if_pos hneed, dvbNetUleTsPusi, if_pos hp]
  dsimp only
  rw [if_neg (Nat.not_lt.mpr hle)]

/-- The condition is exact: the step that synchronizes on a pointer field of 184 puts the cursor
behind the cell. -/
theorem cursor_leaves (h : UleInv s) (hbad : ¬ PointerInCell s) : ¬ CursorOk (uleStep ops s) := by
  simp only [PointerInCell, not_forall, not_not] at hbad
  obtain ⟨hpc, hneed, hp, h184⟩ := hbad
  unfold UleInv at h
  rw [hpc] at h
  obtain ⟨-, -, hstart⟩ := h
  have hnew : s.h.newTs = true := by
    by_contra hnew
    rw [if_neg hnew] at hstart
    exact Bool.noConfusion (hneed.symm.trans hstart.1)
  rw [if_pos hnew] at hstart
  rw [pusi_step hpc hneed hp (Nat.le_of_eq (by rw [h184, hstart.2]))]
  intro hok
  have hs : TS_SZ = 188 := rfl
  have hle : s.h.ts + 5 + (s.h.buf (s.h.ts + 4)).toNat ≤ s.h.ts + TS_SZ :=
    (hok.cursor trivial).2.1
  omega

/-- The 15 bytes of an SNDU with an IPv4 payload of seven bytes, and then padding. -/
theorem cursor_inside_plain :
    CursorOk (uleRun plainOps 8 ((Ule.init .RX_MODE_PROMISC []).callCells
      [uleCell true 0 ([0, 0x80, 11, 8, 0] ++ [0x45, 0, 0, 20, 0, 1, 0] ++ [1, 2, 3, 4])])) :=
  cursor_inside plainOps _
    ((Run.call _ 1 (.init .RX_MODE_PROMISC []) rfl).iterate 8 (by decide +kernel))

/-- With a pointer field of 184 in the first cell, the cursor is one byte behind the cell, 255 bytes
are said to be left, and the next step reads behind the cell. -/
theorem cursor_outside :
    ∃ s, Run plainOps (fun _ => True) s ∧ s.h.ts = 0 ∧ s.h.fromWhere = 189 ∧
      s.h.tsRemain = 255 ∧ 189 ∈ cellReads s ∧ ¬ CursorOk s := by
  refine ⟨uleRun plainOps 5 ((Ule.init .RX_MODE_PROMISC []).callCells [uleCell true 0 [184]]),
    (Run.call _ 1 (.init .RX_MODE_PROMISC []) rfl).iterate 5 fun _ _ => trivial, ?_⟩
  have hrun : ∀ s, s.h.ts = 0 ∧ s.h.fromWhere = 189 ∧ s.h.tsRemain = 255 ∧ 189 ∈ cellReads s →
      s.h.ts = 0 ∧ s.h.fromWhere = 189 ∧ s.h.tsRemain = 255 ∧ 189 ∈ cellReads s ∧
        ¬ CursorOk s := by
    rintro s ⟨hts, hfw, hrem, hread⟩
    refine ⟨hts, hfw, hrem, hread, fun hok => ?_⟩
    have hcell := (hok.reads 189 hread).2
    rw [hts] at hcell
    exact absurd hcell (by decide)
  exact hrun _ (by decide +kernel)

end Net
end TbsMedia
