import Mathlib
import TbsMedia.DvbRingbuffer.Bytes

/-!
# The packets in a ring buffer

A ring of any size holds packets one behind the other, each with its header, and those that have been
disposed of stay until there is none in front of them that has not.  Each function of packets is followed
on the list of packets: the header is found at the position, so the search goes from packet to packet and
the clean-up passes the front.

The way from `pread` to a position is right as long as it does not go round the end of the ring.  Where it
does, `2 ^ 64` is added to it before the remainder is taken.

* `nextReady_found`, `nextReady_ends`: the search for a packet.
* `holds_pktWrite`, `pktDispose_holds`: a packet is added, and disposed of.
* `pktNext_start`, `pktNext_behind`: where the search begins.
-/

namespace TbsMedia
namespace Enumerate

open Lib Function Ringbuffer

/-! ## Packets in the ring -/

/-- A packet in the ring, which may have been disposed of. -/
structure Packet where
  ready : Bool
  bytes : List UInt8
  one_le : 1 ≤ bytes.length
  lt : bytes.length < 65536

def Packet.status (q : Packet) : UInt8 := if q.ready then PKT_READY else PKT_DISPOSED

/-- The packet with its header. -/
def Packet.encode (q : Packet) : List UInt8 :=
  UInt8.ofNat (q.bytes.length / 256) :: UInt8.ofNat q.bytes.length :: q.status :: q.bytes

/-- The packet once it has been disposed of. -/
def Packet.dispose (q : Packet) : Packet := { q with ready := false }

/-- All packets with their headers. -/
def encodeAll (pkts : List Packet) : List UInt8 := pkts.flatMap Packet.encode

variable {rbuf : DvbRingbuffer UInt8} {pkts pre post ds : List Packet} {q : Packet} {a : ℕ}

@[simp] theorem length_encode (q : Packet) : q.encode.length = q.bytes.length + 3 := rfl

@[simp] theorem encodeAll_nil : encodeAll [] = [] := rfl

@[simp] theorem encodeAll_cons (q : Packet) (pkts : List Packet) :
    encodeAll (q :: pkts) = q.encode ++ encodeAll pkts := rfl

@[simp] theorem encodeAll_append (pkts pkts' : List Packet) :
    encodeAll (pkts ++ pkts') = encodeAll pkts ++ encodeAll pkts' := List.flatMap_append

/-! ## What is at a position -/

/-- A length goes into two bytes. -/
theorem pktlen_bytes {len : ℕ} (h : len < 65536) :
    (UInt8.ofNat (len / 256)).toNat * 256 + (UInt8.ofNat len).toNat = len := by
  rw [UInt8.toNat_ofNat', UInt8.toNat_ofNat']
  omega

/-- The header of a packet, at its position. -/
theorem header (hlaid : Laid rbuf.data rbuf.size a q.encode) :
    pktlen rbuf (a % rbuf.size) = q.bytes.length ∧ rbuf.data ((a % rbuf.size + 2) % rbuf.size) = q.status := by
  unfold Packet.encode at hlaid
  rw [laid_cons, laid_cons, laid_cons] at hlaid
  obtain ⟨hhigh, hlow, hstatus, -⟩ := hlaid
  refine ⟨?_, by rw [Nat.mod_add_mod]; exact hstatus⟩
  unfold pktlen
  rw [hhigh, Nat.mod_add_mod, hlow]
  exact pktlen_bytes q.lt

/-- Some of the packets lie behind those in front of them. -/
theorem laid_middle {mid : List Packet} (h : Contains rbuf (encodeAll (pre ++ (mid ++ post)))) :
    Laid rbuf.data rbuf.size (rbuf.pread + (encodeAll pre).length) (encodeAll mid) := by
  have hdata := h.data
  rw [encodeAll_append, laid_append, encodeAll_append, laid_append] at hdata
  exact hdata.2.1

/-! ## The search for a packet -/

/-- A packet that has been disposed of is passed. -/
theorem nextReady_disposed (hlaid : Laid rbuf.data rbuf.size a q.encode) (hq : q.ready = false) {fuel : ℕ}
    {left : ℤ} (hleft : 3 < left) :
    nextReady rbuf (fuel + 1) (a % rbuf.size) left =
      nextReady rbuf fuel ((a + q.encode.length) % rbuf.size) (left - q.encode.length) := by
  obtain ⟨hlen, hstatus⟩ := header hlaid
  have hnext : (a % rbuf.size + q.bytes.length + DVB_RINGBUFFER_PKTHDRSIZE) % rbuf.size =
      (a + q.encode.length) % rbuf.size := by
    rw [Nat.add_assoc, Nat.mod_add_mod]
    rfl
  have hno : ¬ q.status = PKT_READY := by
    unfold Packet.status
    rw [hq]
    decide
  conv_lhs => unfold nextReady
  dsimp only
  rw [if_pos (show left > (DVB_RINGBUFFER_PKTHDRSIZE : ℤ) from hleft), hstatus, if_neg hno, hlen, hnext]
  rfl

/-- **The search finds** the first packet that is left, if more than a header is left there. -/
theorem nextReady_found (hds : ∀ d ∈ ds, d.ready = false) (hq : q.ready = true)
    (hlaid : Laid rbuf.data rbuf.size a (encodeAll (ds ++ [q]))) {fuel : ℕ} {left : ℤ}
    (hleft : ((encodeAll ds).length : ℤ) + 3 < left) (hfuel : left.toNat ≤ fuel) :
    nextReady rbuf fuel (a % rbuf.size) left =
      some ((a + (encodeAll ds).length) % rbuf.size, q.bytes.length) := by
  induction ds generalizing a fuel left with
  | nil =>
    rw [encodeAll_nil, List.length_nil] at hleft
    obtain ⟨fuel, rfl⟩ : ∃ k, fuel = k + 1 := ⟨fuel - 1, by omega⟩
    rw [List.nil_append, encodeAll_cons, laid_append] at hlaid
    obtain ⟨hlen, hstatus⟩ := header hlaid.1
    have hready : q.status = PKT_READY := if_pos hq
    unfold nextReady
    dsimp only
    rw [if_pos (show left > (DVB_RINGBUFFER_PKTHDRSIZE : ℤ) by unfold DVB_RINGBUFFER_PKTHDRSIZE; omega), hstatus,
      if_pos hready, hlen]
    rfl
  | cons d ds ih =>
    rw [encodeAll_cons, List.length_append] at hleft ⊢
    rw [List.cons_append, encodeAll_cons, laid_append] at hlaid
    have hd := length_encode d
    obtain ⟨fuel, rfl⟩ : ∃ k, fuel = k + 1 := ⟨fuel - 1, by omega⟩
    rw [nextReady_disposed hlaid.1 (hds d List.mem_cons_self) (by omega),
      ih (fun d' hd' => hds d' (List.mem_cons_of_mem _ hd')) hlaid.2 (by omega) (by omega), Nat.add_assoc]

/-- **The search ends** if no more than a header is left behind the packets. -/
theorem nextReady_ends (hds : ∀ d ∈ ds, d.ready = false)
    (hlaid : Laid rbuf.data rbuf.size a (encodeAll ds)) {fuel : ℕ} {left : ℤ}
    (hleft : left ≤ ((encodeAll ds).length : ℤ) + 3) :
    nextReady rbuf fuel (a % rbuf.size) left = none := by
  induction ds generalizing a fuel left with
  | nil =>
    rw [encodeAll_nil, List.length_nil] at hleft
    cases fuel with
    | zero => rfl
    | succ fuel =>
      unfold nextReady
      rw [if_neg (by unfold DVB_RINGBUFFER_PKTHDRSIZE; omega)]
  | cons d ds ih =>
    rw [encodeAll_cons, List.length_append] at hleft
    rw [encodeAll_cons, laid_append] at hlaid
    cases fuel with
    | zero => rfl
    | succ fuel =>
      by_cases hmore : 3 < left
      · rw [nextReady_disposed hlaid.1 (hds d List.mem_cons_self) hmore]
        exact ih (fun d' hd' => hds d' (List.mem_cons_of_mem _ hd')) hlaid.2 (by omega)
      · unfold nextReady
        rw [if_neg (by unfold DVB_RINGBUFFER_PKTHDRSIZE; omega)]

/-! ## Adding a packet, and disposing of one -/

/-- The ring holds the packets. -/
abbrev Holds (rbuf : DvbRingbuffer UInt8) (pkts : List Packet) : Prop := Contains rbuf (encodeAll pkts)

theorem size_pktWrite (rbuf : DvbRingbuffer UInt8) (buf : List UInt8) :
    (dvbRingbufferPktWrite rbuf buf).size = rbuf.size ∧ (dvbRingbufferPktWrite rbuf buf).pread = rbuf.pread :=
  size_dvbRingbufferWrite _ _

/-- **A packet is added**, if there is room for it. -/
theorem holds_pktWrite (h : Holds rbuf pkts) (hq : q.ready = true)
    (hroom : (encodeAll pkts).length + q.encode.length < rbuf.size) :
    Holds (dvbRingbufferPktWrite rbuf q.bytes) (pkts ++ [q]) := by
  rw [length_encode] at hroom
  have hall : encodeAll (pkts ++ [q]) =
      encodeAll pkts ++ [UInt8.ofNat (q.bytes.length / 256)] ++ [UInt8.ofNat q.bytes.length] ++
        [PKT_READY] ++ q.bytes := by
    have hready : q.status = PKT_READY := if_pos hq
    rw [encodeAll_append, encodeAll_cons, encodeAll_nil, List.append_nil]
    unfold Packet.encode
    rw [hready]
    simp
  have h₁ := h.writeByte (by omega) (UInt8.ofNat (q.bytes.length / 256))
  have h₂ := h₁.writeByte (by rw [List.length_append, List.length_singleton]; exact (by omega :
    (encodeAll pkts).length + 1 + 1 < rbuf.size)) (UInt8.ofNat q.bytes.length)
  have h₃ := h₂.writeByte (by
    rw [List.length_append, List.length_append, List.length_singleton, List.length_singleton]
    exact (by omega : (encodeAll pkts).length + 1 + 1 + 1 < rbuf.size)) PKT_READY
  show Contains _ _
  rw [hall]
  refine h₃.write ?_
  simp only [List.length_append, List.length_singleton]
  exact (by omega : (encodeAll pkts).length + 1 + 1 + 1 + q.bytes.length < rbuf.size)

/-- The packets without those at the front that have been disposed of. -/
def trim (pkts : List Packet) : List Packet := pkts.dropWhile fun q => !q.ready

/-- How far the clean-up gets. -/
def trimmed (pkts : List Packet) : ℕ := (encodeAll (pkts.takeWhile fun q => !q.ready)).length

/-- **The clean-up** passes the packets at the front that have been disposed of, and ends. -/
theorem cleanUp_holds (h : Holds rbuf pkts) {fuel : ℕ} (hfuel : (encodeAll pkts).length < fuel) :
    ∃ rbuf', cleanUp fuel rbuf = some rbuf' ∧ Holds rbuf' (trim pkts) ∧ rbuf'.size = rbuf.size ∧
      rbuf'.pread = (rbuf.pread + trimmed pkts) % rbuf.size := by
  induction pkts generalizing rbuf fuel with
  | nil =>
    obtain ⟨fuel, rfl⟩ : ∃ k, fuel = k + 1 := ⟨fuel - 1, by omega⟩
    refine ⟨rbuf, ?_, h, rfl, (Nat.mod_eq_of_lt h.pread_lt).symm⟩
    unfold cleanUp
    rw [h.avail, if_neg (by decide)]
  | cons q pkts ih =>
    obtain ⟨fuel, rfl⟩ : ∃ k, fuel = k + 1 := ⟨fuel - 1, by omega⟩
    have hpread : rbuf.pread % rbuf.size = rbuf.pread := Nat.mod_eq_of_lt h.pread_lt
    have hlaid : Laid rbuf.data rbuf.size rbuf.pread q.encode := (laid_append.mp h.data).1
    have hone := q.one_le
    obtain ⟨hlen, hstatus⟩ := header hlaid
    rw [hpread] at hlen hstatus
    have hpeek : (peek rbuf 0).toNat * 256 + (peek rbuf 1).toNat = q.bytes.length := by
      unfold peek
      rw [Nat.add_zero, hpread]
      exact hlen
    rw [encodeAll_cons, List.length_append, length_encode] at hfuel
    unfold cleanUp
    rw [h.avail, encodeAll_cons, List.length_append, length_encode,
      if_pos (by unfold DVB_RINGBUFFER_PKTHDRSIZE; omega)]
    dsimp only
    rw [hpeek, show peek rbuf 2 = q.status from hstatus]
    unfold Packet.status trim trimmed
    cases hq : q.ready with
    | true =>
      rw [List.dropWhile_cons_of_neg (by simp [hq]), List.takeWhile_cons_of_neg (by simp [hq])]
      exact ⟨rbuf, if_neg (by decide), h, rfl, hpread.symm⟩
    | false =>
      have hskip : Holds (skip rbuf (q.bytes.length + 3)) pkts := h.skip
      obtain ⟨rbuf', hclean, hholds, hsize, hstart⟩ := @ih _ hskip fuel (by omega)
      rw [List.dropWhile_cons_of_pos (by simp [hq]), List.takeWhile_cons_of_pos (by simp [hq]),
        encodeAll_cons, List.length_append, length_encode]
      refine ⟨rbuf', (if_pos (by decide)).trans hclean, hholds, hsize, hstart.trans ?_⟩
      show ((rbuf.pread + (q.bytes.length + 3)) % rbuf.size + trimmed pkts) % rbuf.size = _
      rw [Nat.mod_add_mod, Nat.add_assoc]
      rfl

/-- Disposing of a packet changes the byte with its status. -/
theorem encodeAll_dispose (pre post : List Packet) (q : Packet) :
    (encodeAll (pre ++ q :: post)).set ((encodeAll pre).length + 2) PKT_DISPOSED =
      encodeAll (pre ++ q.dispose :: post) := by
  rw [encodeAll_append, encodeAll_append, encodeAll_cons, encodeAll_cons,
    List.set_append_right _ _ (Nat.le_add_right _ _), Nat.add_sub_cancel_left]
  rfl

/-- **A packet is disposed of**, and what is at the front goes. -/
theorem pktDispose_holds (h : Holds rbuf (pre ++ q :: post)) :
    ∃ rbuf',
      dvbRingbufferPktDispose rbuf ((rbuf.pread + (encodeAll pre).length) % rbuf.size) = some rbuf' ∧
      Holds rbuf' (trim (pre ++ q.dispose :: post)) ∧ rbuf'.size = rbuf.size ∧
      rbuf'.pread = (rbuf.pread + trimmed (pre ++ q.dispose :: post)) % rbuf.size := by
  obtain ⟨hpread, hpwrite, hlt, hdata⟩ := h
  have hlen : (encodeAll (pre ++ q.dispose :: post)).length = (encodeAll (pre ++ q :: post)).length := by
    rw [← encodeAll_dispose, List.length_set]
  have hin : (encodeAll pre).length + 2 < (encodeAll (pre ++ q :: post)).length := by
    rw [encodeAll_append, encodeAll_cons, List.length_append, List.length_append, length_encode]
    omega
  have hholds : Holds { rbuf with
      data := update rbuf.data (((rbuf.pread + (encodeAll pre).length) % rbuf.size + 2) % rbuf.size)
        PKT_DISPOSED } (pre ++ q.dispose :: post) := by
    refine ⟨hpread, by rw [hlen]; exact hpwrite, by rw [hlen]; exact hlt, ?_⟩
    show Laid (update rbuf.data _ PKT_DISPOSED) rbuf.size rbuf.pread _
    rw [Nat.mod_add_mod, Nat.add_assoc, ← encodeAll_dispose]
    exact hdata.set hlt.le hin _
  exact cleanUp_holds hholds (by rw [hlen]; exact Nat.lt_succ_of_lt hlt)

/-! ## Where the search begins -/

/-- The way to what is `e` bytes behind `pread`.  A way round the end of the ring has `2 ^ 64` added to
it. -/
def way (rbuf : DvbRingbuffer UInt8) (e : ℕ) : ℕ :=
  if rbuf.pread + e < rbuf.size then e else (2 ^ 64 + e) % rbuf.size

/-- What `pkt_next` computes. -/
theorem consumed_eq_way {o : ℕ} (hsize : rbuf.size < 2 ^ 63) (hp : rbuf.pread < rbuf.size)
    (ho : o < rbuf.size) :
    ((rbuf.pread + o) % rbuf.size + 2 ^ 64 - rbuf.pread) % 2 ^ 64 % rbuf.size = way rbuf o := by
  unfold way
  split_ifs with hlt
  · rw [Nat.mod_eq_of_lt hlt, show rbuf.pread + o + 2 ^ 64 - rbuf.pread = o + 2 ^ 64 by omega,
      Nat.add_mod_right, Nat.mod_eq_of_lt (show o < 2 ^ 64 by omega), Nat.mod_eq_of_lt ho]
  · rw [wrap_eq (a := rbuf.pread + o) (by omega), if_neg hlt,
      show rbuf.pread + o - rbuf.size + 2 ^ 64 - rbuf.pread = 2 ^ 64 + o - rbuf.size by omega,
      Nat.mod_eq_of_lt (show 2 ^ 64 + o - rbuf.size < 2 ^ 64 by omega)]
    exact (Nat.mod_eq_sub_mod (by omega)).symm

/-- The search behind a packet. -/
theorem pktNext_behind (hsize : rbuf.size < 2 ^ 63) (h : Holds rbuf (pre ++ q :: post))
    (hway : way rbuf ((encodeAll pre).length + q.encode.length) < 2 ^ 31) :
    ∃ left : ℤ,
      left = (encodeAll (pre ++ q :: post)).length - way rbuf ((encodeAll pre).length + q.encode.length) ∧
      dvbRingbufferPktNext rbuf (some ((rbuf.pread + (encodeAll pre).length) % rbuf.size)) =
        nextReady rbuf left.toNat
          ((rbuf.pread + ((encodeAll pre).length + q.encode.length)) % rbuf.size) left := by
  have hlt := h.lt
  rw [encodeAll_append, encodeAll_cons, List.length_append, List.length_append] at hlt
  have hlaid := @laid_middle rbuf pre post [q] h
  rw [encodeAll_cons, encodeAll_nil, List.append_nil] at hlaid
  have hnext : ((rbuf.pread + (encodeAll pre).length) % rbuf.size + q.bytes.length +
      DVB_RINGBUFFER_PKTHDRSIZE) % rbuf.size =
        (rbuf.pread + ((encodeAll pre).length + q.encode.length)) % rbuf.size := by
    rw [Nat.add_assoc, Nat.mod_add_mod, Nat.add_assoc]
    rfl
  refine ⟨_, rfl, ?_⟩
  unfold dvbRingbufferPktNext
  dsimp only
  rw [(header hlaid).1, hnext, consumed_eq_way hsize h.pread_lt (by omega), h.avail,
    Int.bmod_eq_of_le (by omega) (by omega)]

/-- The search from the start. -/
theorem pktNext_start (h : Holds rbuf pkts) :
    dvbRingbufferPktNext rbuf none =
      nextReady rbuf (encodeAll pkts).length (rbuf.pread % rbuf.size) (encodeAll pkts).length := by
  have hzero : (rbuf.pread + 2 ^ 64 - rbuf.pread) % 2 ^ 64 % rbuf.size = 0 := by
    rw [Nat.add_sub_cancel_left, Nat.mod_self, Nat.zero_mod]
  have hint : Int.bmod (0 : ℕ) (2 ^ 32) = 0 := by decide
  unfold dvbRingbufferPktNext
  dsimp only
  rw [hzero, hint, h.avail, Int.sub_zero, Int.toNat_natCast, Nat.mod_eq_of_lt h.pread_lt]

end Enumerate
end TbsMedia
