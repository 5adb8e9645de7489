import Mathlib
import TbsMedia.DvbRingbuffer.PacketBytes

/-!
# A ring of packets is a list of packets

`Holds rbuf pkts` says that the ring holds the packets `pkts`, those that have been disposed of
included as far as there is one in front of them that has not.  The functions of packets work on that
list.  The one exception is a ring that is full to the last byte and does not begin at its first cell.
The way from `pread` to its end is computed modulo `2 ^ 64`, which is one more than a multiple of the
size of the ring, and comes out as nothing.  So what is behind its last packet, `pkt_next` looks for
in the ring once more.

* `pktNext_none`, `pktNext_some`, `pktNext_end`: the next packet that is still to be read.
* `pktRead_spec`: what is read of a packet.
* `pktDispose_spec`: a packet is disposed of.
* `pktWrite_spec`: a packet is added.
-/

namespace TbsMedia
namespace Ringbuffer

open Lib Function

/-! ## Packets -/

/-- A packet that has a fragment in it, which is as long as its two bytes of header at least. -/
structure Pkt where
  ready : Bool
  bytes : List UInt8
  two_le : 2 ≤ bytes.length
  lt : bytes.length < 65536

/-- The status of a packet. -/
def Pkt.status (q : Pkt) : UInt8 := if q.ready then PKT_READY else PKT_DISPOSED

/-- The packet in the ring. -/
def Pkt.encode (q : Pkt) : List UInt8 :=
  UInt8.ofNat (q.bytes.length / 256) :: UInt8.ofNat q.bytes.length :: q.status :: q.bytes

/-- The packet once it has been disposed of. -/
def Pkt.dispose (q : Pkt) : Pkt := { q with ready := false }

/-- The bytes of all packets. -/
def stream (pkts : List Pkt) : List UInt8 := pkts.flatMap Pkt.encode

@[simp] theorem length_encode (q : Pkt) : q.encode.length = q.bytes.length + 3 := rfl

theorem stream_cons (q : Pkt) (pkts : List Pkt) : stream (q :: pkts) = q.encode ++ stream pkts := rfl

theorem stream_append (pkts pkts' : List Pkt) :
    stream (pkts ++ pkts') = stream pkts ++ stream pkts' := List.flatMap_append

theorem length_stream_cons (q : Pkt) (pkts : List Pkt) :
    (stream (q :: pkts)).length = q.bytes.length + 3 + (stream pkts).length := by
  rw [stream_cons, List.length_append, length_encode]

theorem length_stream_append (pkts pkts' : List Pkt) :
    (stream (pkts ++ pkts')).length = (stream pkts).length + (stream pkts').length := by
  rw [stream_append, List.length_append]

/-- A packet in a ring of any size. -/
def Pkt.toPacket (q : Pkt) : Enumerate.Packet :=
  ⟨q.ready, q.bytes, Nat.le_of_succ_le q.two_le, q.lt⟩

theorem encodeAll_toPacket (pkts : List Pkt) :
    Enumerate.encodeAll (pkts.map Pkt.toPacket) = stream pkts := List.flatMap_map ..

/-- The ring, of the size that a CA slot has, holds the bytes `xs`. -/
structure HoldsBytes (rbuf : DvbRingbuffer UInt8) (xs : List UInt8) : Prop where
  size : rbuf.size = 65535
  contains : Contains rbuf xs

/-- The ring holds the packets `pkts`. -/
abbrev Holds (rbuf : DvbRingbuffer UInt8) (pkts : List Pkt) : Prop := HoldsBytes rbuf (stream pkts)

variable {rbuf : DvbRingbuffer UInt8} {pkts pre post ds : List Pkt} {q q' : Pkt} {idx idx' : ℕ}

/-- Packet `q` is at `idx`, behind `pre` and in front of `post`. -/
structure At (rbuf : DvbRingbuffer UInt8) (pre : List Pkt) (q : Pkt) (post : List Pkt) (idx : ℕ) :
    Prop where
  holds : Holds rbuf (pre ++ q :: post)
  idx : idx = (rbuf.pread + (stream pre).length) % 65535

theorem holds_init (data : Mem UInt8) : Holds (dvbRingbufferInit data 65535) [] :=
  ⟨rfl, contains_init data (by decide)⟩

theorem HoldsBytes.lt {xs : List UInt8} (h : HoldsBytes rbuf xs) : xs.length < 65535 :=
  h.contains.lt.trans_eq h.size

/-- The packets are those of a ring of any size. -/
theorem HoldsBytes.packets (h : Holds rbuf pkts) : Enumerate.Holds rbuf (pkts.map Pkt.toPacket) := by
  show Contains rbuf (Enumerate.encodeAll (pkts.map Pkt.toPacket))
  rw [encodeAll_toPacket]
  exact h.contains

theorem HoldsBytes.of_packets (hsize : rbuf.size = 65535)
    (h : Enumerate.Holds rbuf (pkts.map Pkt.toPacket)) : Holds rbuf pkts :=
  ⟨hsize, encodeAll_toPacket pkts ▸ h⟩

/-- Packets that have been disposed of are so in a ring of any size. -/
theorem disposed_toPacket (hds : ∀ d ∈ ds, d.ready = false) :
    ∀ d ∈ ds.map Pkt.toPacket, d.ready = false :=
  List.forall_mem_map.mpr hds

/-! ## What is at a position -/

/-- The bytes of a packet lie behind its position. -/
theorem At.laid (h : At rbuf pre q post idx) : Laid rbuf.data rbuf.size idx q.encode := by
  have hdata := h.holds.contains.data
  rw [stream_append, laid_append, stream_cons, laid_append] at hdata
  rw [h.idx, ← h.holds.size, laid_mod]
  exact hdata.2.1

theorem At.pktlen (h : At rbuf pre q post idx) : pktlen rbuf idx = q.bytes.length := by
  have hhead := (Enumerate.header (q := q.toPacket) h.laid).1
  rwa [h.holds.size, Nat.mod_eq_of_lt (h.idx ▸ Nat.mod_lt _ (by decide))] at hhead

/-- **What is read of a packet**: the bytes behind an offset, as far as there are. -/
theorem pktRead_spec (h : At rbuf pre q post idx) {offset len : ℕ} (hlen : offset + len ≤ q.bytes.length) :
    dvbRingbufferPktRead rbuf idx offset len = some ((q.bytes.drop offset).take len) := by
  have hlt := h.holds.lt
  rw [length_stream_append, length_stream_cons] at hlt
  unfold dvbRingbufferPktRead
  dsimp only
  rw [h.pktlen, if_neg (by omega), if_neg (by omega), h.holds.size]
  unfold DVB_RINGBUFFER_PKTHDRSIZE
  have hlaid := h.laid
  have hsplit : q.encode = q.encode.take (3 + offset) ++
      ((q.bytes.drop offset).take len ++ (q.bytes.drop offset).drop len) := by
    rw [List.take_append_drop]
    have hdrop : q.encode.drop (3 + offset) = q.bytes.drop offset := by
      rw [← List.drop_drop]
      rfl
    rw [← hdrop, List.take_append_drop]
  have htake : (q.encode.take (3 + offset)).length = 3 + offset := by
    rw [List.length_take, length_encode]
    omega
  have hpart : ((q.bytes.drop offset).take len).length = len := by
    rw [List.length_take, List.length_drop]
    omega
  rw [hsplit, laid_append, laid_append, htake, ← Nat.add_assoc] at hlaid
  have hpos : 0 < rbuf.size := Nat.lt_of_lt_of_eq (by decide) h.holds.size.symm
  have hfetch := fetch_laid (Nat.mod_lt _ hpos) (laid_mod.mpr hlaid.2.1) (by rw [hpart, h.holds.size]; omega)
  rw [hpart, h.holds.size] at hfetch
  rw [hfetch]

/-! ## The next packet -/

/-- The ring is full to the last byte, and does not begin at its first cell. -/
def Brimful (rbuf : DvbRingbuffer UInt8) (pkts : List Pkt) : Prop :=
  rbuf.pread ≠ 0 ∧ (stream pkts).length = 65534

/-- The first packet that is still to be read. -/
theorem nextReady_some (hds : ∀ d ∈ ds, d.ready = false) (hq : q.ready = true)
    (h : Holds rbuf (pre ++ (ds ++ q :: post))) {fuel : ℕ} {left : ℤ}
    (hleft : ((stream (ds ++ q :: post)).length : ℤ) - 1 ≤ left) (hfuel : left.toNat ≤ fuel) :
    nextReady rbuf fuel ((rbuf.pread + (stream pre).length) % 65535) left =
      some ((rbuf.pread + (stream (pre ++ ds)).length) % 65535, q.bytes.length) := by
  have htwo := q.two_le
  have hpackets := h.packets
  have hassoc : (pre ++ (ds ++ q :: post)).map Pkt.toPacket =
      pre.map Pkt.toPacket ++ (ds.map Pkt.toPacket ++ [q.toPacket] ++ post.map Pkt.toPacket) := by
    simp
  rw [hassoc] at hpackets
  have hlaid := Enumerate.laid_middle hpackets
  rw [encodeAll_toPacket] at hlaid
  rw [length_stream_append, length_stream_cons] at hleft
  have hfound := Enumerate.nextReady_found (disposed_toPacket hds) hq hlaid
    (by rw [encodeAll_toPacket]; omega) hfuel
  rw [h.size, encodeAll_toPacket, Nat.add_assoc, ← length_stream_append] at hfound
  exact hfound

/-- No packet is left that is still to be read. -/
theorem nextReady_none (hds : ∀ d ∈ ds, d.ready = false) (h : Holds rbuf (pre ++ ds)) {fuel : ℕ}
    {left : ℤ} (hleft : left ≤ (stream ds).length) :
    nextReady rbuf fuel ((rbuf.pread + (stream pre).length) % 65535) left = none := by
  have hpackets := h.packets
  have hassoc : (pre ++ ds).map Pkt.toPacket =
      pre.map Pkt.toPacket ++ (ds.map Pkt.toPacket ++ []) := by
    simp
  rw [hassoc] at hpackets
  have hlaid := Enumerate.laid_middle hpackets
  rw [encodeAll_toPacket] at hlaid
  rw [← h.size]
  exact Enumerate.nextReady_ends (disposed_toPacket hds) hlaid (hleft.trans (by rw [encodeAll_toPacket]; omega))

/-- The way to a position `o` bytes behind `pread` comes out right, or a byte too long. -/
theorem way_cases {o : ℕ} (hsize : rbuf.size = 65535) (ho : o < 65535)
    (hfull : rbuf.pread = 0 ∨ o < 65534) : Enumerate.way rbuf o = o ∨ Enumerate.way rbuf o = o + 1 := by
  unfold Enumerate.way
  rw [hsize]
  split_ifs with hround
  · exact Or.inl rfl
  · right
    omega

/-- Where the search begins, and how many bytes it takes to be left there: as many as there are, or
one less.  Behind the last packet of a ring that is brimful it takes none to be consumed. -/
theorem pktNext_left (h : At rbuf pre q post idx)
    (hbrim : post ≠ [] ∨ ¬ Brimful rbuf (pre ++ q :: post)) :
    ∃ left : ℤ, ((stream post).length : ℤ) - 1 ≤ left ∧ left ≤ (stream post).length ∧
      dvbRingbufferPktNext rbuf (some idx) =
        nextReady rbuf left.toNat ((rbuf.pread + (stream (pre ++ [q])).length) % 65535) left := by
  have hlt := h.holds.lt
  have hpackets := h.holds.packets
  have hfive : post = [] ∨ 5 ≤ (stream post).length := by
    cases post with
    | nil => exact Or.inl rfl
    | cons d ds =>
      have htwo := d.two_le
      rw [length_stream_cons]
      omega
  have hone : (stream (pre ++ [q])).length = (stream pre).length + (q.bytes.length + 3) := by
    rw [length_stream_append, length_stream_cons]
    rfl
  have hbrim' : rbuf.pread = 0 ∨ (stream (pre ++ [q])).length < 65534 := by
    by_contra hno
    obtain ⟨hpread, hfull⟩ := not_or.mp hno
    rw [length_stream_append, length_stream_cons] at hlt
    rcases hfive with rfl | hfive
    · refine hbrim.elim (· rfl) (· ⟨hpread, ?_⟩)
      have hnil : (stream []).length = 0 := rfl
      rw [length_stream_append, length_stream_cons]
      omega
    · omega
  rw [List.map_append, List.map_cons] at hpackets
  rw [length_stream_append, length_stream_cons] at hlt
  have hway := way_cases h.holds.size (by omega : (stream (pre ++ [q])).length < 65535) hbrim'
  have hlen : (Enumerate.encodeAll (pre.map Pkt.toPacket)).length + q.toPacket.encode.length =
      (stream (pre ++ [q])).length := by
    rw [encodeAll_toPacket, hone]
    rfl
  obtain ⟨left, hleft, hnext⟩ := Enumerate.pktNext_behind (h.holds.size ▸ by decide) hpackets
    (by rw [hlen]; omega)
  rw [hlen, encodeAll_toPacket, h.holds.size, ← h.idx] at hnext
  rw [hlen, ← List.map_cons, ← List.map_append, encodeAll_toPacket, length_stream_append,
    length_stream_cons] at hleft
  exact ⟨left, by omega, by omega, hnext⟩

/-- **The next packet** behind one of the packets. -/
theorem pktNext_some (h : At rbuf pre q (ds ++ q' :: post) idx) (hds : ∀ d ∈ ds, d.ready = false)
    (hq : q'.ready = true) :
    ∃ idx', dvbRingbufferPktNext rbuf (some idx) = some (idx', q'.bytes.length) ∧
      At rbuf (pre ++ q :: ds) q' post idx' := by
  obtain ⟨left, hlow, -, hnext⟩ := pktNext_left h (Or.inl (List.append_ne_nil_of_right_ne_nil _
    (List.cons_ne_nil _ _)))
  have hassoc : pre ++ [q] ++ ds = pre ++ q :: ds := by
    rw [List.append_assoc, List.singleton_append]
  have hholds : Holds rbuf (pre ++ [q] ++ (ds ++ q' :: post)) := by
    rw [List.append_assoc, List.singleton_append]
    exact h.holds
  refine ⟨_, hnext.trans (nextReady_some hds hq hholds hlow (Nat.le_refl _)), ?_, ?_⟩
  · rw [← hassoc, List.append_assoc]
    exact hholds
  · rw [hassoc]

/-- The search from the start. -/
theorem pktNext_start (h : Holds rbuf pkts) :
    dvbRingbufferPktNext rbuf none =
      nextReady rbuf (stream pkts).length ((rbuf.pread + (stream []).length) % 65535)
        ((stream pkts).length : ℤ) := by
  have hstart := Enumerate.pktNext_start h.packets
  rw [encodeAll_toPacket, h.size] at hstart
  exact hstart

/-- **The first packet** that is still to be read. -/
theorem pktNext_first (h : Holds rbuf (ds ++ q :: post)) (hds : ∀ d ∈ ds, d.ready = false)
    (hq : q.ready = true) :
    ∃ idx, dvbRingbufferPktNext rbuf none = some (idx, q.bytes.length) ∧ At rbuf ds q post idx :=
  ⟨_, (pktNext_start h).trans (@nextReady_some rbuf [] post ds q hds hq h _ _ (by omega) (by omega)),
    h, rfl⟩

theorem pktNext_none (h : Holds rbuf ds) (hds : ∀ d ∈ ds, d.ready = false) :
    dvbRingbufferPktNext rbuf none = none :=
  (pktNext_start h).trans
    (@nextReady_none rbuf [] ds hds h _ _ (Int.le_refl _))

/-! ## Disposing of a packet -/

/-- The packets without those at the front that have been disposed of. -/
def trim (pkts : List Pkt) : List Pkt := pkts.dropWhile fun q => !q.ready

/-- How far the clean-up gets. -/
def trimmed (pkts : List Pkt) : ℕ := (stream (pkts.takeWhile fun q => !q.ready)).length

theorem length_trim (pkts : List Pkt) :
    trimmed pkts + (stream (trim pkts)).length = (stream pkts).length := by
  unfold trimmed trim
  rw [← length_stream_append, List.takeWhile_append_dropWhile]

theorem trim_toPacket (pkts : List Pkt) :
    Enumerate.trim (pkts.map Pkt.toPacket) = (trim pkts).map Pkt.toPacket := List.dropWhile_map ..

theorem trimmed_toPacket (pkts : List Pkt) : Enumerate.trimmed (pkts.map Pkt.toPacket) = trimmed pkts := by
  unfold Enumerate.trimmed trimmed
  rw [List.takeWhile_map, encodeAll_toPacket]
  rfl

/-- Disposing of a packet does not change how long it is. -/
theorem length_stream_dispose (pre post : List Pkt) (q : Pkt) :
    (stream (pre ++ q.dispose :: post)).length = (stream (pre ++ q :: post)).length := by
  rw [length_stream_append, length_stream_append]
  rfl

/-- **A packet is disposed of**, and what is at the front goes. -/
theorem pktDispose_spec (h : At rbuf pre q post idx) :
    ∃ rbuf', dvbRingbufferPktDispose rbuf idx = some rbuf' ∧
      Holds rbuf' (trim (pre ++ q.dispose :: post)) ∧
      rbuf'.pread = (rbuf.pread + trimmed (pre ++ q.dispose :: post)) % 65535 := by
  have hpackets := h.holds.packets
  rw [List.map_append, List.map_cons] at hpackets
  obtain ⟨rbuf', hdispose, hholds, hsize, hpread⟩ := Enumerate.pktDispose_holds hpackets
  have hmap : pre.map Pkt.toPacket ++ q.toPacket.dispose :: post.map Pkt.toPacket =
      (pre ++ q.dispose :: post).map Pkt.toPacket := by
    rw [List.map_append, List.map_cons]
    rfl
  rw [encodeAll_toPacket, h.holds.size, ← h.idx] at hdispose
  rw [hmap, trim_toPacket] at hholds
  rw [hmap, trimmed_toPacket, h.holds.size] at hpread
  exact ⟨rbuf', hdispose, .of_packets (hsize.trans h.holds.size) hholds, hpread⟩

/-! ## What is still to be read -/

/-- The packets that are still to be read. -/
def pending (pkts : List Pkt) : List Pkt := pkts.filter Pkt.ready

@[simp] theorem pending_append (pkts pkts' : List Pkt) :
    pending (pkts ++ pkts') = pending pkts ++ pending pkts' := List.filter_append ..

theorem pending_cons (hq : q.ready = true) (pkts : List Pkt) :
    pending (q :: pkts) = q :: pending pkts := List.filter_cons_of_pos hq

@[simp] theorem pending_dispose (q : Pkt) (pkts : List Pkt) :
    pending (q.dispose :: pkts) = pending pkts := List.filter_cons_of_neg Bool.false_ne_true

theorem pending_eq_nil : pending ds = [] ↔ ∀ d ∈ ds, d.ready = false := by
  unfold pending
  rw [List.filter_eq_nil_iff]
  exact forall₂_congr fun d _ => Bool.not_eq_true _ ▸ Iff.rfl

/-- The first packet that is still to be read. -/
theorem pending_eq_cons {qs : List Pkt} (h : pending pkts = q :: qs) :
    ∃ ds post, pkts = ds ++ q :: post ∧ (∀ d ∈ ds, d.ready = false) ∧ q.ready = true ∧
      pending post = qs := by
  obtain ⟨ds, post, rfl, hds, hq, hpost⟩ := List.filter_eq_cons_iff.mp h
  exact ⟨ds, post, rfl, fun d hd => Bool.not_eq_true _ ▸ hds d hd, hq, hpost⟩

@[simp] theorem pending_trim (pkts : List Pkt) : pending (trim pkts) = pending pkts := by
  have htake : pending (pkts.takeWhile fun q => !q.ready) = [] := by
    rw [pending_eq_nil]
    intro d hd
    have hall := List.all_eq_true.mp (@List.all_takeWhile _ _ pkts) d hd
    exact Bool.not_eq_true' _ |>.mp hall
  conv_rhs => rw [← @List.takeWhile_append_dropWhile Pkt (fun q => !q.ready) pkts, pending_append,
    htake, List.nil_append]
  rfl

theorem trim_append (hq : q.ready = true) (pre post : List Pkt) :
    trim (pre ++ q :: post) = trim pre ++ q :: post := by
  unfold trim
  induction pre with
  | nil => rw [List.nil_append, List.dropWhile_cons_of_neg (by simp [hq])]; rfl
  | cons d pre ih =>
    rw [List.cons_append, List.dropWhile_cons, List.dropWhile_cons, ih]
    split <;> rfl

/-- **The cursor survives** when a packet in front of it is disposed of. -/
theorem At.dispose (h : At rbuf pre q (ds ++ q' :: post) idx)
    (h' : At rbuf (pre ++ q :: ds) q' post idx') (hq' : q'.ready = true) :
    ∃ rbuf', dvbRingbufferPktDispose rbuf idx = some rbuf' ∧
      At rbuf' (trim (pre ++ q.dispose :: ds)) q' post idx' := by
  obtain ⟨rbuf', hdispose, hholds, hpread⟩ := pktDispose_spec h
  have hassoc : pre ++ q.dispose :: (ds ++ q' :: post) = pre ++ q.dispose :: ds ++ q' :: post := by
    rw [List.append_assoc, List.cons_append]
  rw [hassoc, trim_append hq'] at hholds
  rw [hassoc] at hpread
  have hall := length_trim (pre ++ q.dispose :: ds ++ q' :: post)
  have hfront := length_trim (pre ++ q.dispose :: ds)
  rw [trim_append hq', length_stream_append, length_stream_append] at hall
  have hlen := length_stream_dispose pre ds q
  refine ⟨rbuf', hdispose, hholds, ?_⟩
  rw [h'.idx, hpread]
  omega

/-! ## Adding a packet -/

/-- **A packet is added**, if there is room for it. -/
theorem pktWrite_spec (h : Holds rbuf pkts) (hq : q.ready = true)
    (hroom : (stream pkts).length + q.bytes.length + 3 < 65535) :
    Holds (dvbRingbufferPktWrite rbuf q.bytes) (pkts ++ [q]) := by
  have hadded := Enumerate.holds_pktWrite (q := q.toPacket) h.packets hq
    (by rw [encodeAll_toPacket, h.size]; exact hroom)
  refine .of_packets ((Enumerate.size_pktWrite _ _).1.trans h.size) ?_
  rw [List.map_append]
  exact hadded

end Ringbuffer
end TbsMedia
