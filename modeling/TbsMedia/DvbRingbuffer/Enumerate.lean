import Mathlib
import TbsMedia.DvbRingbuffer.PacketBytes
import TbsMedia.Lib.Runs

/-!
# Enumerating the packets in a ring buffer

A ring of any size, to which packets are added and from which packets are disposed of in any order.
`Store` is the ring together with what it stands for, the list of the packets that have not been
disposed of, each with its position.  `Visits rbuf start l` says that `pkt_next`, called over and over
from `start` on, goes through the packets `l` and then finds no more.

The way from `pread` to a position is right as long as it does not go round the end of the ring.  Where
it does, a round is taken off it before it is taken modulo `2 ^ 64`, and comes back in only if the size
of the ring divides `2 ^ 64`.  Otherwise the way is too long or too short, and `Steady` says what that
leaves room for.

* `step_inv`, `run_reaches`: the ring holds the packets, those disposed of included as far as there is
  one in front of them that has not been.
* `pktNext_enumerates`: the packets of a steady ring are visited in their order.
* `steady_of_dvd`: a ring whose size is a power of two is steady.
-/

namespace TbsMedia
namespace Enumerate

open Lib Function Ringbuffer

/-! ## The ring and its packets -/

/-- The ring, and the packets that have not been disposed of: their positions and their bytes. -/
structure Store where
  rbuf : DvbRingbuffer UInt8
  stored : List (ℕ × List UInt8)

/-- The ring as `dvb_ringbuffer_init` leaves it. -/
def Store.init (data : Mem UInt8) (size : ℕ) : Store := ⟨dvbRingbufferInit data size, []⟩

/-- What happens to the ring. -/
inductive Event where
  /-- A packet is added. -/
  | write (buf : List UInt8)
  /-- One of the packets is disposed of. -/
  | dispose (k : ℕ)

/-- One event.  A packet has a byte at least, and there has to be room for it. -/
def step (s : Store) : Event → Option Store
  | .write buf =>
    if 1 ≤ buf.length ∧ (buf.length : ℤ) + DVB_RINGBUFFER_PKTHDRSIZE ≤ dvbRingbufferFree s.rbuf then
      some ⟨dvbRingbufferPktWrite s.rbuf buf, s.stored ++ [(s.rbuf.pwrite, buf)]⟩
    else none
  | .dispose k =>
    s.stored[k]?.bind fun q =>
      (dvbRingbufferPktDispose s.rbuf q.1).map fun rbuf => ⟨rbuf, s.stored.eraseIdx k⟩

/-- What `pkt_next` visits from `start` on until it returns `-1`: positions and lengths. -/
inductive Visits (rbuf : DvbRingbuffer UInt8) : Option ℕ → List (ℕ × ℕ) → Prop
  | done {start : Option ℕ} (h : dvbRingbufferPktNext rbuf start = none) : Visits rbuf start []
  | next {start : Option ℕ} {idx pktlen : ℕ} {l : List (ℕ × ℕ)}
      (h : dvbRingbufferPktNext rbuf start = some (idx, pktlen)) (hl : Visits rbuf (some idx) l) :
      Visits rbuf start ((idx, pktlen) :: l)

/-- The enumeration is exact: it visits the packets that have not been disposed of, oldest first. -/
def Exact (s : Store) : Prop := Visits s.rbuf none (s.stored.map fun q => (q.1, q.2.length))

/-! ## How long the way to a position comes out -/

/-- How many bytes `idx` is behind `pread`. -/
def offset (rbuf : DvbRingbuffer UInt8) (idx : ℕ) : ℕ := (idx + rbuf.size - rbuf.pread) % rbuf.size

/-- How many bytes behind `pread` the packet `q` ends. -/
def finish (rbuf : DvbRingbuffer UInt8) (q : ℕ × List UInt8) : ℕ :=
  offset rbuf q.1 + DVB_RINGBUFFER_PKTHDRSIZE + q.2.length

/-- No way that comes out wrong matters. -/
structure Steady (s : Store) : Prop where
  /-- No way is too long for an `int`, not even behind a packet of any length. -/
  few : dvbRingbufferAvail s.rbuf + 65538 < 2 ^ 31
  way_lt : ∀ q ∈ s.stored, way s.rbuf (finish s.rbuf q) < 2 ^ 31
  /-- The way to the end of a packet is so little too long that the bytes from the next packet on
  outnumber it by more than a header. -/
  chain : s.stored.IsChain fun q q' =>
    (way s.rbuf (finish s.rbuf q) : ℤ) - finish s.rbuf q + DVB_RINGBUFFER_PKTHDRSIZE <
      dvbRingbufferAvail s.rbuf - offset s.rbuf q'.1
  /-- The way to the end of the last packet is too short by a header at most. -/
  last : ∀ q ∈ s.stored.getLast?,
    finish s.rbuf q ≤ way s.rbuf (finish s.rbuf q) + DVB_RINGBUFFER_PKTHDRSIZE

/-! ## The packets that are left -/

/-- The packets that have not been disposed of, of those that lie from position `a` on. -/
def entries (n : ℕ) : ℕ → List Packet → List (ℕ × List UInt8)
  | _, [] => []
  | a, q :: pkts =>
    let rest := entries n (a + q.encode.length) pkts
    if q.ready then (a % n, q.bytes) :: rest else rest

variable {rbuf rbuf' : DvbRingbuffer UInt8} {pkts pre post ds : List Packet} {q : Packet} {n a : ℕ}
  {s t : Store} {e : Event} {es : List Event}

@[simp] theorem entries_nil (n a : ℕ) : entries n a [] = [] := rfl

theorem entries_ready (hq : q.ready = true) :
    entries n a (q :: pkts) = (a % n, q.bytes) :: entries n (a + q.encode.length) pkts := if_pos hq

theorem entries_disposed (hq : q.ready = false) :
    entries n a (q :: pkts) = entries n (a + q.encode.length) pkts := if_neg (by rw [hq]; decide)

theorem entries_append : entries n a (pre ++ post) =
    entries n a pre ++ entries n (a + (encodeAll pre).length) post := by
  induction pre generalizing a with
  | nil => rfl
  | cons q pre ih =>
    rw [List.cons_append, encodeAll_cons, List.length_append, ← Nat.add_assoc]
    cases hq : q.ready with
    | true => rw [entries_ready hq, entries_ready hq, ih, List.cons_append]
    | false => rw [entries_disposed hq, entries_disposed hq, ih]

/-- Positions count modulo the size of the ring. -/
theorem entries_mod : entries n (a % n) pkts = entries n a pkts := by
  induction pkts generalizing a with
  | nil => rfl
  | cons q pkts ih =>
    have hrest : entries n (a % n + q.encode.length) pkts = entries n (a + q.encode.length) pkts := by
      rw [← @ih (a % n + q.encode.length), Nat.mod_add_mod, ih]
    cases hq : q.ready with
    | true => rw [entries_ready hq, entries_ready hq, hrest, Nat.mod_mod]
    | false => rw [entries_disposed hq, entries_disposed hq, hrest]

/-- The first of the packets that have not been disposed of. -/
theorem entries_eq_cons {x : ℕ × List UInt8} {l : List (ℕ × List UInt8)}
    (h : entries n a pkts = x :: l) :
    ∃ ds q post, pkts = ds ++ q :: post ∧ (∀ d ∈ ds, d.ready = false) ∧ q.ready = true ∧
      x = ((a + (encodeAll ds).length) % n, q.bytes) ∧
      l = entries n (a + (encodeAll ds).length + q.encode.length) post := by
  induction pkts generalizing a with
  | nil => exact absurd h (List.cons_ne_nil _ _).symm
  | cons q pkts ih =>
    cases hq : q.ready with
    | true =>
      rw [entries_ready hq] at h
      obtain ⟨rfl, rfl⟩ := List.cons.inj h
      exact ⟨[], q, pkts, rfl, fun _ hd => absurd hd List.not_mem_nil, hq, rfl, rfl⟩
    | false =>
      rw [entries_disposed hq] at h
      obtain ⟨ds, q', post, rfl, hds, hq', rfl, rfl⟩ := ih h
      refine ⟨q :: ds, q', post, rfl, ?_, hq', ?_, ?_⟩
      · intro d hd
        rcases List.mem_cons.mp hd with rfl | hd
        · exact hq
        · exact hds d hd
      · rw [encodeAll_cons, List.length_append, Nat.add_assoc]
      · rw [encodeAll_cons, List.length_append, Nat.add_assoc a]

theorem entries_eq_nil (h : entries n a pkts = []) : ∀ d ∈ pkts, d.ready = false := by
  induction pkts generalizing a with
  | nil => exact fun _ hd => absurd hd List.not_mem_nil
  | cons q pkts ih =>
    intro d hd
    cases hq : q.ready with
    | true =>
      rw [entries_ready hq] at h
      exact absurd h (List.cons_ne_nil _ _)
    | false =>
      rw [entries_disposed hq] at h
      rcases List.mem_cons.mp hd with rfl | hd
      · exact hq
      · exact ih h d hd

theorem entries_of_disposed (h : ∀ d ∈ ds, d.ready = false) : entries n a ds = [] := by
  induction ds generalizing a with
  | nil => rfl
  | cons d ds ih =>
    rw [entries_disposed (h d List.mem_cons_self)]
    exact ih fun d' hd' => h d' (List.mem_cons_of_mem _ hd')

/-- The clean-up leaves them where they are. -/
theorem entries_trim : entries n ((a + trimmed pkts) % n) (trim pkts) = entries n a pkts := by
  have hfront : ∀ d ∈ pkts.takeWhile (fun q => !q.ready), d.ready = false := fun d hd =>
    (Bool.not_eq_true' _).mp (List.all_eq_true.mp (@List.all_takeWhile _ _ pkts) d hd)
  rw [entries_mod]
  conv_rhs =>
    rw [← @List.takeWhile_append_dropWhile Packet (fun q => !q.ready) pkts, entries_append,
      entries_of_disposed hfront, List.nil_append]
  rfl

/-- One of the packets that have not been disposed of. -/
theorem entries_split {k : ℕ} {x : ℕ × List UInt8} (h : (entries n a pkts)[k]? = some x) :
    ∃ pre q post, pkts = pre ++ q :: post ∧ q.ready = true ∧
      x = ((a + (encodeAll pre).length) % n, q.bytes) ∧
      (entries n a pkts).eraseIdx k = entries n a (pre ++ q.dispose :: post) := by
  induction pkts generalizing a k with
  | nil => exact absurd h (by simp)
  | cons q pkts ih =>
    cases hq : q.ready with
    | true =>
      rw [entries_ready hq] at h ⊢
      cases k with
      | zero =>
        rw [List.getElem?_cons_zero] at h
        refine ⟨[], q, pkts, rfl, hq, (Option.some.inj h).symm, ?_⟩
        rw [List.eraseIdx_cons_zero, List.nil_append, entries_disposed rfl]
        rfl
      | succ k =>
        rw [List.getElem?_cons_succ] at h
        obtain ⟨pre, q', post, rfl, hq', rfl, herase⟩ := ih h
        refine ⟨q :: pre, q', post, rfl, hq', ?_, ?_⟩
        · rw [encodeAll_cons, List.length_append, Nat.add_assoc]
        · rw [List.eraseIdx_cons_succ, herase, List.cons_append, entries_ready hq]
    | false =>
      rw [entries_disposed hq] at h ⊢
      obtain ⟨pre, q', post, rfl, hq', rfl, herase⟩ := ih h
      refine ⟨q :: pre, q', post, rfl, hq', ?_, ?_⟩
      · rw [encodeAll_cons, List.length_append, Nat.add_assoc]
      · rw [herase, List.cons_append, entries_disposed hq]

/-! ## Runs -/

/-- The ring holds packets, and the store knows those that have not been disposed of. -/
def Inv (size : ℕ) (s : Store) : Prop :=
  s.rbuf.size = size ∧ ∃ pkts, Holds s.rbuf pkts ∧ s.stored = entries s.rbuf.size s.rbuf.pread pkts

/-- The length of a packet goes into its header. -/
def Fits : Event → Prop
  | .write buf => buf.length < 65536
  | .dispose _ => True

theorem inv_init (data : Mem UInt8) {size : ℕ} (hsize : 0 < size) : Inv size (Store.init data size) :=
  ⟨rfl, [], contains_init data hsize, rfl⟩

/-- **Each event** keeps the packets in the ring. -/
theorem step_inv {size : ℕ} (h : Inv size s) (hfits : Fits e) (hstep : step s e = some t) : Inv size t := by
  obtain ⟨hsize, pkts, hholds, hstored⟩ := h
  cases e with
  | write buf =>
    unfold step at hstep
    dsimp only at hstep
    split_ifs at hstep with hroom
    obtain rfl := Option.some.inj hstep
    obtain ⟨hone, hfree⟩ := hroom
    rw [hholds.free] at hfree
    unfold DVB_RINGBUFFER_PKTHDRSIZE at hfree
    obtain ⟨hsame, hpread⟩ := size_pktWrite s.rbuf buf
    refine ⟨hsame.trans hsize, pkts ++ [⟨true, buf, hone, hfits⟩], ?_, ?_⟩
    · refine @holds_pktWrite s.rbuf pkts ⟨true, buf, hone, hfits⟩ hholds rfl ?_
      rw [length_encode]
      dsimp only
      omega
    · show s.stored ++ [(s.rbuf.pwrite, buf)] = _
      rw [hsame, hpread, entries_append, entries_ready rfl, entries_nil, ← hstored, hholds.pwrite]
  | dispose k =>
    obtain ⟨x, hx, hstep⟩ := Option.bind_eq_some_iff.mp hstep
    obtain ⟨rbuf, hdispose, rfl⟩ := Option.map_eq_some_iff.mp hstep
    rw [hstored] at hx
    obtain ⟨pre, q, post, rfl, -, rfl, herase⟩ := entries_split hx
    obtain ⟨rbuf', hdispose', hholds', hsame, hpread⟩ := pktDispose_holds hholds
    obtain rfl := Option.some.inj (hdispose.symm.trans hdispose')
    refine ⟨hsame.trans hsize, _, hholds', ?_⟩
    show s.stored.eraseIdx k = _
    rw [hsame, hpread, entries_trim, hstored, herase]

/-- **A packet can be disposed of** whenever there is one: the clean-up ends. -/
theorem step_dispose {size : ℕ} (h : Inv size s) {k : ℕ} (hk : k < s.stored.length) :
    (step s (.dispose k)).isSome := by
  obtain ⟨-, pkts, hholds, hstored⟩ := h
  have hx : (entries s.rbuf.size s.rbuf.pread pkts)[k]? = some s.stored[k] := by
    rw [← hstored]
    exact List.getElem?_eq_getElem hk
  obtain ⟨pre, q, post, rfl, -, hq, -⟩ := entries_split hx
  obtain ⟨rbuf', hdispose, -⟩ := pktDispose_holds hholds
  unfold step
  dsimp only
  rw [List.getElem?_eq_getElem hk, Option.bind_some, hq, hdispose]
  rfl

/-- **Every run** keeps the packets in the ring. -/
theorem run_inv_of_fits {size : ℕ} (h : Inv size s) (hfits : ∀ e ∈ es, Fits e)
    (hrun : run step s es = some t) : Inv size t := by
  induction es generalizing s with
  | nil =>
    obtain rfl := Option.some.inj hrun
    exact h
  | cons e es ih =>
    obtain ⟨u, hu, hrun⟩ := Option.bind_eq_some_iff.mp hrun
    exact ih (step_inv h (hfits e List.mem_cons_self) hu)
      (fun e' he' => hfits e' (List.mem_cons_of_mem _ he')) hrun

/-! ## The way to a position -/

/-- How far the position of a packet is behind `pread`. -/
theorem offset_eq {o : ℕ} (hp : rbuf.pread < rbuf.size) (ho : o < rbuf.size) :
    offset rbuf ((rbuf.pread + o) % rbuf.size) = o := by
  unfold offset
  rcases Nat.lt_or_ge (rbuf.pread + o) rbuf.size with hlt | hge
  · rw [Nat.mod_eq_of_lt hlt, show rbuf.pread + o + rbuf.size - rbuf.pread = o + rbuf.size by omega,
      Nat.add_mod_right, Nat.mod_eq_of_lt ho]
  · rw [wrap_eq (a := rbuf.pread + o) (by omega), if_neg (by omega),
      show rbuf.pread + o - rbuf.size + rbuf.size - rbuf.pread = o by omega, Nat.mod_eq_of_lt ho]

/-! ## The enumeration -/

/-- A packet ends where its bytes do. -/
theorem finish_eq (h : Holds rbuf (pre ++ q :: post)) :
    finish rbuf ((rbuf.pread + (encodeAll pre).length) % rbuf.size, q.bytes) =
      (encodeAll pre).length + q.encode.length := by
  have hlt := h.lt
  rw [encodeAll_append, encodeAll_cons, List.length_append, List.length_append] at hlt
  unfold finish
  dsimp only
  rw [offset_eq h.pread_lt (by omega), length_encode]
  unfold DVB_RINGBUFFER_PKTHDRSIZE
  omega

/-- **Behind each packet** those that follow are visited. -/
theorem visits_behind (hsize : rbuf.size < 2 ^ 63) {x : ℕ × List UInt8} {l : List (ℕ × List UInt8)}
    (h : Holds rbuf (pre ++ q :: post))
    (hx : x = ((rbuf.pread + (encodeAll pre).length) % rbuf.size, q.bytes))
    (hl : l = entries rbuf.size (rbuf.pread + (encodeAll pre).length + q.encode.length) post)
    (hway : ∀ y ∈ x :: l, way rbuf (finish rbuf y) < 2 ^ 31)
    (hchain : (x :: l).IsChain fun y z =>
      (way rbuf (finish rbuf y) : ℤ) - finish rbuf y + DVB_RINGBUFFER_PKTHDRSIZE <
        dvbRingbufferAvail rbuf - offset rbuf z.1)
    (hlast : ∀ y ∈ (x :: l).getLast?,
      finish rbuf y ≤ way rbuf (finish rbuf y) + DVB_RINGBUFFER_PKTHDRSIZE) :
    Visits rbuf (some x.1) (l.map fun y => (y.1, y.2.length)) := by
  induction l generalizing x pre q post with
  | nil =>
    have hds := entries_eq_nil hl.symm
    have hshort := hlast x rfl
    have hfirst := hway x List.mem_cons_self
    subst hx
    rw [finish_eq h] at hshort hfirst
    obtain ⟨left, hleft, hnext⟩ := pktNext_behind hsize h hfirst
    refine Visits.done (hnext.trans ?_)
    have hassoc : pre ++ q :: post = pre ++ [q] ++ (post ++ []) := by
      rw [List.append_nil, List.append_assoc, List.singleton_append]
    have hlaid := @laid_middle rbuf (pre ++ [q]) [] post (hassoc ▸ h)
    rw [encodeAll_append, encodeAll_cons, encodeAll_nil, List.append_nil, List.length_append] at hlaid
    refine nextReady_ends hds hlaid ?_
    rw [hleft, encodeAll_append, encodeAll_cons, List.length_append, List.length_append]
    unfold DVB_RINGBUFFER_PKTHDRSIZE at hshort
    omega
  | cons y l ih =>
    obtain ⟨ds, q', post', rfl, hds, hq', hy, hrest⟩ := entries_eq_cons hl.symm
    obtain ⟨hstep, hothers⟩ := List.isChain_cons_cons.mp hchain
    have hfirst := hway x List.mem_cons_self
    subst hx
    rw [finish_eq h] at hstep hfirst
    obtain ⟨left, hleft, hnext⟩ := pktNext_behind hsize h hfirst
    have hlt := h.lt
    have hassoc : pre ++ q :: (ds ++ q' :: post') = pre ++ [q] ++ (ds ++ [q'] ++ post') := by
      simp only [List.append_assoc, List.singleton_append]
    have hbehind : pre ++ q :: (ds ++ q' :: post') = pre ++ q :: ds ++ q' :: post' := by
      rw [List.append_assoc, List.cons_append]
    have hlaid := @laid_middle rbuf (pre ++ [q]) post' (ds ++ [q']) (hassoc ▸ h)
    have hpre : (encodeAll (pre ++ q :: ds)).length =
        (encodeAll pre).length + q.encode.length + (encodeAll ds).length := by
      rw [encodeAll_append, encodeAll_cons, List.length_append, List.length_append, Nat.add_assoc]
    have hall : (encodeAll (pre ++ q :: (ds ++ q' :: post'))).length =
        (encodeAll (pre ++ q :: ds)).length + (q'.encode.length + (encodeAll post').length) := by
      rw [hbehind, encodeAll_append, encodeAll_cons, List.length_append, List.length_append]
    rw [encodeAll_append pre, encodeAll_cons, encodeAll_nil, List.append_nil, List.length_append] at hlaid
    have hpos : y = ((rbuf.pread + (encodeAll (pre ++ q :: ds)).length) % rbuf.size, q'.bytes) := by
      rw [hy, hpre]
      simp only [Nat.add_assoc]
    have hoff : offset rbuf y.1 = (encodeAll (pre ++ q :: ds)).length := by
      rw [hpos]
      exact offset_eq h.pread_lt (by omega)
    rw [h.avail, hoff, hpre] at hstep
    unfold DVB_RINGBUFFER_PKTHDRSIZE at hstep
    have hfound := @nextReady_found _ _ _ _ hds hq' hlaid left.toNat left (by omega) (Nat.le_refl _)
    rw [List.map_cons]
    refine Visits.next (hnext.trans (hfound.trans ?_)) ?_
    · rw [hpos, hpre]
      simp only [Nat.add_assoc]
    · refine ih (hbehind ▸ h) hpos ?_ (fun z hz => hway z (List.mem_cons_of_mem _ hz)) hothers ?_
      · rw [hrest, hpre]
        simp only [Nat.add_assoc]
      · intro z hz
        exact hlast z (by rw [List.getLast?_cons_cons]; exact hz)

/-- **A steady ring** is enumerated exactly. -/
theorem exact_of_steady {size : ℕ} (hsize : size < 2 ^ 63) (h : Inv size s) (hsteady : Steady s) : Exact s := by
  obtain ⟨hsame, pkts, hholds, hstored⟩ := h
  obtain ⟨-, hway, hchain, hlast⟩ := hsteady
  have hzero : (encodeAll []).length = 0 := rfl
  unfold Exact
  cases hl : s.stored with
  | nil =>
    rw [hl] at hstored
    refine Visits.done ((pktNext_start hholds).trans ?_)
    exact nextReady_ends (entries_eq_nil hstored.symm) hholds.data (by omega)
  | cons x l =>
    rw [hl] at hstored hway hchain hlast
    obtain ⟨ds, q, post, rfl, hds, hq, hx, hrest⟩ := entries_eq_cons hstored.symm
    have hassoc : ds ++ q :: post = ds ++ [q] ++ post := by
      rw [List.append_assoc, List.singleton_append]
    have hlaid := @laid_middle s.rbuf [] post (ds ++ [q]) (hassoc ▸ hholds)
    rw [hzero, Nat.add_zero] at hlaid
    have hone := q.one_le
    have hlen : (encodeAll (ds ++ q :: post)).length =
        (encodeAll ds).length + (q.bytes.length + 3 + (encodeAll post).length) := by
      rw [encodeAll_append, encodeAll_cons, List.length_append, List.length_append, length_encode]
    have hfound := @nextReady_found _ _ _ _ hds hq hlaid (encodeAll (ds ++ q :: post)).length
      (encodeAll (ds ++ q :: post)).length (by omega) (by omega)
    rw [List.map_cons]
    refine Visits.next ((pktNext_start hholds).trans (hfound.trans ?_)) ?_
    · rw [hx]
    · exact visits_behind (hsame ▸ hsize) hholds hx hrest hway hchain hlast

/-- A ring whose size divides `2 ^ 64` goes round without an error. -/
theorem way_of_dvd {o : ℕ} (hdvd : rbuf.size ∣ 2 ^ 64) (ho : o < rbuf.size) : way rbuf o = o := by
  unfold way
  split_ifs
  · rfl
  · rw [Nat.add_mod, Nat.mod_eq_zero_of_dvd hdvd, Nat.zero_add, Nat.mod_mod, Nat.mod_eq_of_lt ho]

/-- The packets end in front of `pwrite`. -/
theorem finish_le {size : ℕ} (h : Inv size s) {x : ℕ × List UInt8} (hx : x ∈ s.stored) :
    offset s.rbuf x.1 + 4 ≤ finish s.rbuf x ∧ (finish s.rbuf x : ℤ) ≤ dvbRingbufferAvail s.rbuf ∧
      finish s.rbuf x < s.rbuf.size := by
  obtain ⟨-, pkts, hholds, hstored⟩ := h
  rw [hstored] at hx
  obtain ⟨k, hk⟩ := List.mem_iff_getElem?.mp hx
  obtain ⟨pre, q, post, rfl, -, rfl, -⟩ := entries_split hk
  have hone := q.one_le
  have hlt := hholds.lt
  have hfinish := finish_eq hholds
  rw [hholds.avail]
  rw [encodeAll_append, encodeAll_cons, List.length_append, List.length_append] at hlt ⊢
  rw [hfinish, offset_eq hholds.pread_lt (by omega), length_encode]
  rw [length_encode] at hlt
  refine ⟨?_, ?_, ?_⟩
  · omega
  · omega
  · omega

/-- **A ring whose size is a power of two** is steady, as long as an `int` is enough for it. -/
theorem steady_of_dvd {size : ℕ} (h : Inv size s) (hdvd : size ∣ 2 ^ 64)
    (hfew : dvbRingbufferAvail s.rbuf + 65538 < 2 ^ 31) : Steady s := by
  have hsame : s.rbuf.size ∣ 2 ^ 64 := h.1 ▸ hdvd
  have hright : ∀ x ∈ s.stored, way s.rbuf (finish s.rbuf x) = finish s.rbuf x := fun x hx =>
    way_of_dvd hsame (finish_le h hx).2.2
  refine ⟨hfew, ?_, ?_, ?_⟩
  · intro x hx
    have hle := (finish_le h hx).2.1
    rw [hright x hx]
    omega
  · refine (List.pairwise_of_forall_mem_list fun x hx y hy => ?_).isChain
    obtain ⟨hfour, hle, -⟩ := finish_le h hy
    rw [hright x hx]
    unfold DVB_RINGBUFFER_PKTHDRSIZE
    omega
  · intro x hx
    rw [hright x (List.mem_of_getLast? hx)]
    exact Nat.le_add_right _ _

/-! ## Every run -/

/-- **The enumeration is exact** in every steady state that a run reaches whose packets fit into their
headers.  A packet can be disposed of in every state. -/
theorem pktNext_enumerates {size : ℕ} (hsize : 0 < size) (hssize : size < 2 ^ 63) (data : Mem UInt8)
    (hfits : ∀ e ∈ es, Fits e) (hrun : run step (Store.init data size) es = some t) :
    (Steady t → Exact t) ∧ ∀ k < t.stored.length, (step t (.dispose k)).isSome := by
  have hinv := run_inv_of_fits (inv_init data hsize) hfits hrun
  exact ⟨fun hsteady => exact_of_steady hssize hinv hsteady, fun k hk => step_dispose hinv hk⟩

instance (s : Store) : Decidable (Steady s) :=
  decidable_of_iff
    (dvbRingbufferAvail s.rbuf + 65538 < 2 ^ 31 ∧
      (∀ q ∈ s.stored, way s.rbuf (finish s.rbuf q) < 2 ^ 31) ∧
      (s.stored.IsChain fun q q' =>
        (way s.rbuf (finish s.rbuf q) : ℤ) - finish s.rbuf q + DVB_RINGBUFFER_PKTHDRSIZE <
          dvbRingbufferAvail s.rbuf - offset s.rbuf q'.1) ∧
      ∀ q ∈ s.stored.getLast?,
        finish s.rbuf q ≤ way s.rbuf (finish s.rbuf q) + DVB_RINGBUFFER_PKTHDRSIZE)
    ⟨fun ⟨hfew, hway, hchain, hlast⟩ => ⟨hfew, hway, hchain, hlast⟩,
      fun ⟨hfew, hway, hchain, hlast⟩ => ⟨hfew, hway, hchain, hlast⟩⟩

/-- Packets that go round the end of a ring of sixteen bytes. -/
theorem pktNext_enumerates_sixteen :
    ∃ t, run step (Store.init (fun _ => 0) 16)
        [.write [1, 2, 3, 4, 5, 6, 7, 8], .dispose 0, .write [9], .write [10, 11], .write [12], .dispose 1] =
          some t ∧
      t.stored = [(11, [9]), (4, [12])] ∧ Exact t := by
  obtain ⟨t, ht, hvalues⟩ := Option.map_eq_some_iff.mp
    (show (run step (Store.init (fun _ => 0) 16)
        [.write [1, 2, 3, 4, 5, 6, 7, 8], .dispose 0, .write [9], .write [10, 11], .write [12],
          .dispose 1]).map (fun t => (t.stored, decide (Steady t))) =
        some ([(11, [9]), (4, [12])], true) by decide +kernel)
  obtain ⟨hstored, hsteady⟩ := Prod.mk.inj hvalues
  refine ⟨t, ht, hstored, (pktNext_enumerates (by decide) (by decide) _ ?_ ht).1 (of_decide_eq_true hsteady)⟩
  simp [Fits]

/-- In a ring of eleven bytes, of which the first seven have been given back, two packets of one byte go
round the end.  The second one is not found: the way to it comes out as nine bytes, and not as four. -/
theorem pktNext_misses_packet :
    ∃ t, run step (Store.init (fun _ => 0) 11) [.write [1, 2, 3, 4], .dispose 0, .write [5], .write [6]] =
        some t ∧
      t.stored = [(7, [5]), (0, [6])] ∧ dvbRingbufferPktNext t.rbuf none = some (7, 1) ∧
      dvbRingbufferPktNext t.rbuf (some 7) = none ∧ ¬ Exact t := by
  obtain ⟨t, ht, hvalues⟩ := Option.map_eq_some_iff.mp
    (show (run step (Store.init (fun _ => 0) 11)
        [.write [1, 2, 3, 4], .dispose 0, .write [5], .write [6]]).map (fun t =>
          (t.stored, dvbRingbufferPktNext t.rbuf none, dvbRingbufferPktNext t.rbuf (some 7))) =
        some ([(7, [5]), (0, [6])], some (7, 1), none) by decide +kernel)
  obtain ⟨hstored, hvalues⟩ := Prod.mk.inj hvalues
  obtain ⟨hfirst, hsecond⟩ := Prod.mk.inj hvalues
  refine ⟨t, ht, hstored, hfirst, hsecond, fun hexact => ?_⟩
  unfold Exact at hexact
  rw [hstored] at hexact
  cases hexact with
  | next _ hrest =>
    cases hrest with
    | next h _ => exact absurd (hsecond.symm.trans h) (by simp)

end Enumerate
end TbsMedia
