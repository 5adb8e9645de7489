import TbsMedia.Lib.Memory
import TbsMedia.DvbDemux.TsPacket

/-!
# Cutting a byte stream into packets

`dvb_dmx_swfilter` and `dvb_dmx_swfilter_204` of `dvb_demux.c` take the bytes of a transport stream
in buffers of any length and hand them packet by packet to `dvb_dmx_swfilter_packet`.  What a buffer
holds of a packet that the next one ends is carried over in `tsbuf`.

The packet handler is a parameter, and so is the state `σ` that it works on.  The cursors are
natural numbers: they are `int` in the source, and no buffer reaches two gigabytes.

* `swfilter_step`: what one buffer does, for whatever has been carried into it.
* `chunking_independent`: on an aligned stream the packets that are handed on do not depend on how
  the stream is cut.
-/

namespace TbsMedia
namespace Demux

open Lib

variable {σ : Type*}

/-! ## The code -/

/-- A demux and its carry-over buffer: `tsbuf` and `tsbufp` of `struct dvb_demux`. -/
structure SwFilter (σ : Type*) where
  demux : σ
  tsbuf : Mem UInt8
  tsbufp : ℕ

/-- The packet at `a`. -/
def TsPacket.load (m : Mem UInt8) (a : ℕ) : TsPacket := ⟨m.read a 188, Mem.length_read ..⟩

/-- `buf[pos] == 0x47 || (pktsize == 204 && buf[pos] == 0xB8)`. -/
def isSync (pktsize : ℕ) (b : UInt8) : Bool := b = 0x47 ∨ pktsize = 204 ∧ b = 0xb8

/-- `find_next_packet`, with `count` the length of `buf`. -/
def findNextPacket (buf : List UInt8) (start pktsize : ℕ) : ℕ :=
  let pos := start + (buf.drop start).findIdx (isSync pktsize)
  let lost := pos - start
  if lost ≠ 0 ∧ pktsize ≤ pos ∧ isSync pktsize (buf.getD (pos - pktsize) 0) then pos - pktsize
  else pos

/-- The `while (1)` loop of `_dvb_dmx_swfilter`: where its cursor ends, and the state then.  Every
round but the last moves the cursor forward, so `count + 1` rounds are enough. -/
def swfilterLoop (handle : σ → TsPacket → σ) (buf : List UInt8) (pktsize : ℕ) :
    ℕ → ℕ → SwFilter σ → ℕ × SwFilter σ
  | 0, p, s => (p, s)
  | fuel + 1, p, s =>
    let p := findNextPacket buf p pktsize
    if p ≥ buf.length then (p, s)
    else if buf.length - p < pktsize then (p, s)
    else
      let q := TsPacket.load (Mem.ofList 0 buf) p
      if pktsize = 204 ∧ q 0 = 0xb8 then
        let tsbuf := (s.tsbuf.write 0 q.bytes).write 0 [0x47]
        swfilterLoop handle buf pktsize fuel (p + pktsize)
          { s with demux := handle s.demux (TsPacket.load tsbuf 0), tsbuf }
      else
        swfilterLoop handle buf pktsize fuel (p + pktsize) { s with demux := handle s.demux q }

/-- The end of `_dvb_dmx_swfilter`: carry over what is left from `p` on. -/
def carryOver (buf : List UInt8) (pktsize p : ℕ) (s : SwFilter σ) : SwFilter σ :=
  let i := buf.length - p
  if i ≠ 0 then
    let tsbuf := s.tsbuf.write 0 (buf.drop p)
    let tsbuf := if pktsize = 204 ∧ tsbuf 0 = 0xb8 then tsbuf.write 0 [0x47] else tsbuf
    { s with tsbuf, tsbufp := i }
  else s

/-- `_dvb_dmx_swfilter` from the `while (1)` loop on. -/
def swfilterFrom (handle : σ → TsPacket → σ) (buf : List UInt8) (pktsize p : ℕ)
    (s : SwFilter σ) : SwFilter σ :=
  let r := swfilterLoop handle buf pktsize (buf.length + 1) p s
  carryOver buf pktsize r.1 r.2

/-- `_dvb_dmx_swfilter`. -/
def dvbDmxSwfilterSized (handle : σ → TsPacket → σ) (pktsize : ℕ) (s : SwFilter σ)
    (buf : List UInt8) : SwFilter σ :=
  if s.tsbufp ≠ 0 then
    let i := s.tsbufp
    let j := pktsize - i
    if buf.length < j then
      { s with tsbuf := s.tsbuf.write i buf, tsbufp := s.tsbufp + buf.length }
    else
      let tsbuf := s.tsbuf.write i (buf.take j)
      let demux := if tsbuf 0 = 0x47 then handle s.demux (TsPacket.load tsbuf 0) else s.demux
      swfilterFrom handle buf pktsize j ⟨demux, tsbuf, 0⟩
  else swfilterFrom handle buf pktsize 0 s

/-- `dvb_dmx_swfilter`. -/
def dvbDmxSwfilter (handle : σ → TsPacket → σ) : SwFilter σ → List UInt8 → SwFilter σ :=
  dvbDmxSwfilterSized handle 188

/-- `dvb_dmx_swfilter_204`. -/
def dvbDmxSwfilter204 (handle : σ → TsPacket → σ) : SwFilter σ → List UInt8 → SwFilter σ :=
  dvbDmxSwfilterSized handle 204

/-! ## Aligned streams -/

/-- A packet of an aligned stream. -/
structure Aligned (pktsize : ℕ) (pkt : List UInt8) : Prop where
  length : pkt.length = pktsize
  sync : ∀ b ∈ pkt.head?, isSync pktsize b

/-- The bytes of a packet with the sync byte that the demux expects. -/
def fixSync : List UInt8 → List UInt8
  | [] => []
  | b :: bs => (if b = 0xb8 then 0x47 else b) :: bs

/-- What the demux is to get of a packet: its first 188 bytes. -/
def demuxBytes (pkt : List UInt8) : List UInt8 := (fixSync pkt).take 188

/-- The beginning of a packet that is not complete. -/
def Fragment (pktsize : ℕ) (part : List UInt8) : Prop :=
  ∃ rest, rest ≠ [] ∧ Aligned pktsize (part ++ rest)

@[simp] theorem length_fixSync (pkt : List UInt8) : (fixSync pkt).length = pkt.length := by
  cases pkt <;> rfl

theorem fixSync_append {xs : List UInt8} (h : xs ≠ []) (ys : List UInt8) :
    fixSync (xs ++ ys) = fixSync xs ++ ys := by
  obtain ⟨b, bs, rfl⟩ := List.exists_cons_of_ne_nil h
  rfl

theorem Fragment.length_lt {pktsize : ℕ} {part : List UInt8} (h : Fragment pktsize part) :
    part.length < pktsize := by
  obtain ⟨rest, hne, hal⟩ := h
  have hlen := hal.length
  rw [List.length_append] at hlen
  have hpos := List.length_pos_of_ne_nil hne
  omega

theorem Fragment.sync {pktsize : ℕ} {part : List UInt8} (h : Fragment pktsize part) :
    ∀ b ∈ part.head?, isSync pktsize b := by
  obtain ⟨rest, _, hal⟩ := h
  cases part with
  | nil => exact fun b hb => nomatch hb
  | cons c bs => exact hal.sync

theorem length_flatten_aligned {pktsize : ℕ} {ps : List (List UInt8)}
    (h : ∀ pkt ∈ ps, Aligned pktsize pkt) : ps.flatten.length = ps.length * pktsize := by
  induction ps with
  | nil => exact (Nat.zero_mul _).symm
  | cons pkt ps ih =>
    rw [List.flatten_cons, List.length_append, (h pkt (List.mem_cons_self ..)).length,
      ih fun q hq => h q (List.mem_cons_of_mem _ hq), List.length_cons, Nat.succ_mul, Nat.add_comm]

theorem fixSync_take {pkt : List UInt8} {n : ℕ} (h : n ≠ 0) :
    fixSync (pkt.take n) = (fixSync pkt).take n := by
  obtain ⟨n, rfl⟩ := Nat.exists_eq_succ_of_ne_zero h
  cases pkt <;> rfl

/-- Writing a packet, and `0x47` over a sync byte `0xB8`, writes the packet with its sync byte
fixed. -/
theorem write_fixSync {pktsize : ℕ} {xs : List UInt8} (hne : xs ≠ [])
    (hsync : ∀ b ∈ xs.head?, isSync pktsize b) (m : Mem UInt8) :
    (if pktsize = 204 ∧ m.write 0 xs 0 = 0xb8 then (m.write 0 xs).write 0 [0x47]
      else m.write 0 xs) = m.write 0 (fixSync xs) := by
  obtain ⟨b, bs, rfl⟩ := List.exists_cons_of_ne_nil hne
  have hb : m.write 0 (b :: bs) 0 = b := rfl
  have hs : b = 0x47 ∨ pktsize = 204 ∧ b = 0xb8 := by simpa [isSync] using hsync b rfl
  rw [hb]
  split_ifs with h
  · rw [Mem.write_write_cons, fixSync, if_pos h.2]
  · rw [fixSync, if_neg fun hb8 => ?_]
    rcases hs with rfl | hs
    · exact absurd hb8 (by decide)
    · exact h hs

/-! ## One buffer -/

section Buffer

variable (handle : σ → TsPacket → σ) {pktsize : ℕ}

/-- In front of a sync byte, or at the end, nothing is skipped. -/
theorem findNextPacket_eq_self {buf : List UInt8} {p : ℕ}
    (h : ∀ b ∈ (buf.drop p).head?, isSync pktsize b) : findNextPacket buf p pktsize = p := by
  have hzero : (buf.drop p).findIdx (isSync pktsize) = 0 := by
    rcases hdrop : buf.drop p with _ | ⟨b, bs⟩
    · rfl
    · rw [hdrop] at h
      rw [List.findIdx_cons, h b rfl]
      rfl
  unfold findNextPacket
  rw [hzero]
  simp

/-- The packets `out` carry what the demux is to get of `ps`. -/
def Carries (out : List TsPacket) (ps : List (List UInt8)) : Prop :=
  out.map TsPacket.bytes = ps.map demuxBytes

theorem Carries.nil : Carries [] [] := rfl

theorem Carries.append {out out' : List TsPacket} {ps ps' : List (List UInt8)}
    (h : Carries out ps) (h' : Carries out' ps') : Carries (out ++ out') (ps ++ ps') := by
  unfold Carries at *
  rw [List.map_append, List.map_append, h, h']

/-- A buffer that holds a packet at its start, with the sync byte fixed, carries it. -/
theorem carries_load {pkt : List UInt8} {m : Mem UInt8}
    (h : m.read 0 188 = (fixSync pkt).take 188) : Carries [TsPacket.load m 0] [pkt] :=
  congrArg (fun bs => [bs]) h

/-- What a round of the loop hands on, from a packet that begins at `p`. -/
theorem load_carries (hsize : 188 ≤ pktsize) {buf pkt rest : List UInt8} {p : ℕ}
    (hal : Aligned pktsize pkt) (hbuf : buf.drop p = pkt ++ rest) (tsbuf : Mem UInt8) :
    let q := TsPacket.load (Mem.ofList 0 buf) p
    if pktsize = 204 ∧ q 0 = 0xb8 then
      Carries [TsPacket.load ((tsbuf.write 0 q.bytes).write 0 [0x47]) 0] [pkt]
    else Carries [q] [pkt] := by
  intro q
  have hlen := hal.length
  have hbytes : q.bytes = pkt.take 188 := by
    have hdrop := congrArg List.length hbuf
    rw [List.length_drop, List.length_append] at hdrop
    change (Mem.ofList 0 buf).read p 188 = _
    rw [Mem.read_ofList _ (by omega), hbuf, List.take_append_of_le_length (by omega)]
  have hne : q.bytes ≠ [] := List.ne_nil_of_length_pos (by rw [q.length_bytes]; decide)
  have hsync : ∀ b ∈ q.bytes.head?, isSync pktsize b := by
    rw [hbytes]
    intro b hb
    exact hal.sync b (by cases pkt <;> exact hb)
  have hq0 : tsbuf.write 0 q.bytes 0 = q 0 := by
    obtain ⟨b, bs, hq⟩ := List.exists_cons_of_ne_nil hne
    show tsbuf.write 0 q.bytes 0 = q.bytes.getD 0 0
    rw [hq]
    rfl
  have hfix := write_fixSync hne hsync tsbuf
  rw [hq0] at hfix
  have hread : (tsbuf.write 0 (fixSync q.bytes)).read 0 188 = (fixSync pkt).take 188 := by
    have hlen' : (fixSync q.bytes).length = 188 := by rw [length_fixSync, q.length_bytes]
    rw [← fixSync_take (by decide), ← hbytes]
    exact hlen' ▸ Mem.read_write_self tsbuf 0 (fixSync q.bytes)
  split_ifs with h
  · rw [if_pos h] at hfix
    rw [hfix]
    exact carries_load hread
  · rw [if_neg h] at hfix
    rw [← hfix] at hread
    have hself := Mem.read_write_self tsbuf 0 q.bytes
    rw [q.length_bytes, hread] at hself
    exact congrArg (fun bs => [bs]) hself.symm

/-- **The loop** hands on the packets in front of it and stops at the first one that is not
complete. -/
theorem swfilterLoop_packets (hsize : 188 ≤ pktsize) {buf part : List UInt8}
    (hpart : Fragment pktsize part) (ps : List (List UInt8)) :
    ∀ (fuel p : ℕ) (s : SwFilter σ), (∀ pkt ∈ ps, Aligned pktsize pkt) → p ≤ buf.length →
      buf.drop p = ps.flatten ++ part → ps.length < fuel →
      ∃ out tsbuf, Carries out ps ∧ swfilterLoop handle buf pktsize fuel p s =
        (buf.length - part.length, { s with demux := out.foldl handle s.demux, tsbuf }) := by
  induction ps with
  | nil =>
    intro fuel p s _ hp hbuf hfuel
    rw [List.flatten_nil, List.nil_append] at hbuf
    obtain ⟨fuel, rfl⟩ : ∃ k, fuel = k + 1 := ⟨fuel - 1, by omega⟩
    have hlen := congrArg List.length hbuf
    rw [List.length_drop] at hlen
    have hlt := hpart.length_lt
    refine ⟨[], s.tsbuf, Carries.nil, ?_⟩
    rw [swfilterLoop, findNextPacket_eq_self (by rw [hbuf]; exact hpart.sync)]
    have hp' : p = buf.length - part.length := by omega
    dsimp only
    split_ifs
    · rw [hp']
      rfl
    · rw [hp']
      rfl
    · omega
    · omega
  | cons pkt ps ih =>
    intro fuel p s hal hp hbuf hfuel
    rw [List.flatten_cons, List.append_assoc] at hbuf
    rw [List.length_cons] at hfuel
    obtain ⟨fuel, rfl⟩ : ∃ k, fuel = k + 1 := ⟨fuel - 1, by omega⟩
    have hpkt := hal pkt (List.mem_cons_self ..)
    have hpktlen := hpkt.length
    have hlen := congrArg List.length hbuf
    rw [List.length_drop, List.length_append] at hlen
    have hsync : ∀ b ∈ (buf.drop p).head?, isSync pktsize b := by
      rw [hbuf]
      intro b hb
      refine hpkt.sync b ?_
      cases pkt with
      | nil => exact absurd hpktlen (by rw [List.length_nil]; omega)
      | cons c bs => exact hb
    have hrest : buf.drop (p + pktsize) = ps.flatten ++ part := by
      rw [← List.drop_drop, hbuf, List.drop_left' hpktlen]
    have hnext : ∀ s' : SwFilter σ, ∃ out tsbuf, Carries out ps ∧
        swfilterLoop handle buf pktsize fuel (p + pktsize) s' =
          (buf.length - part.length, { s' with demux := out.foldl handle s'.demux, tsbuf }) :=
      fun s' => ih fuel _ s' (fun q hq => hal q (List.mem_cons_of_mem _ hq)) (by omega) hrest
        (by omega)
    have hcar := load_carries hsize hpkt hbuf s.tsbuf
    rw [swfilterLoop, findNextPacket_eq_self hsync]
    dsimp only at hcar ⊢
    rw [if_neg (by omega), if_neg (by omega)]
    split_ifs at hcar ⊢
    all_goals
      obtain ⟨out, tsbuf, hout, hloop⟩ := hnext _
      refine ⟨_ :: out, tsbuf, hcar.append hout, ?_⟩
      rw [hloop]
      rfl

/-- What has been carried over is `part`, with its sync byte fixed. -/
structure Carried (s : SwFilter σ) (part : List UInt8) : Prop where
  tsbufp : s.tsbufp = part.length
  tsbuf : s.tsbuf.read 0 part.length = fixSync part

/-- From `p` on the buffer is handed on packet by packet, and the rest of it is carried over. -/
theorem swfilterFrom_packets (hsize : 188 ≤ pktsize) {buf part : List UInt8} {p : ℕ}
    {s : SwFilter σ} {ps : List (List UInt8)} (hpart : Fragment pktsize part)
    (hal : ∀ pkt ∈ ps, Aligned pktsize pkt) (hp : p ≤ buf.length)
    (hbuf : buf.drop p = ps.flatten ++ part) (hs : s.tsbufp = 0) :
    ∃ out, Carries out ps ∧
      (swfilterFrom handle buf pktsize p s).demux = out.foldl handle s.demux ∧
      Carried (swfilterFrom handle buf pktsize p s) part := by
  have hlen := congrArg List.length hbuf
  rw [List.length_drop, List.length_append] at hlen
  have hrounds : ps.length ≤ ps.flatten.length := by
    rw [length_flatten_aligned hal]
    exact Nat.le_mul_of_pos_right _ (by omega)
  obtain ⟨out, tsbuf, hout, hloop⟩ := swfilterLoop_packets handle hsize hpart ps (buf.length + 1) p
    s hal hp hbuf (by omega)
  have hi : buf.length - (buf.length - part.length) = part.length := by omega
  have hdrop : buf.drop (buf.length - part.length) = part := by
    rw [show buf.length - part.length = p + ps.flatten.length by omega, ← List.drop_drop, hbuf,
      List.drop_left]
  refine ⟨out, hout, ?_⟩
  unfold swfilterFrom carryOver
  rw [hloop]
  dsimp only
  rw [hi, hdrop]
  by_cases hnil : part = []
  · subst hnil
    rw [if_neg (by simp)]
    exact ⟨rfl, hs, rfl⟩
  · have hpos := List.length_pos_of_ne_nil hnil
    rw [if_pos (by omega), write_fixSync hnil hpart.sync]
    refine ⟨rfl, rfl, ?_⟩
    have hself := Mem.read_write_self tsbuf 0 (fixSync part)
    rwa [length_fixSync] at hself

/-- **One buffer**: together with what has been carried into it, it is packets and the beginning of
another one, and that is what it does. -/
theorem swfilter_step (hsize : 188 ≤ pktsize) {s : SwFilter σ} {buf part part' : List UInt8}
    {ps : List (List UInt8)} (hc : Carried s part) (hpart : Fragment pktsize part)
    (hpart' : Fragment pktsize part') (hal : ∀ pkt ∈ ps, Aligned pktsize pkt)
    (hsplit : part ++ buf = ps.flatten ++ part') :
    ∃ out, Carries out ps ∧
      (dvbDmxSwfilterSized handle pktsize s buf).demux = out.foldl handle s.demux ∧
      Carried (dvbDmxSwfilterSized handle pktsize s buf) part' := by
  have hts := hc.tsbufp
  have hlt := hpart.length_lt
  have hlt' := hpart'.length_lt
  have hlen := congrArg List.length hsplit
  rw [List.length_append, List.length_append, length_flatten_aligned hal] at hlen
  unfold dvbDmxSwfilterSized
  by_cases hnil : part = []
  · subst hnil
    rw [if_neg (by rw [hts]; simp)]
    exact swfilterFrom_packets handle hsize hpart' hal (Nat.zero_le _) hsplit hts
  · have hpos := List.length_pos_of_ne_nil hnil
    rw [if_pos (by omega)]
    dsimp only
    rw [hts]
    by_cases hfew : buf.length < pktsize - part.length
    · -- the packet does not end in this buffer
      obtain rfl : ps = [] := by
        rcases ps with _ | ⟨pkt, ps⟩
        · rfl
        · rw [List.length_cons, Nat.succ_mul] at hlen
          omega
      rw [List.flatten_nil, List.nil_append] at hsplit
      rw [if_pos hfew]
      refine ⟨[], Carries.nil, rfl, ?_, ?_⟩
      · rw [← hsplit, List.length_append]
      · rw [← hsplit, fixSync_append hnil, List.length_append,
          Mem.read_write_append _ _ (Nat.zero_add _), hc.tsbuf]
    · rw [if_neg hfew]
      rcases ps with _ | ⟨pkt, ps⟩
      · rw [List.length_nil, Nat.zero_mul] at hlen
        omega
      · have hpkt := hal pkt (List.mem_cons_self ..)
        have hpktlen := hpkt.length
        rw [List.flatten_cons, List.append_assoc] at hsplit
        have hcut : pkt = part ++ buf.take (pktsize - part.length) := by
          have htake := congrArg (List.take pktsize) hsplit
          rw [List.take_left' hpktlen, List.take_append, List.take_of_length_le (by omega)] at htake
          exact htake.symm
        have hrest : buf.drop (pktsize - part.length) = ps.flatten ++ part' := by
          have hdrop := congrArg (List.drop pktsize) hsplit
          rw [List.drop_left' hpktlen, List.drop_append, List.drop_of_length_le (by omega),
            List.nil_append] at hdrop
          exact hdrop
        have htake : (buf.take (pktsize - part.length)).length = pktsize - part.length := by
          rw [List.length_take]
          omega
        have hread : (s.tsbuf.write part.length (buf.take (pktsize - part.length))).read 0 pktsize =
            fixSync pkt := by
          have happ := Mem.read_write_append s.tsbuf (buf.take (pktsize - part.length))
            (Nat.zero_add part.length)
          rw [hc.tsbuf, htake, ← fixSync_append hnil, ← hcut] at happ
          rwa [show part.length + (pktsize - part.length) = pktsize by omega] at happ
        have h0 : s.tsbuf.write part.length (buf.take (pktsize - part.length)) 0 = 0x47 := by
          obtain ⟨b, bs, hb⟩ := List.exists_cons_of_ne_nil
            (show pkt ≠ [] from fun h => by rw [h, List.length_nil] at hpktlen; omega)
          have hs : b = 0x47 ∨ pktsize = 204 ∧ b = 0xb8 := by
            simpa [isSync] using hpkt.sync b (by rw [hb]; rfl)
          have hcell := Mem.apply_of_read_eq hread (i := 0) (by rw [length_fixSync]; omega)
          rw [Nat.zero_add] at hcell
          rw [hcell]
          simp only [hb, fixSync, List.getElem_cons_zero]
          split_ifs with h8
          · rfl
          · rcases hs with rfl | hs
            · rfl
            · exact absurd hs.2 h8
        rw [if_pos h0]
        obtain ⟨out, hout, hdemux, hcar⟩ := swfilterFrom_packets handle hsize
          (s := ⟨handle s.demux (TsPacket.load (s.tsbuf.write part.length
            (buf.take (pktsize - part.length))) 0), _, 0⟩) hpart'
          (fun q hq => hal q (List.mem_cons_of_mem _ hq)) (by omega) hrest rfl
        refine ⟨_ :: out, (carries_load ?_).append hout, hdemux, hcar⟩
        rw [← hread, Mem.take_read _ hsize]

end Buffer

/-! ## All buffers -/

theorem fragment_nil {pktsize : ℕ} (h : 0 < pktsize) : Fragment pktsize [] := by
  obtain ⟨n, rfl⟩ := Nat.exists_eq_succ_of_ne_zero (Nat.pos_iff_ne_zero.mp h)
  refine ⟨0x47 :: List.replicate n 0, List.cons_ne_nil _ _, ?_, ?_⟩
  · simp
  · intro b hb
    obtain rfl : 0x47 = b := Option.some.inj hb
    rfl

/-- A stream that is cut anywhere is packets, and a fragment, in front of the cut. -/
theorem exists_cut {pktsize : ℕ} {ps : List (List UInt8)} {part : List UInt8}
    (hpart : Fragment pktsize part) (hal : ∀ pkt ∈ ps, Aligned pktsize pkt) (xs ys : List UInt8)
    (h : xs ++ ys = ps.flatten ++ part) :
    ∃ ps₁ ps₂ part₁, ps = ps₁ ++ ps₂ ∧ Fragment pktsize part₁ ∧ xs = ps₁.flatten ++ part₁ ∧
      part₁ ++ ys = ps₂.flatten ++ part := by
  induction ps generalizing xs with
  | nil =>
    refine ⟨[], [], xs, rfl, ?_, rfl, h⟩
    obtain ⟨rest, hne, hrest⟩ := hpart
    refine ⟨ys ++ rest, by simp [hne], ?_⟩
    rwa [← List.append_assoc, h]
  | cons pkt ps ih =>
    have hpkt := hal pkt (List.mem_cons_self ..)
    rcases Nat.lt_or_ge xs.length pkt.length with hlt | hge
    · -- the cut is inside the first packet
      refine ⟨[], pkt :: ps, xs, rfl, ⟨pkt.drop xs.length, ?_, ?_⟩, rfl, h⟩
      · exact List.ne_nil_of_length_pos (by rw [List.length_drop]; omega)
      · have hxs := congrArg (List.take xs.length) h
        rw [List.take_left, List.flatten_cons, List.append_assoc,
          List.take_append_of_le_length (Nat.le_of_lt hlt)] at hxs
        rw [show xs ++ pkt.drop xs.length = pkt.take xs.length ++ pkt.drop xs.length by rw [← hxs],
          List.take_append_drop]
        exact hpkt
    · rw [List.flatten_cons, List.append_assoc] at h
      obtain ⟨xs', rfl⟩ : ∃ xs', xs = pkt ++ xs' := by
        refine ⟨xs.drop pkt.length, ?_⟩
        have htake := congrArg (List.take pkt.length) h
        rw [List.take_left, List.take_append_of_le_length hge] at htake
        conv_lhs => rw [← List.take_append_drop pkt.length xs, htake]
      rw [List.append_assoc] at h
      obtain ⟨ps₁, ps₂, part₁, rfl, hpart₁, rfl, hrest⟩ :=
        ih (fun q hq => hal q (List.mem_cons_of_mem _ hq)) xs' (List.append_cancel_left h)
      exact ⟨pkt :: ps₁, ps₂, part₁, rfl, hpart₁, by rw [List.flatten_cons, List.append_assoc],
        hrest⟩

/-- What any number of buffers do, for whatever has been carried into the first one. -/
theorem swfilter_run (handle : σ → TsPacket → σ) {pktsize : ℕ} (hsize : 188 ≤ pktsize)
    (bufs : List (List UInt8)) :
    ∀ (s : SwFilter σ) (ps : List (List UInt8)) (part part' : List UInt8), Carried s part →
      Fragment pktsize part → Fragment pktsize part' → (∀ pkt ∈ ps, Aligned pktsize pkt) →
      part ++ bufs.flatten = ps.flatten ++ part' →
      ∃ out, Carries out ps ∧ (bufs.foldl (dvbDmxSwfilterSized handle pktsize) s).demux =
        out.foldl handle s.demux := by
  induction bufs with
  | nil =>
    intro s ps part part' hc hpart hpart' hal h
    obtain rfl : ps = [] := by
      rcases ps with _ | ⟨pkt, ps⟩
      · rfl
      · have hlen := congrArg List.length h
        have hlt := hpart.length_lt
        rw [List.flatten_nil, List.append_nil, List.length_append, List.flatten_cons,
          List.length_append, (hal pkt (List.mem_cons_self ..)).length] at hlen
        omega
    exact ⟨[], Carries.nil, rfl⟩
  | cons buf bufs ih =>
    intro s ps part part' hc hpart hpart' hal h
    rw [List.flatten_cons, ← List.append_assoc] at h
    obtain ⟨ps₁, ps₂, part₁, rfl, hpart₁, hcut, hrest⟩ := exists_cut hpart' hal _ _ h
    obtain ⟨out₁, hout₁, hdemux, hcar⟩ := swfilter_step handle hsize hc hpart hpart₁
      (fun q hq => hal q (List.mem_append_left _ hq)) hcut
    obtain ⟨out₂, hout₂, hdemux₂⟩ := ih (dvbDmxSwfilterSized handle pktsize s buf) ps₂ part₁ part'
      hcar hpart₁ hpart' (fun q hq => hal q (List.mem_append_right _ hq)) hrest
    refine ⟨out₁ ++ out₂, hout₁.append hout₂, ?_⟩
    rw [List.foldl_cons, hdemux₂, hdemux, List.foldl_append]

/-- The buffers hand on the packets that they complete. -/
theorem swfilter_complete (handle : σ → TsPacket → σ) {pktsize : ℕ} (hsize : 188 ≤ pktsize)
    {s : SwFilter σ} (hs : s.tsbufp = 0) {stream : List (List UInt8)}
    (hal : ∀ pkt ∈ stream, Aligned pktsize pkt) {bufs : List (List UInt8)}
    (hcut : bufs.flatten <+: stream.flatten) :
    ∃ out, Carries out (stream.take (bufs.flatten.length / pktsize)) ∧
      (bufs.foldl (dvbDmxSwfilterSized handle pktsize) s).demux = out.foldl handle s.demux := by
  obtain ⟨ys, hys⟩ := hcut
  rw [← List.append_nil stream.flatten] at hys
  obtain ⟨ps₁, ps₂, part₁, rfl, hpart₁, hbufs, -⟩ :=
    exists_cut (fragment_nil (by omega)) hal _ _ hys
  have hal₁ : ∀ pkt ∈ ps₁, Aligned pktsize pkt := fun q hq => hal q (List.mem_append_left _ hq)
  have hcount : bufs.flatten.length / pktsize = ps₁.length := by
    rw [hbufs, List.length_append, length_flatten_aligned hal₁, Nat.mul_comm,
      Nat.mul_add_div (by omega), Nat.div_eq_of_lt hpart₁.length_lt, Nat.add_zero]
  rw [hcount, List.take_left]
  exact swfilter_run handle hsize bufs s ps₁ [] part₁ ⟨hs, rfl⟩ (fragment_nil (by omega)) hpart₁ hal₁
    hbufs

/-- **The packets do not depend on how the stream is cut.**  Of an aligned stream, every complete
packet is handed on once and in order, for 188 as for 204 bytes a packet. -/
theorem chunking_independent (handle : σ → TsPacket → σ) (s : SwFilter σ) (hs : s.tsbufp = 0)
    (stream bufs : List (List UInt8)) (hcut : bufs.flatten <+: stream.flatten) :
    ((∀ pkt ∈ stream, Aligned 188 pkt) →
      ∃ out : List TsPacket, out.map TsPacket.bytes = (stream.take (bufs.flatten.length / 188)).map demuxBytes ∧
        (bufs.foldl (dvbDmxSwfilter handle) s).demux = out.foldl handle s.demux) ∧
    ((∀ pkt ∈ stream, Aligned 204 pkt) →
      ∃ out : List TsPacket, out.map TsPacket.bytes = (stream.take (bufs.flatten.length / 204)).map demuxBytes ∧
        (bufs.foldl (dvbDmxSwfilter204 handle) s).demux = out.foldl handle s.demux) :=
  ⟨fun hal => swfilter_complete handle (by decide) hs hal hcut,
    fun hal => swfilter_complete handle (by decide) hs hal hcut⟩

/-- Three packets of 204 bytes, the second one behind an inverted sync byte. -/
def plainStream : List (List UInt8) :=
  [0x47 :: List.replicate 203 1, 0xb8 :: List.replicate 203 2, 0x47 :: List.replicate 203 3]

/-- The stream in three buffers, the second one empty and the first cut inside the second packet. -/
def plainBufs : List (List UInt8) :=
  [plainStream.flatten.take 205, [], plainStream.flatten.drop 205]

theorem aligned_plainStream : ∀ pkt ∈ plainStream, Aligned 204 pkt := by
  intro pkt hpkt
  simp only [plainStream, List.mem_cons, List.not_mem_nil, or_false] at hpkt
  rcases hpkt with rfl | rfl | rfl
  all_goals
    exact ⟨by rw [List.length_cons, List.length_replicate],
      fun b hb => by obtain rfl := Option.some.inj hb; decide⟩

theorem chunking_independent_plain :
    ∃ out : List TsPacket, out.map TsPacket.bytes =
        [0x47 :: List.replicate 187 1, 0x47 :: List.replicate 187 2, 0x47 :: List.replicate 187 3] ∧
      (plainBufs.foldl (dvbDmxSwfilter204 fun packets buf => packets ++ [buf])
        ⟨[], fun _ => 0, 0⟩).demux = out.foldl (fun packets buf => packets ++ [buf]) [] := by
  obtain ⟨out, hout, hdemux⟩ := (chunking_independent (fun packets buf => packets ++ [buf])
    ⟨[], fun _ => 0, 0⟩ rfl plainStream plainBufs ⟨[], by decide +kernel⟩).2 aligned_plainStream
  exact ⟨out, hout.trans (by decide +kernel), hdemux⟩

end Demux
end TbsMedia
