import TbsMedia.Tbsecp3.Dma
import Mathlib.Tactic.Ring

/-!
# Every packet once

The card writes an endless stream of packets into the ring, and the tasklet runs now and then.  What
it hands to the demux are the packets of the buffers that the card has left, up to two buffers behind
the card: the packets of buffer `B` of the stream are those that begin in it, and the card has come
past the end of the last one as soon as it has left the buffer behind.

* `handleBuffer_spec`: what one buffer gives.
* `handleBuffers_spec`: what one run gives.
* `dma_contiguous`: what all runs give, one after the other, from the buffer on that the card had left
  at the second run.
-/

namespace TbsMedia
namespace Tbsecp3

open Lib

variable {stream : ℕ → UInt8} {o : ℕ} {old : Mem UInt8} {dma : Tbsecp3DmaChannel} {B c : ℕ}

/-! ## The stream -/

/-- Packet `n` of a stream with its first sync byte at `o`. -/
def packet (stream : ℕ → UInt8) (o n : ℕ) : List UInt8 :=
  (List.range TS_PACKET_SIZE).map fun t => stream (o + n * TS_PACKET_SIZE + t)

theorem head?_packet (stream : ℕ → UInt8) (o n : ℕ) :
    (packet stream o n).head? = some (stream (o + n * TS_PACKET_SIZE)) := by
  unfold packet
  rw [List.head?_map, show (List.range TS_PACKET_SIZE).head? = some 0 from rfl]
  rfl

/-- The packets that begin in buffer `B` of the stream. -/
def bufferPackets (stream : ℕ → UInt8) (o pkts B : ℕ) : List (List UInt8) :=
  (List.range pkts).map fun j => packet stream o (B * pkts + j)

/-- The packets of `m` buffers from `B` on. -/
def packetsFrom (stream : ℕ → UInt8) (o pkts B m : ℕ) : List (List UInt8) :=
  (List.range (m * pkts)).map fun j => packet stream o (B * pkts + j)

theorem packetsFrom_zero (stream : ℕ → UInt8) (o pkts B : ℕ) : packetsFrom stream o pkts B 0 = [] := by
  unfold packetsFrom
  rw [Nat.zero_mul]
  rfl

theorem packetsFrom_one (stream : ℕ → UInt8) (o pkts B : ℕ) :
    packetsFrom stream o pkts B 1 = bufferPackets stream o pkts B := by
  unfold packetsFrom
  rw [Nat.one_mul]
  rfl

theorem packetsFrom_add (stream : ℕ → UInt8) (o pkts B m m' : ℕ) :
    packetsFrom stream o pkts B m ++ packetsFrom stream o pkts (B + m) m' =
      packetsFrom stream o pkts B (m + m') := by
  unfold packetsFrom
  rw [Nat.add_mul m, List.range_add, List.map_append, List.map_map]
  congr 1
  refine List.map_congr_left fun j _ => ?_
  rw [Function.comp_apply, Nat.add_mul, Nat.add_assoc]

/-- In buffer `B` of the stream there is a byte that the tasklet would take for the first sync byte
although it is none. -/
def FalseSync (stream : ℕ → UInt8) (o size B : ℕ) : Prop :=
  o ≠ 0 ∧ stream (B * size) = 0x47 ∨ ∃ i < o, syncPattern stream (B * size + i) = true

/-! ## One buffer -/

/-- An address in the ring, as a position of the stream. -/
theorem mod_ring {size a : ℕ} (h : B % 16 * size + a < 16 * size) :
    (B * size + a) % (16 * size) = B % 16 * size + a := by
  have hdiv := Nat.div_add_mod B 16
  have hpos : B * size + a = B % 16 * size + a + 16 * size * (B / 16) := by
    conv_lhs => rw [← hdiv]
    rw [Nat.add_mul]
    ring
  rw [hpos, Nat.add_mul_mod_self_left, Nat.mod_eq_of_lt h]

/-- What the ring holds of buffer `B`, and of the one behind it. -/
theorem ring_at {size a : ℕ} (h : B % 16 * size + a < 16 * size) (hlow : B * size + a < c)
    (hhigh : c ≤ (B + 16) * size) :
    cyclic stream old (16 * size) c (B % 16 * size + a) = stream (B * size + a) := by
  rw [← mod_ring h]
  refine cyclic_get stream old hlow ?_
  rw [Nat.add_mul] at hhigh
  omega

/-- The stream is one of packets that begin at `o`, and the buffers take whole packets. -/
structure Framed (stream : ℕ → UInt8) (o : ℕ) (dma : Tbsecp3DmaChannel) : Prop where
  lt : o < TS_PACKET_SIZE
  sync : ∀ n, stream (o + n * TS_PACKET_SIZE) = 0x47
  size : dma.bufferSize = dma.bufferPkts * TS_PACKET_SIZE
  pkts : 16 ≤ dma.bufferPkts

/-- The memory of a buffer that the card has left. -/
theorem mem_at {a : ℕ} (ha : a < dma.bufferSize) (hlow : (B + 1) * dma.bufferSize ≤ c)
    (hhigh : c ≤ (B + 16) * dma.bufferSize) :
    dma.mem (cyclic stream old (16 * dma.bufferSize) c) (dma.buf (B % 16) + a) =
      stream (B * dma.bufferSize + a) := by
  have hlt : B % 16 * dma.bufferSize + a < 16 * dma.bufferSize := by
    have hmul : B % 16 * dma.bufferSize ≤ 15 * dma.bufferSize := Nat.mul_le_mul_right _ (by omega)
    omega
  unfold Tbsecp3DmaChannel.mem Tbsecp3DmaChannel.buf TBSECP3_DMA_BUFFERS
  rw [if_pos hlt]
  refine ring_at hlt ?_ hhigh
  rw [Nat.add_mul, Nat.one_mul] at hlow
  omega

/-- The search finds the first sync byte. -/
theorem syncOffset_eq (hframe : Framed stream o dma) (hlow : (B + 1) * dma.bufferSize ≤ c)
    (hhigh : c ≤ (B + 16) * dma.bufferSize)
    (hoffset : dma.offset = o ∨ dma.offset = 0 ∧ ¬ FalseSync stream o dma.bufferSize B) :
    syncOffset (dma.mem (cyclic stream old (16 * dma.bufferSize) c)) (dma.buf (B % 16)) dma.offset =
      o := by
  obtain ⟨ho, hsync, hsize, hpkts⟩ := hframe
  unfold TS_PACKET_SIZE at *
  have hmem : ∀ a < dma.bufferSize,
      dma.mem (cyclic stream old (16 * dma.bufferSize) c) (dma.buf (B % 16) + a) =
        stream (B * dma.bufferSize + a) := fun a ha => mem_at ha hlow hhigh
  have hstart : ∀ j, stream (B * dma.bufferSize + (o + j * 188)) = 0x47 := by
    intro j
    rw [← hsync (B * dma.bufferPkts + j), hsize]
    congr 1
    ring
  have hpattern : ∀ i < 188,
      syncPattern (dma.mem (cyclic stream old (16 * dma.bufferSize) c)) (dma.buf (B % 16) + i) =
        syncPattern stream (B * dma.bufferSize + i) := by
    intro i hi
    have hbehind : ∀ k ≤ 4 * 188,
        dma.mem (cyclic stream old (16 * dma.bufferSize) c) (dma.buf (B % 16) + i + k) =
          stream (B * dma.bufferSize + i + k) := by
      intro k hk
      rw [Nat.add_assoc, hmem (i + k) (by omega), Nat.add_assoc]
    unfold syncPattern TS_PACKET_SIZE
    rw [hmem i (by omega), hbehind 188 (by decide), hbehind (2 * 188) (by decide),
      hbehind (4 * 188) (by decide)]
  have hfound : dma.mem (cyclic stream old (16 * dma.bufferSize) c) (dma.buf (B % 16) + o) = 0x47 := by
    rw [hmem o (by omega)]
    exact hstart 0
  unfold syncOffset
  rcases hoffset with hoff | ⟨hzero, hno⟩
  · rw [hoff, if_neg (not_not.mpr hfound)]
  · rw [hzero]
    by_cases hz : o = 0
    · subst hz
      rw [if_neg (not_not.mpr hfound)]
    · have hfirst : stream (B * dma.bufferSize) ≠ 0x47 := fun h => hno (Or.inl ⟨hz, h⟩)
      rw [if_pos (by rw [hmem 0 (by omega)]; exact hfirst)]
      have hfind : (List.range TS_PACKET_SIZE).find? (fun i =>
          syncPattern (dma.mem (cyclic stream old (16 * dma.bufferSize) c))
            (dma.buf (B % 16) + i)) = some o := by
        rw [List.find?_range_eq_some]
        refine ⟨?_, List.mem_range.mpr ho, fun i hi => ?_⟩
        · rw [hpattern o ho]
          unfold syncPattern TS_PACKET_SIZE
          rw [Nat.add_assoc, Nat.add_assoc, Nat.add_assoc]
          exact decide_eq_true ⟨hstart 0, hstart 1, hstart 2, hstart 4⟩
        · rw [hpattern i (by omega)]
          have hfalse : ¬ syncPattern stream (B * dma.bufferSize + i) = true :=
            fun h => hno (Or.inr ⟨i, hi, h⟩)
          rw [(Bool.not_eq_true _).mp hfalse]
          rfl
      rw [hfind]
      rfl

/-- What the tasklet reads as the packets of buffer `B`, once it has copied what the last one of them
has in the first buffer of the ring. -/
theorem packets_at {a : ℕ} (ha : a < dma.bufferSize + o) (hsize : o ≤ dma.bufferSize)
    (hlow : (B + 1) * dma.bufferSize + o ≤ c) (hhigh : c ≤ (B + 16) * dma.bufferSize)
    (htail : B % 16 = 15 → ∀ t < o,
      dma.tail t = cyclic stream old (16 * dma.bufferSize) c t) :
    dma.mem (cyclic stream old (16 * dma.bufferSize) c) (dma.buf (B % 16) + a) =
      stream (B * dma.bufferSize + a) := by
  have hnext : (B + 1) * dma.bufferSize = B * dma.bufferSize + dma.bufferSize := Nat.succ_mul ..
  by_cases hlt : B % 16 * dma.bufferSize + a < 16 * dma.bufferSize
  · unfold Tbsecp3DmaChannel.mem Tbsecp3DmaChannel.buf TBSECP3_DMA_BUFFERS
    rw [if_pos hlt]
    exact ring_at hlt (by omega) hhigh
  · have hlast : B % 16 = 15 := by
      by_contra hne
      have hmul : B % 16 * dma.bufferSize ≤ 14 * dma.bufferSize :=
        Nat.mul_le_mul_right _ (by omega)
      omega
    obtain ⟨t, rfl⟩ : ∃ t, a = dma.bufferSize + t := ⟨a - dma.bufferSize, by rw [hlast] at hlt; omega⟩
    have hzero : (B + 1) % 16 = 0 := by omega
    have hring : cyclic stream old (16 * dma.bufferSize) c ((B + 1) % 16 * dma.bufferSize + t) =
        stream ((B + 1) * dma.bufferSize + t) :=
      ring_at (by rw [hzero]; omega) (by omega) (by rw [Nat.add_mul] at hhigh ⊢; omega)
    rw [hzero, Nat.zero_mul, Nat.zero_add] at hring
    unfold Tbsecp3DmaChannel.mem Tbsecp3DmaChannel.buf TBSECP3_DMA_BUFFERS
    rw [if_neg hlt, hlast,
      show 15 * dma.bufferSize + (dma.bufferSize + t) - 16 * dma.bufferSize = t by omega,
      htail hlast t (by omega), hring, hnext, Nat.add_assoc]

/-- **One buffer**: its packets are handed on, those of them that end behind the ring included. -/
theorem handleBuffer_spec (hframe : Framed stream o dma) (hlow : (B + 1) * dma.bufferSize + o ≤ c)
    (hhigh : c ≤ (B + 16) * dma.bufferSize)
    (hoffset : dma.offset = o ∨ dma.offset = 0 ∧ ¬ FalseSync stream o dma.bufferSize B) :
    ∃ tail, handleBuffer dma (cyclic stream old (16 * dma.bufferSize) c) (B % 16) =
      { dma with
        offset := o, tail
        given := dma.given ++ bufferPackets stream o dma.bufferPkts B } := by
  obtain ⟨ho, hsync, hsize, hpkts⟩ := id hframe
  have hoff : syncOffset (dma.mem (cyclic stream old (16 * dma.bufferSize) c)) (dma.buf (B % 16))
      dma.offset = o :=
    syncOffset_eq hframe (Nat.le_trans (Nat.le_add_right _ _) hlow) hhigh hoffset
  -- what the view of the memory gives, whatever else has been done to the channel
  have hgiven : ∀ dma' : Tbsecp3DmaChannel, dma'.bufferSize = dma.bufferSize →
      (B % 16 = 15 → ∀ t < o, dma'.tail t = cyclic stream old (16 * dma.bufferSize) c t) →
      ((List.range dma.bufferPkts).map fun j =>
        (dma'.mem (cyclic stream old (16 * dma.bufferSize) c)).read
          (dma.buf (B % 16) + o + j * TS_PACKET_SIZE) TS_PACKET_SIZE) =
        bufferPackets stream o dma.bufferPkts B := by
    intro dma' hsame htail
    refine List.map_congr_left fun j hj => List.map_congr_left fun t ht => ?_
    rw [List.mem_range] at hj ht
    unfold TS_PACKET_SIZE at *
    have hview : dma'.mem (cyclic stream old (16 * dma'.bufferSize) c)
        (dma'.buf (B % 16) + (o + j * 188 + t)) = stream (B * dma'.bufferSize + (o + j * 188 + t)) :=
      packets_at (o := o) (by omega) (by omega) (by rw [hsame]; exact hlow) (by rw [hsame]; exact hhigh)
        (by rw [hsame]; exact htail)
    unfold Tbsecp3DmaChannel.buf at hview ⊢
    rw [hsame] at hview
    rw [show B % 16 * dma.bufferSize + o + j * 188 + t =
      B % 16 * dma.bufferSize + (o + j * 188 + t) by omega, hview, hsize]
    congr 1
    ring
  unfold handleBuffer
  dsimp only
  rw [hoff]
  by_cases htail : o ≠ 0 ∧ B % 16 = TBSECP3_DMA_BUFFERS - 1
  · rw [if_pos htail]
    refine ⟨_, congrArg (fun given => ({ dma with offset := o, tail := _, given } :
      Tbsecp3DmaChannel)) (congrArg (dma.given ++ ·) (hgiven _ rfl fun _ t ht => ?_))⟩
    change ((dma.tail.write 0 (Mem.read _ (0 * dma.bufferSize) o)) t : UInt8) = _
    unfold Mem.write
    rw [if_pos (Nat.zero_le t), Nat.sub_zero, Mem.getElem?_read _ _ _ _ ht, Nat.zero_mul,
      Nat.zero_add]
    rfl
  · rw [if_neg htail]
    refine ⟨dma.tail, congrArg (fun given => ({ dma with offset := o, given } :
      Tbsecp3DmaChannel)) (congrArg (dma.given ++ ·) (hgiven _ rfl fun h t ht => ?_))⟩
    exact absurd ⟨by omega, h⟩ htail

/-! ## One run -/

theorem Framed.congr {dma' : Tbsecp3DmaChannel} (h : Framed stream o dma)
    (hsize : dma'.bufferSize = dma.bufferSize) (hpkts : dma'.bufferPkts = dma.bufferPkts) :
    Framed stream o dma' :=
  ⟨h.lt, h.sync, by rw [hsize, hpkts]; exact h.size, by rw [hpkts]; exact h.pkts⟩

/-- **One run**: `m` buffers from `B` on, while the card is behind the last of them and does not come
round to the first. -/
theorem handleBuffers_spec {busy : ℕ → ℕ} {fuel m j : ℕ} (hframe : Framed stream o dma)
    (hfuel : m ≤ fuel) (hm : m ≤ 15)
    (hlow : ∀ i < m, (B + m) * dma.bufferSize + o ≤ busy (j + i))
    (hhigh : ∀ i < m, busy (j + i) ≤ (B + 16) * dma.bufferSize)
    (hoffset : dma.offset = o ∨ dma.offset = 0 ∧ ¬ FalseSync stream o dma.bufferSize B) :
    ∃ offset tail,
      handleBuffers (fun j => cyclic stream old (16 * dma.bufferSize) (busy j)) ((B + m) % 16) fuel j
          (B % 16) dma =
        { dma with
          offset, tail
          given := dma.given ++ packetsFrom stream o dma.bufferPkts B m } ∧
      (offset = o ∨ m = 0 ∧ offset = dma.offset) := by
  induction m generalizing fuel j B dma with
  | zero =>
    refine ⟨dma.offset, dma.tail, ?_, Or.inr ⟨rfl, rfl⟩⟩
    rw [packetsFrom_zero, List.append_nil]
    cases fuel with
    | zero => rfl
    | succ fuel =>
      unfold handleBuffers
      rw [Nat.add_zero, if_neg (not_not.mpr rfl)]
  | succ m ih =>
    obtain ⟨fuel, rfl⟩ : ∃ k, fuel = k + 1 := ⟨fuel - 1, by omega⟩
    have hnext : (B + (m + 1)) * dma.bufferSize = (B + 1) * dma.bufferSize + m * dma.bufferSize := by
      rw [← Nat.add_mul]
      congr 1
      omega
    have hlow₀ : (B + (m + 1)) * dma.bufferSize + o ≤ busy j := hlow 0 (Nat.succ_pos m)
    obtain ⟨tail₁, hone⟩ : ∃ tail,
        handleBuffer dma (cyclic stream old (16 * dma.bufferSize) (busy j)) (B % 16) =
          { dma with
            offset := o, tail
            given := dma.given ++ bufferPackets stream o dma.bufferPkts B } :=
      handleBuffer_spec hframe (by rw [hnext] at hlow₀; omega) (hhigh 0 (Nat.succ_pos m)) hoffset
    obtain ⟨offset, tail, hrest, hoff⟩ := @ih
      { dma with
        offset := o, tail := tail₁
        given := dma.given ++ bufferPackets stream o dma.bufferPkts B } (B + 1) fuel (j + 1)
      (hframe.congr rfl rfl) (by omega) (by omega)
      (fun i hi => by
        have hi' := hlow (i + 1) (by omega)
        rw [show B + 1 + m = B + (m + 1) by omega, show j + 1 + i = j + (i + 1) by omega]
        exact hi')
      (fun i hi => by
        have hi' := hhigh (i + 1) (by omega)
        rw [show j + 1 + i = j + (i + 1) by omega]
        refine Nat.le_trans hi' (Nat.mul_le_mul_right _ (by omega)))
      (Or.inl rfl)
    refine ⟨offset, tail, ?_, Or.inl ?_⟩
    · unfold handleBuffers
      rw [if_pos (by omega), hone,
        show (B % 16 + 1) % TBSECP3_DMA_BUFFERS = (B + 1) % 16 by
          unfold TBSECP3_DMA_BUFFERS
          omega,
        show B + (m + 1) = B + 1 + m by omega]
      refine hrest.trans ?_
      dsimp only
      rw [List.append_assoc, ← packetsFrom_one, packetsFrom_add, Nat.add_comm 1 m]
    · rcases hoff with hoff | ⟨-, hoff⟩
      · exact hoff
      · exact hoff

/-! ## All runs -/

/-- When the tasklet runs: the number of bytes that the card has written when run `n` reads
`TBSECP3_DMA_STAT`, and when it comes to its `j`-th buffer.  Until then the card has come no more
than 13 buffers farther since the run before. -/
structure Schedule (size : ℕ) where
  stat : ℕ → ℕ
  busy : ℕ → ℕ → ℕ
  stat_le_busy : ∀ n j, stat n ≤ busy n j
  stat_mono : ∀ n, stat n ≤ stat (n + 1)
  busy_le : ∀ n j, busy (n + 1) j / size ≤ stat n / size + 13

variable {size : ℕ}

/-- The buffer that the card writes when run `n` reads the register. -/
def Schedule.writing (sched : Schedule size) (n : ℕ) : ℕ := sched.stat n / size

theorem Schedule.writing_mono (sched : Schedule size) {n k : ℕ} (h : n ≤ k) :
    sched.writing n ≤ sched.writing k :=
  Nat.div_le_div_right (monotone_nat_of_le_succ sched.stat_mono h)

theorem Schedule.writing_le (sched : Schedule size) (n : ℕ) :
    sched.writing (n + 1) ≤ sched.writing n + 13 :=
  Nat.le_trans (Nat.div_le_div_right (sched.stat_le_busy (n + 1) 0)) (sched.busy_le n 0)

/-- The channel after `n` runs of the tasklet. -/
def dmaRuns (stream : ℕ → UInt8) (old : Mem UInt8) (dma : Tbsecp3DmaChannel)
    (sched : Schedule dma.bufferSize) : ℕ → Tbsecp3DmaChannel
  | 0 => dma
  | n + 1 =>
    tbsecp3DmaTasklet (dmaRuns stream old dma sched n) (sched.writing n % TBSECP3_DMA_BUFFERS)
      fun j => cyclic stream old (TBSECP3_DMA_BUFFERS * dma.bufferSize) (sched.busy n j)

/-- The lag of two buffers. -/
theorem nextBuffer_eq (A : ℕ) :
    (A % TBSECP3_DMA_BUFFERS + 2 ^ 32 - TBSECP3_DMA_PRE_BUFFERS + 1) % 2 ^ 32 % TBSECP3_DMA_BUFFERS =
      (A + 15) % 16 := by
  unfold TBSECP3_DMA_BUFFERS TBSECP3_DMA_PRE_BUFFERS
  omega

/-- The channel after two runs and more. -/
structure AfterRuns (stream : ℕ → UInt8) (o : ℕ) (dma : Tbsecp3DmaChannel)
    (sched : Schedule dma.bufferSize) (n : ℕ) (dma' : Tbsecp3DmaChannel) : Prop where
  size : dma'.bufferSize = dma.bufferSize
  pkts : dma'.bufferPkts = dma.bufferPkts
  cnt : dma'.cnt = 2
  next : dma'.nextBuffer = (sched.writing (n - 1) + 15) % 16
  given : dma'.given = packetsFrom stream o dma.bufferPkts (sched.writing 1 - 1)
    (sched.writing (n - 1) - sched.writing 1)
  offset : dma'.offset = o ∨ dma'.offset = 0 ∧ sched.writing (n - 1) = sched.writing 1

/-- The start-up runs give nothing. -/
theorem afterRuns_two {tail : Mem UInt8} (dmaPkts : ℕ)
    (sched : Schedule (tbsecp3DmaInit dmaPkts tail).bufferSize) :
    AfterRuns stream o _ sched 2 (dmaRuns stream old (tbsecp3DmaInit dmaPkts tail) sched 2) where
  size := rfl
  pkts := rfl
  cnt := rfl
  next := nextBuffer_eq (sched.writing 1)
  given := by
    rw [Nat.sub_self, packetsFrom_zero]
    rfl
  offset := Or.inr ⟨rfl, rfl⟩

/-- One run more. -/
theorem AfterRuns.step {sched : Schedule dma.bufferSize} {n : ℕ} {dma' : Tbsecp3DmaChannel}
    (hframe : Framed stream o dma) (hfirst : 1 ≤ sched.writing 1)
    (hno : ¬ FalseSync stream o dma.bufferSize (sched.writing 1 - 1)) (hn : 1 ≤ n)
    (h : AfterRuns stream o dma sched (n + 1) dma') :
    AfterRuns stream o dma sched (n + 2)
      (tbsecp3DmaTasklet dma' (sched.writing (n + 1) % TBSECP3_DMA_BUFFERS) fun j =>
        cyclic stream old (TBSECP3_DMA_BUFFERS * dma.bufferSize) (sched.busy (n + 1) j)) := by
  obtain ⟨hsize, hpkts, hcnt, hnext, hgiven, hoffset⟩ := h
  rw [Nat.add_sub_cancel] at hnext hgiven hoffset
  have hge : sched.writing 1 ≤ sched.writing n := sched.writing_mono hn
  have hmono : sched.writing n ≤ sched.writing (n + 1) := sched.writing_mono (Nat.le_succ n)
  have hadvance := sched.writing_le n
  have hpos : 0 < dma.bufferSize := by
    rw [hframe.size]
    have := hframe.pkts
    unfold TS_PACKET_SIZE
    omega
  have ho : o ≤ dma.bufferSize := by
    have := hframe.pkts
    have := hframe.lt
    rw [hframe.size]
    unfold TS_PACKET_SIZE at *
    omega
  -- the buffers from `B` on, `m` of them
  obtain ⟨B, hB⟩ : ∃ B, sched.writing n = B + 1 := ⟨sched.writing n - 1, by omega⟩
  obtain ⟨m, hm⟩ : ∃ m, sched.writing (n + 1) = B + 1 + m :=
    ⟨sched.writing (n + 1) - (B + 1), by omega⟩
  have hlow : ∀ i < m, (B + m) * dma'.bufferSize + o ≤ sched.busy (n + 1) (0 + i) := by
    intro i _
    have hstat : sched.writing (n + 1) * dma.bufferSize ≤ sched.stat (n + 1) :=
      Nat.div_mul_le_self _ _
    have hbusy := sched.stat_le_busy (n + 1) (0 + i)
    rw [hm, show B + 1 + m = B + m + 1 by omega, Nat.succ_mul] at hstat
    rw [hsize]
    omega
  have hhigh : ∀ i < m, sched.busy (n + 1) (0 + i) ≤ (B + 16) * dma'.bufferSize := by
    intro i _
    have hbusy : sched.busy (n + 1) (0 + i) / dma.bufferSize < B + 16 := by
      have hle : sched.busy (n + 1) (0 + i) / dma.bufferSize ≤ sched.writing n + 13 :=
        sched.busy_le n (0 + i)
      omega
    rw [hsize]
    exact Nat.le_of_lt ((Nat.div_lt_iff_lt_mul hpos).mp hbusy)
  have hoff : dma'.offset = o ∨ dma'.offset = 0 ∧ ¬ FalseSync stream o dma'.bufferSize B := by
    refine hoffset.imp_right fun ⟨hzero, hsame⟩ => ⟨hzero, ?_⟩
    rw [hsize]
    rwa [show sched.writing 1 - 1 = B by omega] at hno
  obtain ⟨offset, tail, hrun, hoff'⟩ := @handleBuffers_spec stream o old dma' B
    (sched.busy (n + 1)) 16 m 0 (hframe.congr hsize hpkts) (by omega) (by omega) hlow hhigh hoff
  have hread : dma'.nextBuffer = B % 16 := by
    rw [hnext]
    omega
  have hfrom : B = sched.writing 1 - 1 + (sched.writing n - sched.writing 1) := by omega
  have hcount : sched.writing n - sched.writing 1 + m =
      sched.writing (n + 1) - sched.writing 1 := by omega
  have hbehind : (B + m) % 16 = (sched.writing (n + 1) + 15) % 16 := by omega
  have hstop : (sched.writing (n + 1) % TBSECP3_DMA_BUFFERS + 2 ^ 32 - TBSECP3_DMA_PRE_BUFFERS + 1) %
      2 ^ 32 % TBSECP3_DMA_BUFFERS = (B + m) % 16 := by
    rw [nextBuffer_eq, hbehind]
  have hcall : tbsecp3DmaTasklet dma' (sched.writing (n + 1) % TBSECP3_DMA_BUFFERS) (fun j =>
        cyclic stream old (TBSECP3_DMA_BUFFERS * dma.bufferSize) (sched.busy (n + 1) j)) =
      { dma' with
        offset, tail
        given := dma'.given ++ packetsFrom stream o dma'.bufferPkts B m
        nextBuffer := (B + m) % 16 } := by
    have hrings : (fun j => cyclic stream old (TBSECP3_DMA_BUFFERS * dma.bufferSize)
        (sched.busy (n + 1) j)) =
        fun j => cyclic stream old (16 * dma'.bufferSize) (sched.busy (n + 1) j) := by
      rw [hsize]
      rfl
    unfold tbsecp3DmaTasklet
    dsimp only
    rw [hstop, if_neg (by rw [hcnt]; decide), hread, hrings]
    unfold TBSECP3_DMA_BUFFERS
    rw [hrun]
  rw [hcall]
  refine ⟨hsize, hpkts, hcnt, ?_, ?_, ?_⟩
  · exact hbehind
  · change dma'.given ++ packetsFrom stream o dma'.bufferPkts B m = _
    conv_lhs => rw [hgiven, hpkts, hfrom, packetsFrom_add, hcount]
    rfl
  · change offset = o ∨ offset = 0 ∧ sched.writing (n + 1) = sched.writing 1
    rcases hoff' with hoff' | ⟨hzero, hoff'⟩
    · exact Or.inl hoff'
    · rw [hoff']
      refine hoffset.imp_right fun ⟨h0, hsame⟩ => ⟨h0, ?_⟩
      rw [hm, hzero, Nat.add_zero, ← hB]
      exact hsame

/-- The number of packets of a buffer is from 16 on. -/
theorem framed_init (ho : o < TS_PACKET_SIZE) (hsync : ∀ n, stream (o + n * TS_PACKET_SIZE) = 0x47)
    (dmaPkts : ℕ) (tail : Mem UInt8) : Framed stream o (tbsecp3DmaInit dmaPkts tail) := by
  refine ⟨ho, hsync, rfl, ?_⟩
  unfold tbsecp3DmaInit
  dsimp only
  split_ifs <;> omega

/-- **Every packet once**: if the card has left a buffer at the second run, and no byte of that buffer
is taken for a sync byte that is none, then what has been given at a later run are the packets of that
buffer and of those behind it, up to two buffers behind the card. -/
theorem dma_contiguous (dmaPkts : ℕ) (tail old : Mem UInt8) (stream : ℕ → UInt8) (o : ℕ)
    (sched : Schedule (tbsecp3DmaInit dmaPkts tail).bufferSize) (ho : o < TS_PACKET_SIZE)
    (hsync : ∀ n, stream (o + n * TS_PACKET_SIZE) = 0x47)
    (hno : ¬ FalseSync stream o (tbsecp3DmaInit dmaPkts tail).bufferSize (sched.writing 1 - 1))
    (hfirst : 1 ≤ sched.writing 1) (n : ℕ) (hn : 2 ≤ n) :
    (dmaRuns stream old (tbsecp3DmaInit dmaPkts tail) sched n).given =
      packetsFrom stream o (tbsecp3DmaInit dmaPkts tail).bufferPkts (sched.writing 1 - 1)
        (sched.writing (n - 1) - sched.writing 1) := by
  have hruns : ∀ k, AfterRuns stream o _ sched (k + 2)
      (dmaRuns stream old (tbsecp3DmaInit dmaPkts tail) sched (k + 2)) := by
    intro k
    induction k with
    | zero => exact afterRuns_two dmaPkts sched
    | succ k ih =>
      exact AfterRuns.step (framed_init ho hsync dmaPkts tail) hfirst hno (Nat.succ_pos k) ih
  obtain ⟨k, rfl⟩ : ∃ k, n = k + 2 := ⟨n - 2, by omega⟩
  exact (hruns k).given

/-- A stream of packets that are empty, the first one `o` bytes behind its start. -/
def emptyPackets (o p : ℕ) : UInt8 := if p % 188 = o then 0x47 else 0

/-- A card that writes a buffer between two runs, from run `first` on. -/
def steady (size first : ℕ) (hsize : 0 < size) : Schedule size where
  stat n := (n - first) * size
  busy n _ := (n - first) * size
  stat_le_busy _ _ := Nat.le_refl _
  stat_mono n := Nat.mul_le_mul_right _ (by omega)
  busy_le n _ := by
    rw [Nat.mul_div_cancel _ hsize, Nat.mul_div_cancel _ hsize]
    omega

theorem writing_steady {size : ℕ} (first : ℕ) (hsize : 0 < size) (n : ℕ) :
    (steady size first hsize).writing n = n - first := Nat.mul_div_cancel _ hsize

theorem sync_emptyPackets {o : ℕ} (ho : o < TS_PACKET_SIZE) (n : ℕ) :
    emptyPackets o (o + n * TS_PACKET_SIZE) = 0x47 := by
  unfold emptyPackets
  unfold TS_PACKET_SIZE at *
  rw [if_pos (by omega)]

/-- In empty packets nothing but the sync bytes looks like one. -/
theorem not_falseSync_emptyPackets {o size : ℕ} (ho : o < TS_PACKET_SIZE) (hsize : TS_PACKET_SIZE ∣ size) (B : ℕ) :
    ¬ FalseSync (emptyPackets o) o size B := by
  obtain ⟨k, rfl⟩ := hsize
  have hbefore : ∀ i < o, emptyPackets o (B * (TS_PACKET_SIZE * k) + i) ≠ 0x47 := by
    intro i hi
    have hmod : (B * (TS_PACKET_SIZE * k) + i) % 188 = i := by
      unfold TS_PACKET_SIZE at *
      rw [Nat.mul_left_comm, Nat.mul_add_mod, Nat.mod_eq_of_lt (by omega)]
    unfold emptyPackets
    rw [hmod, if_neg (Nat.ne_of_lt hi)]
    decide
  rintro (⟨h0, hstart⟩ | ⟨i, hi, hpattern⟩)
  · exact hbefore 0 (Nat.pos_of_ne_zero h0) hstart
  · unfold syncPattern at hpattern
    exact hbefore i hi (of_decide_eq_true hpattern).1

/-- A channel with sixteen packets a buffer, on memory that is zero. -/
def smallDma : Tbsecp3DmaChannel := tbsecp3DmaInit 16 fun _ => 0

/-- Forty runs of `steady`, more than twice around the ring, with packets that begin seven bytes behind the buffers. -/
theorem dma_contiguous_steady :
    7 < TS_PACKET_SIZE ∧ (∀ n, emptyPackets 7 (7 + n * TS_PACKET_SIZE) = 0x47) ∧
      ¬ FalseSync (emptyPackets 7) 7 smallDma.bufferSize
        ((steady smallDma.bufferSize 0 (by decide)).writing 1 - 1) ∧
      1 ≤ (steady smallDma.bufferSize 0 (by decide)).writing 1 ∧ 2 ≤ 40 ∧
      (dmaRuns (emptyPackets 7) (fun _ => 0) smallDma (steady smallDma.bufferSize 0 (by decide)) 40).given =
        packetsFrom (emptyPackets 7) 7 smallDma.bufferPkts
          ((steady smallDma.bufferSize 0 (by decide)).writing 1 - 1)
          ((steady smallDma.bufferSize 0 (by decide)).writing (40 - 1) -
            (steady smallDma.bufferSize 0 (by decide)).writing 1) := by
  have hseven : 7 < TS_PACKET_SIZE := by decide
  have hno := not_falseSync_emptyPackets hseven (show TS_PACKET_SIZE ∣ smallDma.bufferSize by decide)
  have hfirst : 1 ≤ (steady smallDma.bufferSize 0 (by decide)).writing 1 := by
    rw [writing_steady]
  exact ⟨hseven, sync_emptyPackets hseven, hno _, hfirst, by decide,
    dma_contiguous 16 (fun _ => 0) (fun _ => 0) (emptyPackets 7) 7 (steady smallDma.bufferSize 0 (by decide))
      hseven (sync_emptyPackets hseven) (hno _) hfirst 40 (by decide)⟩

/-- What is given behind the two start-up runs is one contiguous run of the packets of the stream. -/
def Contiguous (stream : ℕ → UInt8) (old : Mem UInt8) (o : ℕ) (dma : Tbsecp3DmaChannel)
    (sched : Schedule dma.bufferSize) : Prop :=
  ∃ first, ∀ n ≥ 2, ∃ count, (dmaRuns stream old dma sched n).given =
    (List.range count).map fun j => packet stream o (first + j)

/-- When the first two runs come before the card has left its first buffer, the third one gives what
was in the last buffer before the card began. -/
theorem not_contiguous : ¬ ∀ (dmaPkts : ℕ) (tail old : Mem UInt8) (stream : ℕ → UInt8) (o : ℕ)
    (sched : Schedule (tbsecp3DmaInit dmaPkts tail).bufferSize), o < TS_PACKET_SIZE →
    (∀ n, stream (o + n * TS_PACKET_SIZE) = 0x47) →
    (∀ B, ¬ FalseSync stream o (tbsecp3DmaInit dmaPkts tail).bufferSize B) →
    Contiguous stream old o (tbsecp3DmaInit dmaPkts tail) sched := by
  intro h
  have hzero : 0 < TS_PACKET_SIZE := by decide
  obtain ⟨first, hfirst⟩ := h 16 (fun _ => 0) (fun _ => 0) (emptyPackets 0) 0
    (steady smallDma.bufferSize 1 (by decide)) hzero (sync_emptyPackets hzero)
    (not_falseSync_emptyPackets hzero (by decide))
  obtain ⟨count, hcount⟩ := hfirst 3 (by decide)
  have hhead : ((dmaRuns (emptyPackets 0) (fun _ => 0) smallDma
      (steady smallDma.bufferSize 1 (by decide)) 3).given.head?.bind List.head?) = some 0 := by
    decide +kernel
  rw [show (dmaRuns (emptyPackets 0) (fun _ => 0) smallDma
    (steady smallDma.bufferSize 1 (by decide)) 3).given = _ from hcount] at hhead
  cases count with
  | zero => cases hhead
  | succ count =>
    rw [List.range_succ_eq_map, List.map_cons, List.head?_cons, Option.bind_some, head?_packet,
      sync_emptyPackets hzero] at hhead
    exact absurd hhead (by decide)

end Tbsecp3
end TbsMedia
