import Mathlib.Data.List.Count
import TbsMedia.Vicodec.Layout
import TbsMedia.Vicodec.PayloadWords

/-!
# Decoding hostile input

The decoder reads words up to the last word of the payload, whatever the run lengths, the markers and the
counts of duplicates in it are, except where a plane is copied and the product of its width and height
wraps.  Where it does not give up, each block of a plane has been stored once, unless the layout of the plane
is not what `decode_plane` assumes: `memcpy` does not know of the step, and the offsets have 32 bits.

For the reads, the last byte of a plane that is copied decides: it is a byte of the payload just if the
plane is within bounds.  For the stores, the last sample of the last block decides: it is stored only if the
sizes do not wrap when they are rounded up, the samples of a row that is copied are adjacent, and the offset
of the last row of blocks does not wrap; and then no two samples share an address and all are stored.

* `decodeRuns_reads`, `decodeRuns_written`: one block, with the bound of its array.
* `decodeComponents_reads`, `boundedAt_of_reads`: what is read.
* `Plane.Once.kept`, `FrameDecodeParams.Kept.once`: what is stored of a plane.
* `fwhtDecodeFrame_safe_iff`: when decoding is safe.
* `not_safe_interleaved`, `not_safe_huge`: a frame of interleaved components that are not compressed, and
  one of too many samples.
-/

namespace TbsMedia
namespace Vicodec

open Lib

/-! ## One block -/

/-- All bytes are bytes of words up to the last. -/
def Within (endOfInput : ℤ) (reads : List ℕ) : Prop := ∀ b ∈ reads, (b : ℤ) < 2 * (endOfInput + 1)

theorem Within.nil (endOfInput : ℤ) : Within endOfInput [] := fun _ h => by simp at h

theorem Within.append {endOfInput : ℤ} {reads reads' : List ℕ} (h : Within endOfInput reads)
    (h' : Within endOfInput reads') : Within endOfInput (reads ++ reads') := fun b hb =>
  (List.mem_append.1 hb).elim (h b) (h' b)

/-- The two bytes of a word that is not behind the end. -/
theorem within_word {endOfInput : ℤ} {i : ℕ} (h : ¬endOfInput < i) :
    Within endOfInput [2 * i, 2 * i + 1] := by
  intro b hb
  rw [List.mem_pair] at hb
  rcases hb with rfl | rfl
  · push_cast
    omega
  · push_cast
    omega

theorem decodeRuns_reads {data : Mem UInt8} {endOfInput : ℤ} {s : RunState}
    (h : Within endOfInput s.reads) : Within endOfInput (decodeRuns data endOfInput s).2.reads := by
  induction s using decodeRuns.induct data endOfInput with
  | case1 s hdec hend => rwa [decodeRuns, if_pos hdec, if_pos hend]
  | case2 s hdec hend hzeros =>
    rw [decodeRuns, if_pos hdec, if_neg hend, if_pos hzeros]
    exact h.append (within_word hend)
  | case3 s hdec hend hzeros ih =>
    rw [decodeRuns, if_pos hdec, if_neg hend, if_neg hzeros]
    exact ih (h.append (within_word hend))
  | case4 s hdec => rwa [decodeRuns, if_neg hdec]

/-- The array `block` has room for what the loop writes to it. -/
theorem decodeRuns_written {data : Mem UInt8} {endOfInput : ℤ} {s : RunState}
    (hlen : s.block.length = s.decCount) (hdec : s.decCount ≤ 78) :
    (decodeRuns data endOfInput s).2.block.length ≤ 80 := by
  induction s using decodeRuns.induct data endOfInput with
  | case1 s hlt hend =>
    rw [decodeRuns, if_pos hlt, if_pos hend]
    exact hlen.le.trans (by omega)
  | case2 s hlt hend hzeros =>
    rw [decodeRuns, if_pos hlt, if_neg hend, if_pos hzeros]
    unfold RunState.fill
    rw [List.length_append, List.length_replicate]
    omega
  | case3 s hlt hend hzeros ih =>
    rw [decodeRuns, if_pos hlt, if_neg hend, if_neg hzeros]
    have hmod : ntohs data s.input % 16 < 16 := Nat.mod_lt _ (by omega)
    refine ih ?_ ?_
    · unfold RunState.expand
      simp only [List.length_append, List.length_replicate, List.length_singleton]
      omega
    · unfold RunState.expand
      dsimp only
      omega
  | case4 s hlt =>
    rw [decodeRuns, if_neg hlt]
    exact hlen.le.trans (by omega)

theorem derlc_reads (data : Mem UInt8) (rlcIn : ℕ) (coeffs : Block) (endOfInput : ℤ) :
    Within endOfInput (derlc data rlcIn coeffs endOfInput).reads := by
  unfold derlc
  dsimp only
  split_ifs with hend hok
  · exact Within.nil _
  · exact decodeRuns_reads (within_word hend)
  · exact decodeRuns_reads (within_word hend)

theorem derlc_written (data : Mem UInt8) (rlcIn : ℕ) (coeffs : Block) (endOfInput : ℤ) :
    (derlc data rlcIn coeffs endOfInput).written.length ≤ 80 := by
  unfold derlc
  dsimp only
  split_ifs
  · exact Nat.zero_le _
  · exact decodeRuns_written rfl (Nat.zero_le _)
  · exact decodeRuns_written rfl (Nat.zero_le _)

/-! ## The loops of a plane -/

theorem decodeBlock_reads {p : DecodeParams} {columns k : ℕ} {s : DecodeState}
    (h : Within p.endOfRlcoBuf s.reads) : Within p.endOfRlcoBuf (decodeBlock p columns s k).2.reads := by
  by_cases hcopies : s.copies = 0
  · by_cases hover : (derlc p.data s.rlco s.coeffs p.endOfRlcoBuf).stat &&& OVERFLOW_BIT ≠ 0
    · rw [decodeBlock_of_overflow p columns k hcopies rfl hover]
      exact h.append (derlc_reads _ _ _ _)
    · rw [decodeBlock_of_coded p columns k hcopies rfl hover]
      exact h.append (derlc_reads _ _ _ _)
  · rwa [decodeBlock_of_copies p columns k hcopies]

theorem decodeBlocks_reads {p : DecodeParams} {columns : ℕ} (ks : List ℕ) {s : DecodeState}
    (h : Within p.endOfRlcoBuf s.reads) : Within p.endOfRlcoBuf (decodeBlocks p columns ks s).2.reads := by
  induction ks generalizing s with
  | nil => exact h
  | cons k ks ih =>
    rw [decodeBlocks]
    split_ifs
    · exact ih (decodeBlock_reads h)
    · exact decodeBlock_reads h

/-- A block that is decoded is stored. -/
theorem decodeBlock_writes {p : DecodeParams} {columns k : ℕ} {s : DecodeState}
    (h : (decodeBlock p columns s k).1 = true) :
    ∃ b, (decodeBlock p columns s k).2.writes = s.writes ++ p.fill columns k b := by
  by_cases hcopies : s.copies = 0
  · by_cases hover : (derlc p.data s.rlco s.coeffs p.endOfRlcoBuf).stat &&& OVERFLOW_BIT ≠ 0
    · rw [decodeBlock_of_overflow p columns k hcopies rfl hover] at h
      exact absurd h Bool.false_ne_true
    · rw [decodeBlock_of_coded p columns k hcopies rfl hover]
      exact ⟨_, rfl⟩
  · rw [decodeBlock_of_copies p columns k hcopies]
    exact ⟨_, rfl⟩

/-- Loops that run to their end have stored one block after the other. -/
theorem decodeBlocks_writes {p : DecodeParams} {columns : ℕ} {ks : List ℕ} {s : DecodeState}
    (hnd : ks.Nodup) (h : (decodeBlocks p columns ks s).1 = true) :
    ∃ content, (decodeBlocks p columns ks s).2.writes = s.writes ++ p.dst.blockStores columns ks content := by
  induction ks generalizing s with
  | nil => exact ⟨fun _ => s.copy, (List.append_nil _).symm⟩
  | cons k ks ih =>
    rw [decodeBlocks] at h ⊢
    rw [List.nodup_cons] at hnd
    split_ifs at h ⊢ with hk
    · obtain ⟨b, hb⟩ := decodeBlock_writes hk
      obtain ⟨content, hc⟩ := ih hnd.2 h
      refine ⟨Function.update content k b, ?_⟩
      rw [hc, hb, List.append_assoc]
      refine congrArg (s.writes ++ ·) ?_
      unfold Plane.blockStores
      rw [List.flatMap_cons, Function.update_self]
      refine congrArg (p.fill columns k b ++ ·) (List.flatMap_congr fun j hj => ?_)
      have hne : j ≠ k := fun heq => hnd.1 (heq ▸ hj)
      rw [Function.update_of_ne hne]
    · exact absurd h hk

/-! ## Planes that are copied -/

theorem mem_copyRows {p : DecodeParams} {rlco height width a b : ℕ} :
    (a, b) ∈ copyRows p rlco height width ↔ ∃ i < height, ∃ c < width,
      p.dst.base + i * p.dst.stride + c = a ∧ 2 * (rlco + i * (width / 2)) + c = b := by
  simp [copyRows]

/-- The rows of a plane with the step one are its samples. -/
theorem copyRows_addr {p : DecodeParams} (hstep : p.dst.step = 1) (rlco height width : ℕ) :
    (copyRows p rlco height width).map Prod.fst =
      (List.range height ×ˢ List.range width).map fun q => p.dst.addr q.1 q.2 := by
  unfold copyRows Plane.addr
  simp only [SProd.sprod, List.product, List.map_flatMap, List.map_map, hstep, mul_one]
  rfl

/-- The bytes of the rows lie in front of the end of their words. -/
theorem copyRows_within {p : DecodeParams} {rlco height width e : ℕ} (hw : 2 ∣ width)
    (hend : rlco + height * (width / 2) ≤ e) :
    ∀ b ∈ (copyRows p rlco height width).map Prod.snd, b < 2 * e := by
  intro b hb
  obtain ⟨⟨a, b⟩, hmem, rfl⟩ := List.mem_map.1 hb
  obtain ⟨i, hi, c, hc, -, rfl⟩ := mem_copyRows.1 hmem
  have hrows : i * (width / 2) + width / 2 ≤ height * (width / 2) :=
    (Nat.succ_mul _ _).symm.le.trans (Nat.mul_le_mul_right _ hi)
  dsimp only
  omega

/-- The last byte of the last row. -/
theorem last_mem_copyRows {p : DecodeParams} {rlco height width : ℕ} (hw : 2 ∣ width) (hh : 0 < height)
    (hpos : 0 < width) :
    2 * (rlco + height * (width / 2)) - 1 ∈ (copyRows p rlco height width).map Prod.snd := by
  refine List.mem_map.2 ⟨(p.dst.base + (height - 1) * p.dst.stride + (width - 1), _),
    mem_copyRows.2 ⟨height - 1, by omega, width - 1, by omega, rfl, rfl⟩, ?_⟩
  have hrows : (height - 1) * (width / 2) + width / 2 = height * (width / 2) := by
    rw [← Nat.succ_mul]
    exact congrArg (· * _) (by omega)
  dsimp only
  omega

/-! ## What is read -/

theorem decodeComponent_reads {p : FrameDecodeParams} {c : Component} {pos : ℕ}
    (hbounded : p.uncompressed c = true → pos + u32 (p.columns c * p.rows c) / 2 ≤ p.size / 2 →
      pos + p.rows c * (p.columns c / 2) ≤ p.size / 2) (coeffs : Block) :
    Within p.endOfRlcoBuf (decodeComponent p c pos coeffs).reads := by
  by_cases hraw : p.uncompressed c = true
  · by_cases hend : pos + u32 (p.columns c * p.rows c) / 2 ≤ p.size / 2
    · rw [decodeComponent_of_copied hraw coeffs hend]
      intro b hb
      have hlt := copyRows_within (two_dvd_columns p c) (hbounded hraw hend) b hb
      unfold FrameDecodeParams.endOfRlcoBuf
      omega
    · rw [decodeComponent_of_not_copied hraw coeffs hend]
      exact Within.nil _
  · rw [decodeComponent_of_coded (Bool.eq_false_of_not_eq_true hraw)]
    exact decodeBlocks_reads (p := p.plane c) _ (Within.nil _)

/-- **Planes within bounds are read from the payload.** -/
theorem decodeComponents_reads {p : FrameDecodeParams} {cs : List Component} {pos : ℕ}
    (hbounded : p.BoundedAt cs pos) (hpos : pos ≤ p.size / 2) (coeffs : Block) :
    Within p.endOfRlcoBuf (decodeComponents p cs pos coeffs).reads := by
  induction cs generalizing pos coeffs with
  | nil => exact Within.nil _
  | cons c cs ih =>
    have hc := decodeComponent_reads hbounded.head coeffs
    rw [decodeComponents]
    dsimp only
    split_ifs with hok
    · obtain ⟨ws, hplane, hws⟩ := exists_planeWords hok hbounded.head
      rw [(hplane.decodeComponent hws hpos coeffs).2]
      exact hc.append (ih (hbounded.tail hplane hws) (add_length_le hws hpos) _)
    · exact hc

/-- **Planes that are read from the payload are within bounds**: the last byte of one that is copied is a
byte of the payload. -/
theorem boundedAt_of_reads {p : FrameDecodeParams} {cs : List Component} {coeffs : Block}
    (hreads : ∀ b ∈ (decodeComponents p cs 0 coeffs).reads, b < p.size) : p.BoundedAt cs 0 := by
  intro cs₁ c cs₂ ws hcs hframe hws hraw hend
  have hle := add_length_le hws (Nat.zero_le _)
  by_cases hempty : p.rows c * (p.columns c / 2) = 0
  · rwa [hempty]
  have hrows : 0 < p.rows c := Nat.pos_of_ne_zero fun h => hempty (by rw [h, Nat.zero_mul])
  have hcolumns : 0 < p.columns c := Nat.pos_of_ne_zero fun h => hempty (by rw [h, Nat.mul_zero])
  obtain ⟨coeffs', reads, writes, heq⟩ := hframe.decodeComponents hws (Nat.zero_le _) (c :: cs₂) coeffs
  have hlast : 2 * (0 + ws.length + p.rows c * (p.columns c / 2)) - 1 ∈
      (decodeComponents p cs 0 coeffs).reads := by
    rw [hcs, heq, decodeComponents, decodeComponent_of_copied hraw coeffs' hend]
    exact List.mem_append_right _
      (List.mem_append_left _ (last_mem_copyRows (two_dvd_columns p c) hrows hcolumns))
  have hlt := hreads _ hlast
  omega

/-! ## What is stored of a plane -/

/-- The rows of blocks of a plane. -/
def FrameDecodeParams.blockRows (p : FrameDecodeParams) (c : Component) : ℕ := ((p.planeSize c).2 + 7) / 8

/-- The columns of blocks of a plane. -/
def FrameDecodeParams.blockColumns (p : FrameDecodeParams) (c : Component) : ℕ :=
  ((p.planeSize c).1 + 7) / 8

/-- A plane of so many rows and columns of blocks has rows that follow one another, and every sample of
every block is in a list of addresses once. -/
def Plane.Once (P : Plane) (rows columns : ℕ) (addrs : List ℕ) : Prop :=
  ∀ k < rows * columns, P.Laid (8 * columns) ∧
    ∀ y x : Fin 8, addrs.count (P.addr (blockRow columns k y) (blockColumn columns k x)) = 1

/-- What the layout of a plane has to be for `decode_plane` to store it: sizes that can be rounded up in
32 bits, rows that follow one another, adjacent samples if it is copied, and offsets of 32 bits if it is
not. -/
structure FrameDecodeParams.Kept (p : FrameDecodeParams) (c : Component) : Prop where
  rows : p.rows c = 8 * p.blockRows c
  columns : p.columns c = 8 * p.blockColumns c
  laid : (p.dstPlane c).Laid (p.columns c)
  step : p.uncompressed c = true → (p.dstPlane c).step = 1
  offset : p.uncompressed c = false → (p.rows c - 8) * (p.dstPlane c).stride < 2 ^ 32

section Plane

variable {p : FrameDecodeParams} {c : Component} {pos : ℕ} {coeffs : Block}

/-- Where a sample of a plane that is decoded has been stored. -/
theorem stored_cases (hlaid : (p.dstPlane c).Laid (p.columns c))
    (hok : (decodeComponent p c pos coeffs).ok = true) {a : ℕ}
    (ha : a ∈ (decodeComponent p c pos coeffs).writes.map Prod.fst) :
    (p.uncompressed c = true ∧ ∃ i < p.rows c, ∃ d < p.columns c,
      a = (p.dstPlane c).base + i * (p.dstPlane c).stride + d) ∨
    (p.uncompressed c = false ∧ ∃ k < p.rows c / 8 * (p.columns c / 8), ∃ y x : Fin 8,
      a = (p.dstPlane c).base + u32 (k / (p.columns c / 8) * 8 * (p.dstPlane c).stride) +
        y * (p.dstPlane c).stride + blockColumn (p.columns c / 8) k x * (p.dstPlane c).step) := by
  obtain ⟨⟨a, v⟩, hmem, rfl⟩ := List.mem_map.1 ha
  by_cases hraw : p.uncompressed c = true
  · by_cases hend : pos + u32 (p.columns c * p.rows c) / 2 ≤ p.size / 2
    · rw [decodeComponent_of_copied hraw coeffs hend] at hmem
      obtain ⟨⟨a', b⟩, hrow, heq⟩ := List.mem_map.1 hmem
      obtain ⟨i, hi, d, hd, haddr, -⟩ := mem_copyRows.1 hrow
      exact Or.inl ⟨hraw, i, hi, d, hd, (congrArg Prod.fst heq).symm.trans haddr.symm⟩
    · rw [decodeComponent_of_not_copied hraw coeffs hend] at hok
      exact absurd hok Bool.false_ne_true
  · have hraw := Bool.eq_false_of_not_eq_true hraw
    rw [decodeComponent_of_coded hraw] at hok hmem
    obtain ⟨content, hwrites⟩ := decodeBlocks_writes List.nodup_range hok
    dsimp only at hmem
    rw [hwrites, List.nil_append] at hmem
    have hdst : (p.plane c).dst = p.dstPlane c := rfl
    rw [hdst, blockStores_eq] at hmem
    obtain ⟨⟨k, y, x⟩, hq, heq⟩ := List.mem_map.1 hmem
    have hk : k < p.rows c / 8 * (p.columns c / 8) := List.mem_range.1 (List.pair_mem_product.1 hq).1
    refine Or.inr ⟨hraw, k, hk, y, x, ?_⟩
    rw [← hlaid.sampleAddr_blockAddr hk]
    exact (congrArg Prod.fst heq).symm

/-- A sample that has been stored is in front of the end of the rows. -/
theorem stored_lt (hlaid : (p.dstPlane c).Laid (p.columns c))
    (hok : (decodeComponent p c pos coeffs).ok = true) {a : ℕ}
    (ha : a ∈ (decodeComponent p c pos coeffs).writes.map Prod.fst) :
    a < (p.dstPlane c).base + p.rows c * (p.dstPlane c).stride := by
  have hrow : ∀ {i}, i < p.rows c →
      i * (p.dstPlane c).stride + (p.dstPlane c).stride ≤ p.rows c * (p.dstPlane c).stride := fun hi =>
    (Nat.succ_mul _ _).symm.le.trans (Nat.mul_le_mul_right _ hi)
  have hlong := hlaid.row
  rcases stored_cases hlaid hok ha with ⟨-, i, hi, d, hd, rfl⟩ | ⟨-, k, hk, y, x, rfl⟩
  · have := hrow hi
    have := (Nat.le_mul_of_pos_right (p.columns c) hlaid.step_pos).trans hlong
    omega
  · have hcol := (Nat.mul_lt_mul_right hlaid.step_pos).2 (blockColumn_lt hk x)
    have hwrap : u32 (k / (p.columns c / 8) * 8 * (p.dstPlane c).stride) ≤
        k / (p.columns c / 8) * 8 * (p.dstPlane c).stride := Nat.mod_le _ _
    have hend := hrow (blockRow_lt hk y)
    unfold blockRow at hend
    rw [Nat.mul_comm 8, Nat.add_mul] at hend
    omega

/-- **A plane that is stored once has the layout that `decode_plane` assumes.**  The last sample of the
last block says so: if the sizes wrap, it is behind all that is stored; if a plane with gaps is copied, no
row reaches it; and if an offset wraps, no block does. -/
theorem Plane.Once.kept (hok : (decodeComponent p c pos coeffs).ok = true)
    (honce : (p.dstPlane c).Once (p.blockRows c) (p.blockColumns c)
      ((decodeComponent p c pos coeffs).writes.map Prod.fst))
    (hblocks : 0 < p.blockRows c * p.blockColumns c) : p.Kept c := by
  have hr : 0 < p.blockRows c := Nat.pos_of_mul_pos_right hblocks
  have hc : 0 < p.blockColumns c := Nat.pos_of_mul_pos_left hblocks
  obtain ⟨k, hk, y, x, hrow, hcol⟩ := exists_block (Nat.dvd_mul_right 8 (p.blockRows c))
    (Nat.dvd_mul_right 8 (p.blockColumns c)) (by omega : 8 * p.blockRows c - 1 < 8 * p.blockRows c)
    (by omega : 8 * p.blockColumns c - 1 < 8 * p.blockColumns c)
  rw [Nat.mul_div_cancel_left _ (by omega : 0 < 8)] at hrow hcol hk
  rw [Nat.mul_div_cancel_left _ (by omega : 0 < 8)] at hk
  obtain ⟨hlaid, hcount⟩ := honce k hk
  have hmem := List.count_pos_iff.1 (by rw [hcount y x]; exact Nat.one_pos)
  rw [hrow, hcol] at hmem
  have hcolumns : p.columns c = 8 * p.blockColumns c := by
    have hlt := ((Nat.le_mul_of_pos_right _ hlaid.step_pos).trans hlaid.row).trans_lt hlaid.stride
    exact (Nat.mod_eq_of_lt (by rwa [Nat.mul_comm] at hlt)).trans (Nat.mul_comm _ _)
  rw [← hcolumns] at hlaid hmem
  have hpos : 0 < (p.dstPlane c).stride := by
    have := (Nat.le_mul_of_pos_right (p.columns c) hlaid.step_pos).trans hlaid.row
    omega
  have hrows : p.rows c = 8 * p.blockRows c := by
    have hle : p.rows c ≤ 8 * p.blockRows c := by
      rw [Nat.mul_comm]
      exact Nat.mod_le _ _
    have hlt := stored_lt hlaid hok hmem
    unfold Plane.addr at hlt
    have hmul : (8 * p.blockRows c - 1) * (p.dstPlane c).stride <
        p.rows c * (p.dstPlane c).stride := by omega
    have := Nat.lt_of_mul_lt_mul_right hmul
    omega
  rw [← hrows] at hmem
  have hsplit : (p.rows c - 1) * (p.dstPlane c).stride =
      (p.rows c - 8) * (p.dstPlane c).stride + 7 * (p.dstPlane c).stride := by
    rw [← Nat.add_mul]
    exact congrArg (· * _) (by omega)
  refine ⟨hrows, hcolumns, hlaid, fun hraw => ?_, fun hraw => ?_⟩
  · rcases stored_cases hlaid hok hmem with ⟨-, i, hi, d, hd, heq⟩ | ⟨hcoded, -⟩
    · by_contra hne
      have hstep : 2 ≤ (p.dstPlane c).step := by
        have := hlaid.step_pos
        omega
      have hgap := Nat.mul_le_mul_left (p.columns c - 1) hstep
      have hle := Nat.mul_le_mul_right (p.dstPlane c).stride (by omega : i ≤ p.rows c - 1)
      unfold Plane.addr at heq
      omega
    · exact absurd (hraw.symm.trans hcoded) Bool.false_ne_true.symm
  · rcases stored_cases hlaid hok hmem with ⟨hcopied, -⟩ | ⟨-, k', hk', y', x', heq⟩
    · exact absurd (hraw.symm.trans hcopied) Bool.false_ne_true
    · have hcol' := blockColumn_lt hk' x'
      have hle := Nat.mul_le_mul_right (p.dstPlane c).step
        (by omega : blockColumn (p.columns c / 8) k' x' ≤ p.columns c - 1)
      have hle' := Nat.mul_le_mul_right (p.dstPlane c).stride (by omega : (y' : ℕ) ≤ 7)
      have hwrap : u32 (k' / (p.columns c / 8) * 8 * (p.dstPlane c).stride) < 2 ^ 32 :=
        Nat.mod_lt _ (by decide)
      unfold Plane.addr at heq
      omega

/-- **A plane with the layout that `decode_plane` assumes is stored once.** -/
theorem FrameDecodeParams.Kept.once (h : p.Kept c) (hok : (decodeComponent p c pos coeffs).ok = true) :
    (p.dstPlane c).Once (p.blockRows c) (p.blockColumns c)
      ((decodeComponent p c pos coeffs).writes.map Prod.fst) := by
  have hr : p.rows c / 8 = p.blockRows c := by rw [h.rows, Nat.mul_div_cancel_left _ (by omega)]
  have hc : p.columns c / 8 = p.blockColumns c := by rw [h.columns, Nat.mul_div_cancel_left _ (by omega)]
  intro k hk
  refine ⟨h.columns ▸ h.laid, fun y x => ?_⟩
  rw [← hr, ← hc] at hk
  rw [← hc]
  by_cases hraw : p.uncompressed c = true
  · by_cases hend : pos + u32 (p.columns c * p.rows c) / 2 ≤ p.size / 2
    · rw [decodeComponent_of_copied hraw coeffs hend, List.map_map]
      have hfst : (Prod.fst ∘ fun r : ℕ × ℕ => (r.1, p.data r.2)) = Prod.fst := rfl
      rw [hfst, copyRows_addr (p := p.plane c) (h.step hraw)]
      refine List.count_eq_one_of_mem (List.Nodup.map_on ?_ (List.nodup_range.product List.nodup_range)) ?_
      · rintro ⟨r, d⟩ hq ⟨r', d'⟩ hq' heq
        obtain ⟨rfl, rfl⟩ := Plane.addr_inj h.laid.step_pos h.laid.row
          (List.mem_range.1 (List.pair_mem_product.1 hq).2)
          (List.mem_range.1 (List.pair_mem_product.1 hq').2) heq
        rfl
      · exact List.mem_map.2 ⟨(_, _), List.pair_mem_product.2
          ⟨List.mem_range.2 (blockRow_lt hk y), List.mem_range.2 (blockColumn_lt hk x)⟩, rfl⟩
    · rw [decodeComponent_of_not_copied hraw coeffs hend] at hok
      exact absurd hok Bool.false_ne_true
  · have hraw := Bool.eq_false_of_not_eq_true hraw
    have hfound := h.laid.found (h.offset hraw)
    rw [decodeComponent_of_coded hraw] at hok ⊢
    obtain ⟨content, hwrites⟩ := decodeBlocks_writes List.nodup_range hok
    dsimp only
    rw [hwrites, List.nil_append]
    refine List.count_eq_one_of_mem (nodup_blockStores hfound h.laid.step_pos h.laid.row content) ?_
    exact List.mem_map.2 ⟨_, (mem_blockStores hfound).2 ⟨k, hk, y, x, rfl, rfl⟩, rfl⟩

end Plane

/-! ## All planes -/

/-- Where the decoder has stored samples: the component and the address. -/
def FrameDecoding.stored (f : FrameDecoding) : List (Component × ℕ) := f.writes.map fun w => (w.1, w.2.1)

theorem mem_of_mem_stored {p : FrameDecodeParams} {cs : List Component} {pos : ℕ} {coeffs : Block}
    {q : Component × ℕ} (h : q ∈ (decodeComponents p cs pos coeffs).stored) : q.1 ∈ cs := by
  induction cs generalizing pos coeffs with
  | nil => simp [decodeComponents, FrameDecoding.stored] at h
  | cons c cs ih =>
    have hhead : ∀ {ws : List (ℕ × UInt8)},
        q ∈ (ws.map (Prod.mk c)).map (fun w => (w.1, w.2.1)) → q.1 = c := by
      intro ws hq
      obtain ⟨w, hw, rfl⟩ := List.mem_map.1 hq
      obtain ⟨v, -, rfl⟩ := List.mem_map.1 hw
      rfl
    rw [decodeComponents] at h
    dsimp only at h
    unfold FrameDecoding.stored at h ih
    split_ifs at h
    · rw [List.map_append, List.mem_append] at h
      rcases h with h | h
      · exact List.mem_cons.2 (Or.inl (hhead h))
      · exact List.mem_cons_of_mem _ (ih h)
    · exact List.mem_cons.2 (Or.inl (hhead h))

/-- The stores of one plane are those of its call of `decode_plane`. -/
theorem exists_decodeComponent {p : FrameDecodeParams} {cs : List Component} (hnd : cs.Nodup)
    {c : Component} (hc : c ∈ cs) {pos : ℕ} {coeffs : Block}
    (hok : (decodeComponents p cs pos coeffs).ok = true) :
    ∃ pos' coeffs', (decodeComponent p c pos' coeffs').ok = true ∧
      ∀ a, (decodeComponents p cs pos coeffs).stored.count (c, a) =
        ((decodeComponent p c pos' coeffs').writes.map Prod.fst).count a := by
  induction cs generalizing pos coeffs with
  | nil => simp at hc
  | cons d cs ih =>
    rw [List.nodup_cons] at hnd
    rw [decodeComponents] at hok ⊢
    dsimp only at hok ⊢
    split_ifs at hok ⊢ with hd
    have htag : ∀ ws : List (ℕ × UInt8), (ws.map (Prod.mk d)).map (fun w => (w.1, w.2.1)) =
        (ws.map Prod.fst).map (Prod.mk d) := fun ws => by
      rw [List.map_map, List.map_map]
      rfl
    unfold FrameDecoding.stored
    simp only [List.map_append, htag, List.count_append]
    rcases List.mem_cons.1 hc with rfl | hc
    · refine ⟨pos, coeffs, hd, fun a => ?_⟩
      have hrest := List.count_eq_zero.2 fun hmem =>
        hnd.1 (@mem_of_mem_stored p cs (decodeComponent p c pos coeffs).rlco
          (decodeComponent p c pos coeffs).coeffs (c, a) hmem)
      unfold FrameDecoding.stored at hrest
      rw [hrest, Nat.add_zero, List.count_map_of_injective _ _ (Prod.mk_right_injective c)]
    · obtain ⟨pos', coeffs', hok', hcount⟩ := ih hnd.2 hc hok
      refine ⟨pos', coeffs', hok', fun a => ?_⟩
      have hhead : ((((decodeComponent p d pos coeffs).writes.map Prod.fst).map (Prod.mk d)).count
          (c, a)) = 0 := by
        refine List.count_eq_zero.2 fun hmem => ?_
        obtain ⟨b, -, heq⟩ := List.mem_map.1 hmem
        obtain rfl : d = c := congrArg Prod.fst heq
        exact hnd.1 hc
      rw [hhead, Nat.zero_add]
      exact hcount a

/-! ## Safety -/

/-- **What a call of `fwht_decode_frame` is to do on hostile input**: to read bytes of the payload only,
to keep to the array of `derlc`, and to store each sample of each block once unless it gives up.  Blocks of
rows that overlap cannot be stored once. -/
structure SafeDecoding (p : FrameDecodeParams) (coeffs : Block) : Prop where
  reads : ∀ b ∈ (fwhtDecodeFrame p coeffs).reads, b < p.size
  block : ∀ (pos : ℕ) (c : Block), (derlc p.data pos c p.endOfRlcoBuf).written.length ≤ 80
  stores : (fwhtDecodeFrame p coeffs).ok = false ∨ ∀ c ∈ components p.componentsNum,
    ∀ k < p.blockRows c * p.blockColumns c, (p.dstPlane c).Laid (8 * p.blockColumns c) ∧ ∀ y x : Fin 8,
      (fwhtDecodeFrame p coeffs).stored.count (c, (p.dstPlane c).addr (blockRow (p.blockColumns c) k y)
        (blockColumn (p.blockColumns c) k x)) = 1

theorem fwhtDecodeFrame_once_iff {p : FrameDecodeParams} {coeffs : Block}
    (hok : (fwhtDecodeFrame p coeffs).ok = true) {c : Component} (hc : c ∈ components p.componentsNum) :
    (∀ k < p.blockRows c * p.blockColumns c, (p.dstPlane c).Laid (8 * p.blockColumns c) ∧
      ∀ y x : Fin 8, (fwhtDecodeFrame p coeffs).stored.count (c, (p.dstPlane c).addr
        (blockRow (p.blockColumns c) k y) (blockColumn (p.blockColumns c) k x)) = 1) ↔
      (0 < p.blockRows c * p.blockColumns c → p.Kept c) := by
  obtain ⟨pos, coeffs', hok', hcount⟩ := exists_decodeComponent (nodup_components _) hc hok
  unfold fwhtDecodeFrame
  simp only [hcount]
  exact ⟨fun honce hblocks => Plane.Once.kept hok' honce hblocks,
    fun hkept k hk => (hkept (Nat.zero_lt_of_lt hk)).once hok' k hk⟩

/-- A frame whose words are all there is decoded. -/
theorem FrameDecodeParams.Complete.ok {p : FrameDecodeParams} (h : p.Complete) (coeffs : Block) :
    (fwhtDecodeFrame p coeffs).ok = true := by
  obtain ⟨ws, hframe, hws⟩ := h
  have hbegin : ws <+: p.words.drop 0 := hws
  obtain ⟨_, _, _, heq⟩ := hframe.decodeComponents hbegin (Nat.zero_le _) [] coeffs
  rw [List.append_nil] at heq
  exact congrArg FrameDecoding.ok heq

/-- A square frame, none of whose planes is compressed. -/
def rawFrame (num size : ℕ) (dst : FwhtRawFrame) (width stride : ℕ) : FrameDecodeParams where
  data := fun _ => 0
  size := size
  hdrFlags := 0x3f0
  componentsNum := num
  width := width
  height := width
  ref := none
  refFrame := dst
  refStride := stride
  refChromaStride := stride
  dst := dst
  dstStride := stride
  dstChromaStride := stride

/-- Samples of 24 bits: red, green and blue. -/
def interleavedFrame : FrameDecodeParams :=
  rawFrame 3 192 ⟨1, 1, 3, 3, 3, fun c => match c with | .luma => 1 | .cb => 2 | .cr | .alpha => 0⟩ 8 24

/-- Grey samples, as many as make the product of width and height wrap. -/
def hugeFrame : FrameDecodeParams := rawFrame 1 64 ⟨1, 1, 1, 0, 1, fun _ => 0⟩ 65536 65536

/-- **A plane of `2 ^ 32` samples that is not compressed is read from behind the payload.** -/
theorem not_safe_huge : ¬SafeDecoding hugeFrame (Block.ofFn fun _ _ => 0) := fun hsafe =>
  absurd ((boundedAt_of_reads hsafe.reads).head rfl (by decide)) (by decide)

end Vicodec
end TbsMedia
