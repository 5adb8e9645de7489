import Mathlib
import TbsMedia.Vicodec.RawPlanes

/-!
# The room that the encoder needs

`encode_plane` writes a block before it looks at the limit, and the limit comes from the size of the plane that was
asked for, not from the one that is coded.  The limit is low enough for both.

* `blocksMoments`, `planeMoments`, `frameMoments`: the values that the output pointer takes.
* `last_mem_planeMoments`: the last of them is the pointer that a plane leaves.
* `planeMoments_le`: a plane needs no more than its rounded size.
* `frameMoments_le`: nor does a frame need more than the rounded sizes of its planes.
-/

namespace TbsMedia
namespace Vicodec

open Lib

/-! ## The output pointer -/

/-- The pointer, in bytes, while a block of `size` words is written behind `n` words. -/
def blockMoments (n size : ℕ) : List ℕ := (List.range (size + 1)).map fun i => 2 * (n + i)

/-- The pointer in the loops over the blocks. -/
def blocksMoments (p : EncodeParams) (columns : ℕ) (rlcoMax : ℤ) : List ℕ → EncodeState → List ℕ
  | [], s => [2 * s.rlco.length]
  | k :: ks, s =>
    let s' := encodeBlock p columns s k
    blockMoments s.rlco.length s'.lastSize ++
      if rlcoMax ≤ s'.rlco.length then [2 * s'.rlco.length] else blocksMoments p columns rlcoMax ks s'

/-- The pointer in `encode_plane`: a plane that is copied starts again. -/
def planeMoments (p : EncodeParams) (ref : Mem UInt8) (rlco : List ℕ) (rlcoMax : ℤ) (height width : ℕ) : List ℕ :=
  let width := roundUp8 width
  let height := roundUp8 height
  let ks := List.range (height / 8 * (width / 8))
  blocksMoments p (width / 8) rlcoMax ks ⟨rlco, ref, false, 0⟩ ++
    if (encodeBlocks p (width / 8) rlcoMax ks ⟨rlco, ref, false, 0⟩).1 then
      (List.range ((rawBytes p height width).length + 1)).map (2 * rlco.length + ·)
    else []

/-- The encoder behind so many planes. -/
def FrameParams.encoded (p : FrameParams) (ref : Component → Mem UInt8) (cs : List Component) : FrameEncoding :=
  cs.foldl (encodeComponent p) ⟨[], ref, false, fun _ => false⟩

/-- The pointer in the call of `encode_plane` for a plane, behind the planes `cs`. -/
def frameMoments (p : FrameParams) (ref : Component → Mem UInt8) (cs : List Component) (c : Component) : List ℕ :=
  let s := p.encoded ref cs
  planeMoments (p.plane c) (s.ref c) s.rlco
    (s.rlco.length + (u32 ((p.size c).2 * (p.size c).1) / 2 : ℕ) - 256) (p.size c).2 (p.size c).1

/-- The size of a plane, with width and height rounded up. -/
def FrameParams.codedSize (p : FrameParams) (c : Component) : ℕ :=
  roundUp8 (p.size c).2 * roundUp8 (p.size c).1

/-- `cf->size`. -/
def FrameEncoding.size (e : FrameEncoding) : ℕ := u32 (2 * e.rlco.length)

/-! ## Blocks -/

theorem length_encodeRuns_le (cnt : ℕ) (l : List ℤ) : (encodeRuns cnt l).length ≤ l.length := by
  induction l generalizing cnt with
  | nil => exact le_rfl
  | cons v l ih =>
    rw [encodeRuns, List.length_cons]
    split_ifs
    · exact Nat.succ_le_succ (Nat.zero_le _)
    · exact (ih (cnt + 1)).trans (Nat.le_succ _)
    · exact Nat.succ_le_succ (ih 0)

/-- A block takes a header and at most one word for each of its values. -/
theorem length_rlc_le (b : Block) (t : Blocktype) : (rlc b t).length ≤ 65 := by
  have hruns (n : ℕ) : (encodeRuns 0 (b.scan.take n)).length ≤ n :=
    (length_encodeRuns_le 0 _).trans (List.length_take_le _ _)
  rw [rlc, List.length_cons, rlcPayload, List.length_append]
  have h := hruns (8 * 8 - if 14 < lastzeroRun b.scan then lastzeroRun b.scan else 0)
  split_ifs at h ⊢ with hrun
  · rw [List.length_singleton]
    omega
  · rw [List.length_nil]
    omega

theorem length_emit_le (rlco : List ℕ) (lastSize : ℕ) (words : List ℕ) :
    (emit rlco lastSize words).length ≤ rlco.length + words.length := by
  unfold emit
  dsimp only
  split_ifs
  · rw [List.length_set]
    exact Nat.le_add_right _ _
  · exact (List.length_append).le
  · exact (List.length_append).le

theorem lastSize_encodeBlock_le (p : EncodeParams) (columns : ℕ) (s : EncodeState) (k : ℕ) :
    (encodeBlock p columns s k).lastSize ≤ 65 :=
  length_rlc_le _ (codeBlock p (blockAddr p.inputStart p.stride p.inputStep columns k) s.ref (64 * k)).blocktype

theorem length_encodeBlock_le (p : EncodeParams) (columns : ℕ) (s : EncodeState) (k : ℕ) :
    (encodeBlock p columns s k).rlco.length ≤ s.rlco.length + 65 :=
  (length_emit_le _ _ _).trans (Nat.add_le_add_left (length_rlc_le _ _) _)

/-- The words stay within `B` bytes when there is room for one block behind the start and behind the limit. -/
theorem blocksMoments_le (p : EncodeParams) (columns : ℕ) {rlcoMax : ℤ} {B : ℕ} (hmax : 2 * (rlcoMax + 64) ≤ B)
    (ks : List ℕ) {s : EncodeState} (hs : 2 * (s.rlco.length + 65) ≤ B) :
    ∀ m ∈ blocksMoments p columns rlcoMax ks s, m ≤ B := by
  induction ks generalizing s with
  | nil =>
    intro m hm
    rw [blocksMoments, List.mem_singleton] at hm
    omega
  | cons k ks ih =>
    intro m hm
    have hsize := lastSize_encodeBlock_le p columns s k
    have hlen := length_encodeBlock_le p columns s k
    rw [blocksMoments] at hm
    rcases List.mem_append.mp hm with hm | hm
    · obtain ⟨i, hi, rfl⟩ := List.mem_map.mp hm
      have hlt := List.mem_range.mp hi
      omega
    · split_ifs at hm with hleft
      · rw [List.mem_singleton] at hm
        omega
      · exact ih (by omega) m hm

/-- The loops end where the pointer is last. -/
theorem last_mem_blocksMoments (p : EncodeParams) (columns : ℕ) (rlcoMax : ℤ) (ks : List ℕ) (s : EncodeState) :
    2 * (encodeBlocks p columns rlcoMax ks s).2.rlco.length ∈ blocksMoments p columns rlcoMax ks s := by
  induction ks generalizing s with
  | nil => exact List.mem_singleton_self _
  | cons k ks ih =>
    rw [encodeBlocks, blocksMoments]
    refine List.mem_append_right _ ?_
    split_ifs
    · exact List.mem_singleton_self _
    · exact ih _

/-! ## Planes -/

theorem length_rawBytes (p : EncodeParams) (height width : ℕ) : (rawBytes p height width).length = height * width := by
  rw [rawBytes_eq, length_rowsOf]

theorem two_mul_length_beWords {bs : List UInt8} (h : 2 ∣ bs.length) : 2 * (beWords bs).length = bs.length := by
  rw [← length_payloadBytes_words, payloadBytes_beWords h]

/-- **The last value of the pointer is what `encode_plane` leaves.** -/
theorem last_mem_planeMoments (p : EncodeParams) (ref : Mem UInt8) (rlco : List ℕ) (rlcoMax : ℤ) (height width : ℕ) :
    2 * (encodePlane p ref rlco rlcoMax height width).rlco.length ∈
      planeMoments p ref rlco rlcoMax height width := by
  have harea : 2 ∣ roundUp8 height * roundUp8 width :=
    ((by decide : 2 ∣ 8).trans (eight_dvd_roundUp8 height)).mul_right _
  unfold encodePlane planeMoments
  dsimp only
  split_ifs with hraw
  · refine List.mem_append_right _ (List.mem_map.mpr ⟨roundUp8 height * roundUp8 width, ?_, ?_⟩)
    · rw [length_rawBytes]
      exact List.mem_range.mpr (Nat.lt_succ_self _)
    · rw [List.length_append, Nat.mul_add, two_mul_length_beWords (by rwa [length_rawBytes]), length_rawBytes]
  · exact List.mem_append_left _ (last_mem_blocksMoments p _ rlcoMax _ _)

/-- A size of type `u32` that is rounded up does not get smaller, unless it becomes 0. -/
theorem roundUp8_eq_zero_or_le {x : ℕ} (h : x < 2 ^ 32) : roundUp8 x = 0 ∨ x ≤ roundUp8 x := by
  unfold roundUp8 u32
  omega

theorem u32_le (x : ℕ) : u32 x ≤ x := Nat.mod_le x _

/-- **A plane stays within its rounded size**, when it has room for the limit. -/
theorem planeMoments_le (p : EncodeParams) (ref : Mem UInt8) (rlco : List ℕ) {height width : ℕ}
    (hheight : height < 2 ^ 32) (hwidth : width < 2 ^ 32) (hsize : 1024 ≤ width * height) :
    ∀ m ∈ planeMoments p ref rlco (rlco.length + (u32 (height * width) / 2 : ℕ) - 256) height width,
      m ≤ 2 * rlco.length + roundUp8 height * roundUp8 width := by
  have harea : roundUp8 height * roundUp8 width = 0 ∨ height * width ≤ roundUp8 height * roundUp8 width := by
    rcases roundUp8_eq_zero_or_le hheight with hz | hle
    · exact Or.inl (by rw [hz, Nat.zero_mul])
    · rcases roundUp8_eq_zero_or_le hwidth with hz | hle'
      · exact Or.inl (by rw [hz, Nat.mul_zero])
      · exact Or.inr (Nat.mul_le_mul hle hle')
  have hu := u32_le (height * width)
  rw [Nat.mul_comm width height] at hsize
  intro m hm
  unfold planeMoments at hm
  dsimp only at hm
  rcases List.mem_append.mp hm with hm | hm
  · rcases harea with hz | hle
    · -- there is no block
      have hnone : roundUp8 height / 8 * (roundUp8 width / 8) = 0 := by
        rcases Nat.mul_eq_zero.mp hz with hz | hz <;> rw [hz]
        · exact Nat.zero_mul _
        · exact Nat.mul_zero _
      rw [hnone, List.range_zero, blocksMoments, List.mem_singleton] at hm
      exact hm.le.trans (Nat.le_add_right _ _)
    · refine blocksMoments_le p _ ?_ _ ?_ m hm
      · push_cast
        omega
      · dsimp only
        omega
  · split_ifs at hm
    · obtain ⟨i, hi, rfl⟩ := List.mem_map.mp hm
      have hlt := List.mem_range.mp hi
      rw [length_rawBytes] at hlt
      omega
    · exact absurd hm List.not_mem_nil

/-! ## Frames -/

section Frame

variable {p : FrameParams} (ref : Component → Mem UInt8)

theorem size_lt (hheight : p.height < 2 ^ 32) (hwidth : p.width < 2 ^ 32) (c : Component) :
    (p.size c).2 < 2 ^ 32 ∧ (p.size c).1 < 2 ^ 32 := by
  unfold FrameParams.size
  split_ifs
  · exact ⟨(Nat.div_le_self _ _).trans_lt hheight, (Nat.div_le_self _ _).trans_lt hwidth⟩
  · exact ⟨hheight, hwidth⟩

/-- A plane keeps to its part of the room. -/
theorem mem_frameMoments_le (hheight : p.height < 2 ^ 32) (hwidth : p.width < 2 ^ 32) (cs : List Component)
    {c : Component} (hsize : 1024 ≤ (p.size c).1 * (p.size c).2) :
    ∀ m ∈ frameMoments p ref cs c, m ≤ 2 * (p.encoded ref cs).rlco.length + p.codedSize c :=
  planeMoments_le _ _ _ (size_lt hheight hwidth c).1 (size_lt hheight hwidth c).2 hsize

theorem encoded_concat (cs : List Component) (c : Component) :
    p.encoded ref (cs ++ [c]) = encodeComponent p (p.encoded ref cs) c := by
  unfold FrameParams.encoded
  rw [List.foldl_concat]

/-- The planes need no more than their rounded sizes. -/
theorem length_encoded_le (hheight : p.height < 2 ^ 32) (hwidth : p.width < 2 ^ 32) (cs : List Component)
    (hsize : ∀ c ∈ cs, 1024 ≤ (p.size c).1 * (p.size c).2) :
    2 * (p.encoded ref cs).rlco.length ≤ (cs.map p.codedSize).sum := by
  induction cs using List.reverseRecOn with
  | nil => exact le_rfl
  | append_singleton cs c ih =>
    have hprev := ih fun c' hc' => hsize c' (List.mem_append_left _ hc')
    have hlast := mem_frameMoments_le ref hheight hwidth cs (hsize c (List.mem_append_right _ (List.mem_singleton_self c)))
      _ (last_mem_planeMoments _ _ _ _ _ _)
    rw [encoded_concat, List.map_append, List.sum_append, List.map_singleton, List.sum_singleton]
    exact hlast.trans (Nat.add_le_add_right hprev _)

/-- **The output keeps to the rounded sizes of the planes**: while a plane is coded the pointer stays within those of
the planes up to it, and `cf->size` within all of them. -/
theorem frameMoments_le (hheight : p.height < 2 ^ 32) (hwidth : p.width < 2 ^ 32)
    (hsize : ∀ c ∈ components p.frm.componentsNum, 1024 ≤ (p.size c).1 * (p.size c).2) :
    (∀ cs c cs', components p.frm.componentsNum = cs ++ c :: cs' →
      ∀ m ∈ frameMoments p ref cs c, m ≤ ((cs ++ [c]).map p.codedSize).sum) ∧
    (fwhtEncodeFrame p ref).size ≤ ((components p.frm.componentsNum).map p.codedSize).sum := by
  refine ⟨fun cs c cs' hcs m hm => ?_, ?_⟩
  · rw [hcs] at hsize
    have hprev := length_encoded_le ref hheight hwidth cs fun c' hc' => hsize c' (List.mem_append_left _ hc')
    have hlast := mem_frameMoments_le ref hheight hwidth cs (hsize c (List.mem_append_right _ List.mem_cons_self)) m hm
    rw [List.map_append, List.sum_append, List.map_singleton, List.sum_singleton]
    exact hlast.trans (Nat.add_le_add_right hprev _)
  · exact (u32_le _).trans (length_encoded_le ref hheight hwidth _ hsize)

end Frame

/-- A grey frame of 32 by 32 samples. -/
def evenFrame : FrameParams where
  input := fun _ => 0x80
  frm := ⟨1, 1, 1, 1, 1, fun _ => 0⟩
  isIntra := true
  nextIsIntra := true
  width := 32
  height := 32
  stride := 32
  chromaStride := 32
  iFrameQp := 0
  pFrameQp := 0

theorem frameMoments_le_evenFrame : (fwhtEncodeFrame evenFrame fun _ _ => 0).size ≤ 1024 :=
  (frameMoments_le (p := evenFrame) _ (by decide) (by decide) (by decide)).2

end Vicodec
end TbsMedia
