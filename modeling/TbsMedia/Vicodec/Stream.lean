import Mathlib.Data.List.GetD
import TbsMedia.Lib.BitFields
import TbsMedia.Vicodec.Layout
import TbsMedia.Vicodec.RunLength

/-!
# The stream of a plane

What `encode_plane` writes are groups of a block and the number of times that it is repeated.  The loops of
`decode_plane` take the groups apart again.

* `Group`: a block in the stream with its duplicates.
* `Streams`: the words that have been written, as groups.
* `encodeBlocks_streams`: the loops of the encoder write the blocks they code.
* `decodeBlocks_codes`: the loops of the decoder store what the blocks in the stream stand for.
-/

namespace TbsMedia
namespace Vicodec

open Lib

/-! ## Groups -/

/-- A block in the stream: its type, its coefficients and how often it is repeated. -/
structure Group where
  blocktype : Blocktype
  coeffs : Block
  dups : ℕ

/-- The header counts the duplicates from bit 1 on. -/
def Group.header (g : Group) : ℕ := Vicodec.header g.blocktype + 2 * g.dups

def Group.words (g : Group) : List ℕ := g.header :: rlcPayload g.coeffs.scan

/-- The blocks that a group stands for. -/
def Group.expand (g : Group) : List (Blocktype × Block) :=
  List.replicate (g.dups + 1) (g.blocktype, g.coeffs)

/-- The counter has twelve bits, and so have the coefficients. -/
structure Group.Valid (g : Group) : Prop where
  dups_le : g.dups ≤ 4095
  inRange : ∀ y x, InRange (g.coeffs.at y x)

theorem header_cases (t : Blocktype) : t = .pblock ∧ header t = 32768 ∨ t = .iblock ∧ header t = 0 := by
  cases t
  · exact Or.inl ⟨rfl, rfl⟩
  · exact Or.inr ⟨rfl, rfl⟩

theorem pframe_iff (x : ℕ) : x &&& PFRAME_BIT = 0 ↔ x / 2 ^ 15 % 2 = 0 :=
  land_eq_zero_iff (show PFRAME_BIT = 2 ^ 15 from rfl) x

theorem header_pframe (t : Blocktype) : header t &&& PFRAME_BIT ≠ 0 ↔ t = .pblock := by
  cases t <;> decide

variable {g : Group}

theorem Group.Valid.header_lt (h : g.Valid) : g.header < 65536 := by
  have := h.dups_le
  unfold Group.header
  rcases header_cases g.blocktype with ⟨-, ht⟩ | ⟨-, ht⟩ <;> omega

/-- The type of a block is found in its header. -/
theorem Group.Valid.header_pframe (h : g.Valid) :
    g.header &&& PFRAME_BIT = 0 ↔ Vicodec.header g.blocktype &&& PFRAME_BIT = 0 := by
  have := h.dups_le
  rw [pframe_iff, pframe_iff]
  unfold Group.header
  rcases header_cases g.blocktype with ⟨-, ht⟩ | ⟨-, ht⟩ <;> rw [ht] <;> omega

/-- No header says that the input has run out. -/
theorem Group.Valid.header_overflow (h : g.Valid) : g.header &&& OVERFLOW_BIT = 0 := by
  have hzero : g.header / 2 ^ 14 % 2 = 0 := by
    have := h.dups_le
    unfold Group.header
    rcases header_cases g.blocktype with ⟨-, ht⟩ | ⟨-, ht⟩ <;> omega
  exact (land_eq_zero_iff (show OVERFLOW_BIT = 2 ^ 14 from rfl) _).2 hzero

/-- The number of duplicates is found in the header. -/
theorem Group.Valid.header_dups (h : g.Valid) : (g.header &&& DUPS_MASK) >>> 1 = g.dups := by
  rw [land_shiftRight (show DUPS_MASK >>> 1 = 2 ^ 12 - 1 from rfl)]
  have := h.dups_le
  unfold Group.header
  rcases header_cases g.blocktype with ⟨-, ht⟩ | ⟨-, ht⟩ <;> omega

/-- The conditions under which `encode_plane` counts a duplicate. -/
theorem Group.Valid.count_iff (h : g.Valid) {t : Blocktype} :
    (g.header ^^^ Vicodec.header t) &&& PFRAME_BIT = 0 ∧ g.header &&& DUPS_MASK < DUPS_MASK →
      g.blocktype = t ∧ g.dups < 4095 := by
  rintro ⟨htype, hdups⟩
  have hle := h.dups_le
  constructor
  · rw [Nat.and_xor_distrib_right, Nat.xor_eq_zero_iff] at htype
    have hiff : g.blocktype = .pblock ↔ t = .pblock := by
      rw [← Vicodec.header_pframe, ← Vicodec.header_pframe, Ne, ← h.header_pframe, htype]
    cases hg : g.blocktype <;> cases t <;> simp_all
  · have hdiv := h.header_dups
    rw [Nat.shiftRight_eq_div_pow] at hdiv
    unfold DUPS_MASK at hdups
    unfold DUPS_MASK at hdiv
    omega

/-! ## Words in a buffer -/

theorem encodeRuns_lt (cnt : ℕ) (l : List ℤ) : ∀ w ∈ encodeRuns cnt l, w < 65536 := by
  have hword : ∀ (n : ℕ) (v : ℤ), runWord n v < 65536 := fun n v => by
    unfold runWord
    omega
  induction l generalizing cnt with
  | nil => simp [encodeRuns]
  | cons v l ih =>
    intro w hw
    rw [encodeRuns] at hw
    split_ifs at hw
    · rw [List.mem_singleton.1 hw]
      exact hword cnt 0
    · exact ih _ w hw
    · rcases List.mem_cons.1 hw with rfl | hw
      · exact hword cnt v
      · exact ih 0 w hw

theorem rlcPayload_lt (l : List ℤ) : ∀ w ∈ rlcPayload l, w < 65536 := by
  intro w hw
  unfold rlcPayload at hw
  rcases List.mem_append.1 hw with hw | hw
  · exact encodeRuns_lt _ _ w hw
  · split_ifs at hw
    · rw [List.mem_singleton.1 hw]
      decide
    · simp at hw

theorem Group.Valid.words_lt (h : g.Valid) : ∀ w ∈ g.words, w < 65536 := by
  intro w hw
  rcases List.mem_cons.1 hw with rfl | hw
  · exact h.header_lt
  · exact rlcPayload_lt _ w hw

/-- The buffer that has the bytes of these words. -/
def payloadMem (ws : List ℕ) : Mem UInt8 := .ofList 0 (payloadBytes ws)

theorem ntohs_payloadMem {ws : List ℕ} {i w : ℕ} (hi : ws[i]? = some w) (hw : w < 65536) :
    ntohs (payloadMem ws) i = w := by
  obtain ⟨hhi, hlo⟩ := payloadBytes_getElem? ws i
  rw [hi, Option.map_some] at hhi hlo
  unfold ntohs payloadMem Mem.ofList
  rw [List.getD_eq_getElem?_getD, List.getD_eq_getElem?_getD, hhi, hlo, Option.getD_some,
    Option.getD_some, UInt8.toNat_ofNat', UInt8.toNat_ofNat']
  omega

/-- **The words of a payload are read back from its bytes.** -/
theorem reads_payloadMem {ws : List ℕ} (h : ∀ w ∈ ws, w < 65536) : Reads (payloadMem ws) 0 ws := by
  have hsuffix : ∀ (front back : List ℕ), front ++ back = ws → Reads (payloadMem ws) front.length back := by
    intro front back
    induction back generalizing front with
    | nil => exact fun _ => Reads.nil _
    | cons w back ih =>
      intro heq
      refine Reads.cons (ntohs_payloadMem ?_ (h w (by rw [← heq]; simp))) ?_
      · rw [← heq, List.getElem?_append_right (le_refl _), Nat.sub_self]
        rfl
      · have hrest := ih (front ++ [w]) (by rw [List.append_assoc]; exact heq)
        rwa [List.length_append, List.length_singleton] at hrest
  exact hsuffix [] ws rfl

/-- **Different blocks have different words.** -/
theorem rlcPayload_inj {b c : Block} (hb : ∀ y x, InRange (b.at y x)) (hc : ∀ y x, InRange (c.at y x))
    (h : rlcPayload b.scan = rlcPayload c.scan) : b = c := by
  have hlt : ∀ w ∈ 0 :: rlcPayload b.scan, w < 65536 := by
    intro w hw
    rcases List.mem_cons.1 hw with rfl | hw
    · decide
    · exact rlcPayload_lt _ w hw
  have hend : ((0 + (0 :: rlcPayload b.scan).length : ℕ) : ℤ) ≤ (rlcPayload b.scan).length + 1 := by
    rw [Nat.zero_add, List.length_cons]
    exact (Nat.cast_succ _).le
  have hbout := (derlc_rlc hb b rfl (reads_payloadMem hlt) hend).2.1
  have hcout := (derlc_rlc hc b h (reads_payloadMem hlt) hend).2.1
  exact hbout.symm.trans hcout

/-! ## What the encoder writes -/

/-- Behind the words `front` there are groups, which stand for the blocks `codes`; the last of them has
`lastSize` words. -/
structure Streams (front rlco : List ℕ) (lastSize : ℕ) (codes : List (Blocktype × Block))
    (gs : List Group) : Prop where
  valid : ∀ g ∈ gs, g.Valid
  words : rlco = front ++ gs.flatMap Group.words
  expand : gs.flatMap Group.expand = codes
  last : gs = [] ∧ lastSize = 0 ∨ ∃ init g, gs = init ++ [g] ∧ lastSize = g.words.length

theorem Streams.start (front : List ℕ) : Streams front front 0 [] [] :=
  ⟨by simp, by simp, rfl, Or.inl ⟨rfl, rfl⟩⟩

variable {front rlco : List ℕ} {lastSize : ℕ} {codes : List (Blocktype × Block)} {gs : List Group}

/-- A block written behind the others. -/
theorem Streams.append (h : Streams front rlco lastSize codes gs) (t : Blocktype) {c : Block}
    (hc : ∀ y x, InRange (c.at y x)) :
    Streams front (rlco ++ rlc c t) (rlc c t).length (codes ++ [(t, c)]) (gs ++ [⟨t, c, 0⟩]) := by
  refine ⟨fun g hg => ?_, ?_, ?_, Or.inr ⟨gs, ⟨t, c, 0⟩, rfl, rfl⟩⟩
  · rcases List.mem_append.1 hg with hg | hg
    · exact h.valid g hg
    · rw [List.mem_singleton.1 hg]
      exact ⟨Nat.zero_le _, hc⟩
  · rw [h.words, List.flatMap_append, List.append_assoc]
    simp [Group.words, Group.header, rlc]
  · rw [List.flatMap_append, h.expand]
    simp [Group.expand]

/-- A block counted as a duplicate of the last one. -/
theorem Streams.count {init : List Group} (h : Streams front rlco lastSize codes (init ++ [g]))
    (hdups : g.dups < 4095) :
    Streams front (rlco.set (rlco.length - g.words.length) ((g.header + 2) % 65536)) g.words.length
      (codes ++ [(g.blocktype, g.coeffs)]) (init ++ [{ g with dups := g.dups + 1 }]) := by
  have hg := h.valid g (by simp)
  refine ⟨fun g' hg' => ?_, ?_, ?_, Or.inr ⟨init, _, rfl, rfl⟩⟩
  · rcases List.mem_append.1 hg' with hg' | hg'
    · exact h.valid g' (List.mem_append_left _ hg')
    · rw [List.mem_singleton.1 hg']
      exact ⟨hdups, hg.inRange⟩
  · have hheader : (g.header + 2) % 65536 = header g.blocktype + 2 * (g.dups + 1) := by
      unfold Group.header
      rcases header_cases g.blocktype with ⟨-, ht⟩ | ⟨-, ht⟩ <;> omega
    rw [h.words, List.flatMap_append, List.flatMap_singleton, List.flatMap_append, List.flatMap_singleton,
      ← List.append_assoc, List.length_append, Nat.add_sub_cancel, List.set_append_right _ _ (le_refl _),
      Nat.sub_self, hheader, List.append_assoc]
    rfl
  · rw [← h.expand, List.flatMap_append, List.flatMap_append, List.append_assoc]
    refine congrArg (init.flatMap Group.expand ++ ·) ?_
    rw [List.flatMap_singleton, List.flatMap_singleton]
    exact List.replicate_succ'

/-- **What `encode_plane` writes for a block stands for one more block.** -/
theorem Streams.emit (h : Streams front rlco lastSize codes gs) (t : Blocktype) {c : Block}
    (hc : ∀ y x, InRange (c.at y x)) :
    ∃ gs', Streams front (emit rlco lastSize (rlc c t)) (rlc c t).length (codes ++ [(t, c)]) gs' := by
  unfold Vicodec.emit
  dsimp only
  by_cases hsame : lastSize = (rlc c t).length ∧
      rlco.drop (rlco.length - (rlc c t).length + 1) = (rlc c t).drop 1
  · rw [if_pos hsame]
    obtain ⟨hsize, hdrop⟩ := hsame
    rcases h.last with ⟨-, hzero⟩ | ⟨init, g, rfl, hlast⟩
    · exact absurd (hsize.symm.trans hzero) (Nat.succ_ne_zero _)
    · have hg := h.valid g (by simp)
      have hwords : rlco = (front ++ init.flatMap Group.words) ++ g.words := by
        rw [h.words, List.flatMap_append, List.flatMap_singleton, List.append_assoc]
      have hpos : rlco.length - (rlc c t).length = (front ++ init.flatMap Group.words).length := by
        rw [← hsize, hlast, hwords, List.length_append, Nat.add_sub_cancel]
      have hhdr : rlco.getD (rlco.length - (rlc c t).length) 0 = g.header := by
        rw [hpos, hwords, List.getD_append_right _ _ _ _ (le_refl _), Nat.sub_self]
        rfl
      rw [hhdr]
      split_ifs with hcount
      · obtain ⟨rfl, hdups⟩ := hg.count_iff hcount
        have hcoeffs : g.coeffs = c := by
          refine rlcPayload_inj hg.inRange hc ?_
          rw [hpos, hwords, List.drop_append, List.drop_of_length_le (Nat.le_succ _), List.nil_append,
            Nat.add_sub_cancel_left] at hdrop
          exact hdrop
        have hlen : (rlc c g.blocktype).length = g.words.length := hsize.symm.trans hlast
        rw [← hcoeffs] at hlen ⊢
        rw [hlen]
        exact ⟨_, h.count hdups⟩
      · exact ⟨_, h.append t hc⟩
  · rw [if_neg hsame]
    exact ⟨_, h.append t hc⟩

/-! ## One block of the encoder -/

/-- Block number `k` of a plane as it is coded against a reference. -/
def EncodeParams.code (p : EncodeParams) (columns : ℕ) (ref : Mem UInt8) (k : ℕ) : CodedBlock :=
  codeBlock p (blockAddr p.inputStart p.stride p.inputStep columns k) ref (64 * k)

variable {p : EncodeParams} {columns : ℕ}

theorem decideBlocktype_bounds (m : Mem UInt8) (cur stride inputStep : ℕ) (ref : Mem UInt8)
    (reference : ℕ) (y x : Fin 8) :
    -255 ≤ (decideBlocktype m cur stride inputStep ref reference).2.at y x ∧
      (decideBlocktype m cur stride inputStep ref reference).2.at y x ≤ 255 := by
  have hlt := (m (sampleAddr cur stride inputStep y x)).toNat_lt
  have hlt' := (ref (sampleAddr reference 8 1 y x)).toNat_lt
  unfold decideBlocktype fillEncoderBlock
  simp only [Block.at_ofFn]
  rw [s16_eq (by omega) (by omega)]
  omega

/-- **All coefficients that are coded have twelve bits.** -/
theorem code_inRange (ref : Mem UInt8) (k : ℕ) (y x : Fin 8) :
    InRange ((p.code columns ref k).coeffs.at y x) := by
  unfold EncodeParams.code codeBlock
  dsimp only
  split_ifs
  · exact codedIntra_inRange _ _ _ _ _ y x
  · exact codedInter_inRange (decideBlocktype_bounds _ _ _ _ _ _) _ y x
  · exact codedIntra_inRange _ _ _ _ _ y x
  · exact codedInter_inRange (decideBlocktype_bounds _ _ _ _ _ _) _ y x

theorem codeBlock_pblock {input refp : ℕ} {ref : Mem UInt8}
    (h : (codeBlock p input ref refp).blocktype = .pblock) :
    ∃ coeff, codeBlock p input ref refp =
      ⟨.pblock, (quantizeInter p.pFrameQp coeff).1, (quantizeInter p.pFrameQp coeff).2⟩ := by
  unfold codeBlock at h ⊢
  dsimp only at h ⊢
  rw [h, if_neg (by decide)]
  exact ⟨_, rfl⟩

theorem codeBlock_iblock {input refp : ℕ} {ref : Mem UInt8}
    (h : (codeBlock p input ref refp).blocktype = .iblock) :
    ∃ coeff, codeBlock p input ref refp =
      ⟨.iblock, (quantizeIntra p.iFrameQp coeff).1, (quantizeIntra p.iFrameQp coeff).2⟩ := by
  unfold codeBlock at h ⊢
  dsimp only at h ⊢
  rw [h, if_pos rfl]
  exact ⟨_, rfl⟩

/-- What the encoder reconstructs from is what the decoder will reconstruct from. -/
theorem code_deCoeffs (ref : Mem UInt8) (k : ℕ) :
    (p.code columns ref k).deCoeffs =
      if (p.code columns ref k).blocktype = .pblock then dequantizeInter (p.code columns ref k).coeffs
      else dequantizeIntra (p.code columns ref k).coeffs := by
  unfold EncodeParams.code
  cases hcase : (codeBlock p (blockAddr p.inputStart p.stride p.inputStep columns k) ref
      (64 * k)).blocktype with
  | pblock =>
    obtain ⟨coeff, heq⟩ := codeBlock_pblock hcase
    rw [if_pos rfl, heq]
    exact (dequantize_quantize _ _ _).symm
  | iblock =>
    obtain ⟨coeff, heq⟩ := codeBlock_iblock hcase
    rw [if_neg (by decide), heq]
    exact (dequantize_quantize _ _ _).symm

/-- Intra frames have intra blocks only. -/
theorem code_isIntra (h : p.isIntra = true) (ref : Mem UInt8) (k : ℕ) :
    (p.code columns ref k).blocktype = .iblock :=
  if_pos h

/-! ## The reference frame of the encoder -/

/-- Where the reference plane keeps a sample of block number `k`. -/
def refCell (k : ℕ) (y x : Fin 8) : ℕ := 64 * k + 8 * y + x

theorem refCell_inj {k k' : ℕ} {y y' x x' : Fin 8} (h : refCell k y x = refCell k' y' x') :
    k = k' ∧ y = y' ∧ x = x' := by
  unfold refCell at h
  have hy := y.isLt
  have hy' := y'.isLt
  have hx := x.isLt
  have hx' := x'.isLt
  exact ⟨by omega, Fin.ext (by omega), Fin.ext (by omega)⟩

theorem sampleAddr_ref (k : ℕ) (y x : Fin 8) : sampleAddr (64 * k) 8 1 y x = refCell k y x := by
  unfold sampleAddr refCell
  have hsub : u32Sub 8 (8 * 1) = 0 := by decide
  rw [hsub]
  omega

/-- The stores of one block in the reference plane. -/
theorem mem_fillRef {k a : ℕ} {b : Block} {v : UInt8} :
    (a, v) ∈ fillDecoderBlock (64 * k) b 8 1 ↔
      ∃ y x : Fin 8, refCell k y x = a ∧ clampSample (b.at y x) = v := by
  unfold fillDecoderBlock
  simp only [List.mem_flatMap, List.mem_map, List.mem_finRange, true_and, Prod.mk.injEq, sampleAddr_ref]

theorem nodup_fillRef (k : ℕ) (b : Block) : ((fillDecoderBlock (64 * k) b 8 1).map Prod.fst).Nodup := by
  have heq : (fillDecoderBlock (64 * k) b 8 1).map Prod.fst =
      (List.finRange 8 ×ˢ List.finRange 8).map fun q => refCell k q.1 q.2 := by
    unfold fillDecoderBlock
    simp only [SProd.sprod, List.product, List.map_flatMap, List.map_map, sampleAddr_ref]
    rfl
  rw [heq]
  refine ((List.nodup_finRange 8).product (List.nodup_finRange 8)).map fun q q' h => ?_
  obtain ⟨-, hy, hx⟩ := refCell_inj h
  exact Prod.ext hy hx

theorem encodeBlock_ref_self (hnext : p.nextIsIntra = false) (s : EncodeState) (k : ℕ) (y x : Fin 8) :
    (encodeBlock p columns s k).ref (refCell k y x) =
      clampSample (((p.code columns s.ref k).deFwht s.ref (64 * k)).at y x) := by
  unfold encodeBlock
  dsimp only
  rw [if_neg (by rw [hnext]; exact Bool.false_ne_true)]
  exact Mem.storeAll_of_mem (nodup_fillRef _ _) (mem_fillRef.2 ⟨y, x, rfl, rfl⟩)

/-- A block leaves the other blocks of the reference plane alone. -/
theorem encodeBlock_ref_of_ne (s : EncodeState) {k j : ℕ} (hj : j ≠ k) (y x : Fin 8) :
    (encodeBlock p columns s k).ref (refCell j y x) = s.ref (refCell j y x) := by
  unfold encodeBlock
  dsimp only
  split_ifs
  · rfl
  · refine Mem.storeAll_of_notMem fun hmem => ?_
    obtain ⟨⟨a, v⟩, hav, ha⟩ := List.mem_map.1 hmem
    obtain ⟨y', x', hcell, -⟩ := mem_fillRef.1 hav
    exact hj (refCell_inj (ha.symm.trans hcell.symm)).1

/-- A block looks at its own part of the reference plane. -/
theorem fillEncoderBlock_ref_congr {ref ref' : Mem UInt8} {k : ℕ}
    (h : ∀ y x, ref (refCell k y x) = ref' (refCell k y x)) :
    fillEncoderBlock ref (64 * k) 8 1 = fillEncoderBlock ref' (64 * k) 8 1 := by
  unfold fillEncoderBlock
  refine congrArg Block.ofFn (funext fun y => funext fun x => ?_)
  rw [sampleAddr_ref, h]

theorem code_congr {ref ref' : Mem UInt8} {k : ℕ} (h : ∀ y x, ref (refCell k y x) = ref' (refCell k y x)) :
    p.code columns ref k = p.code columns ref' k := by
  unfold EncodeParams.code codeBlock decideBlocktype
  rw [fillEncoderBlock_ref_congr h]

theorem deFwht_congr (b : CodedBlock) {ref ref' : Mem UInt8} {k : ℕ}
    (h : ∀ y x, ref (refCell k y x) = ref' (refCell k y x)) :
    b.deFwht ref (64 * k) = b.deFwht ref' (64 * k) := by
  unfold CodedBlock.deFwht addDeltas
  dsimp only
  split_ifs
  · refine congrArg Block.ofFn (funext fun y => funext fun x => ?_)
    rw [sampleAddr_ref, h]
  · rfl

/-! ## The loops of the encoder -/

/-- A block as it appears in the stream. -/
def EncodeParams.coded (p : EncodeParams) (columns : ℕ) (ref : Mem UInt8) (k : ℕ) : Blocktype × Block :=
  ((p.code columns ref k).blocktype, (p.code columns ref k).coeffs)

theorem encodeBlock_streams {s : EncodeState} (h : Streams front s.rlco s.lastSize codes gs) (k : ℕ) :
    ∃ gs', Streams front (encodeBlock p columns s k).rlco (encodeBlock p columns s k).lastSize
      (codes ++ [p.coded columns s.ref k]) gs' :=
  h.emit _ fun y x => @code_inRange p columns s.ref k y x

/-- **Loops that run to their end write all blocks**, each coded against the reference that there was in
front of the loops. -/
theorem encodeBlocks_streams {rlcoMax : ℤ} {ks : List ℕ} (hnd : ks.Nodup) {s s' : EncodeState}
    (h : encodeBlocks p columns rlcoMax ks s = (false, s'))
    (hs : Streams front s.rlco s.lastSize codes gs) :
    ∃ gs', Streams front s'.rlco s'.lastSize (codes ++ ks.map (p.coded columns s.ref)) gs' := by
  induction ks generalizing s codes gs with
  | nil =>
    obtain rfl : s = s' := congrArg Prod.snd h
    exact ⟨gs, by simpa using hs⟩
  | cons k ks ih =>
    rw [List.nodup_cons] at hnd
    rw [encodeBlocks] at h
    split_ifs at h
    · exact absurd (congrArg Prod.fst h) Bool.false_ne_true.symm
    · obtain ⟨gs₁, hs₁⟩ : ∃ gs', Streams front (encodeBlock p columns s k).rlco
          (encodeBlock p columns s k).lastSize (codes ++ [p.coded columns s.ref k]) gs' :=
        encodeBlock_streams hs k
      obtain ⟨gs₂, hs₂⟩ := ih hnd.2 h hs₁
      have hmap : ks.map (p.coded columns (encodeBlock p columns s k).ref) =
          ks.map (p.coded columns s.ref) := by
        refine List.map_congr_left fun j hj => ?_
        have hne : j ≠ k := fun heq => hnd.1 (heq ▸ hj)
        unfold EncodeParams.coded
        rw [code_congr (encodeBlock_ref_of_ne s hne)]
      rw [hmap, List.append_assoc] at hs₂
      exact ⟨gs₂, hs₂⟩

/-- The loops leave the blocks that they do not code alone. -/
theorem encodeBlocks_ref_of_notMem {rlcoMax : ℤ} {ks : List ℕ} {s : EncodeState} {j : ℕ} (hj : j ∉ ks)
    (y x : Fin 8) : (encodeBlocks p columns rlcoMax ks s).2.ref (refCell j y x) = s.ref (refCell j y x) := by
  induction ks generalizing s with
  | nil => rfl
  | cons k ks ih =>
    rw [List.mem_cons, not_or] at hj
    have hstep := @encodeBlock_ref_of_ne p columns s _ _ hj.1 y x
    rw [encodeBlocks]
    split_ifs
    · exact hstep
    · exact (ih hj.2).trans hstep

/-- **Loops that run to their end reconstruct all blocks.** -/
theorem encodeBlocks_ref (hnext : p.nextIsIntra = false) {rlcoMax : ℤ} {ks : List ℕ} (hnd : ks.Nodup)
    {s s' : EncodeState} (h : encodeBlocks p columns rlcoMax ks s = (false, s')) {k : ℕ} (hk : k ∈ ks)
    (y x : Fin 8) : s'.ref (refCell k y x) =
      clampSample (((p.code columns s.ref k).deFwht s.ref (64 * k)).at y x) := by
  induction ks generalizing s with
  | nil => simp at hk
  | cons j ks ih =>
    rw [List.nodup_cons] at hnd
    rw [encodeBlocks] at h
    split_ifs at h
    · exact absurd (congrArg Prod.fst h) Bool.false_ne_true.symm
    · rcases List.mem_cons.1 hk with rfl | hk
      · have hlast := @encodeBlocks_ref_of_notMem p columns rlcoMax _ (encodeBlock p columns s k) _
          hnd.1 y x
        rw [h] at hlast
        exact hlast.trans (encodeBlock_ref_self hnext s k y x)
      · have hne : k ≠ j := fun heq => hnd.1 (heq ▸ hk)
        have hsame := @encodeBlock_ref_of_ne p columns s _ _ hne
        rw [ih hnd.2 h hk, code_congr hsame, deFwht_congr _ hsame]

/-! ## The loops of the decoder -/

variable {q : DecodeParams}

/-- What the decoder stores for a block of the stream. -/
def DecodeParams.blockOf (q : DecodeParams) (columns k : ℕ) (code : Blocktype × Block) : Block :=
  q.predict (header code.1) columns k (q.reconstruct (header code.1) code.2)

theorem reconstruct_congr {stat stat' : ℕ} (h : stat &&& PFRAME_BIT = 0 ↔ stat' &&& PFRAME_BIT = 0)
    (c : Block) : q.reconstruct stat c = q.reconstruct stat' c := by
  unfold DecodeParams.reconstruct DecodeParams.isInter
  simp only [ne_eq, h]

theorem predict_congr {stat stat' : ℕ} (h : stat &&& PFRAME_BIT = 0 ↔ stat' &&& PFRAME_BIT = 0)
    (columns k : ℕ) (c : Block) : q.predict stat columns k c = q.predict stat' columns k c := by
  unfold DecodeParams.predict
  simp only [ne_eq, h]

/-- A copy is stored. -/
theorem decodeBlock_copy {s : DecodeState} {t : Blocktype} {c : Block} {n : ℕ} (hn : s.copies = n + 1)
    (hcopy : s.copy = q.reconstruct (header t) c)
    (hstat : s.stat &&& PFRAME_BIT = 0 ↔ header t &&& PFRAME_BIT = 0) (k : ℕ) :
    ∃ s', decodeBlock q columns s k = (true, s') ∧ s'.rlco = s.rlco ∧ s'.copies = n ∧ s'.stat = s.stat ∧
      s'.copy = s.copy ∧ s'.writes = s.writes ++ q.fill columns k (q.blockOf columns k (t, c)) := by
  refine ⟨_, decodeBlock_of_copies q columns k (by omega), rfl, ?_, rfl, rfl, ?_⟩
  · rw [hn]
    rfl
  · rw [hcopy, predict_congr hstat]
    rfl

/-- The first block of a group is decoded and stored. -/
theorem decodeBlock_group {s : DecodeState} {g : Group} (hg : g.Valid) (hcopies : s.copies = 0)
    (hwords : Reads q.data s.rlco g.words)
    (hend : ((s.rlco + g.words.length : ℕ) : ℤ) ≤ q.endOfRlcoBuf + 1) (k : ℕ) :
    ∃ s', decodeBlock q columns s k = (true, s') ∧ s'.rlco = s.rlco + g.words.length ∧
      s'.copies = g.dups ∧ s'.stat = g.header ∧
      (s'.copies ≠ 0 → s'.copy = q.reconstruct (header g.blocktype) g.coeffs) ∧
      s'.writes = s.writes ++ q.fill columns k (q.blockOf columns k (g.blocktype, g.coeffs)) := by
  obtain ⟨hstat, hout, hin⟩ := derlc_rlc hg.inRange s.coeffs rfl hwords hend
  have hblock := decodeBlock_of_coded q columns k hcopies rfl
    (not_not.2 ((congrArg (· &&& OVERFLOW_BIT) hstat).trans hg.header_overflow))
  rw [hstat, hout, hin, hg.header_dups] at hblock
  refine ⟨_, hblock, rfl, rfl, rfl, fun h => ?_, ?_⟩
  · exact (if_pos h).trans (reconstruct_congr hg.header_pframe _)
  · dsimp only
    rw [predict_congr hg.header_pframe, reconstruct_congr hg.header_pframe]
    rfl

/-- **The loops of the decoder store what the blocks in the stream stand for**, the first of which may be
copies of a block that has been decoded before. -/
theorem decodeBlocks_codes {ks : List ℕ} {s : DecodeState} (t : Blocktype) (c : Block) {gs : List Group}
    (hcopy : s.copies ≠ 0 → s.copy = q.reconstruct (header t) c ∧
      (s.stat &&& PFRAME_BIT = 0 ↔ header t &&& PFRAME_BIT = 0))
    (hvalid : ∀ g ∈ gs, g.Valid) (hwords : Reads q.data s.rlco (gs.flatMap Group.words))
    (hend : ((s.rlco + (gs.flatMap Group.words).length : ℕ) : ℤ) ≤ q.endOfRlcoBuf + 1)
    (hlen : ks.length = (List.replicate s.copies (t, c) ++ gs.flatMap Group.expand).length) :
    (decodeBlocks q columns ks s).1 = true ∧
      (decodeBlocks q columns ks s).2.rlco = s.rlco + (gs.flatMap Group.words).length ∧
      (decodeBlocks q columns ks s).2.writes = s.writes ++
        (ks.zip (List.replicate s.copies (t, c) ++ gs.flatMap Group.expand)).flatMap fun z =>
          q.fill columns z.1 (q.blockOf columns z.1 z.2) := by
  induction ks generalizing s t c gs with
  | nil =>
    have hnil : List.replicate s.copies (t, c) ++ gs.flatMap Group.expand = [] :=
      List.eq_nil_of_length_eq_zero hlen.symm
    obtain rfl : gs = [] := by
      cases gs with
      | nil => rfl
      | cons g gs => simp [Group.expand] at hnil
    exact ⟨rfl, rfl, by simp [decodeBlocks]⟩
  | cons k ks ih =>
    cases hcopies : s.copies with
    | zero =>
      rw [hcopies] at hlen
      cases gs with
      | nil => simp at hlen
      | cons g gs =>
        have hg := hvalid g List.mem_cons_self
        rw [List.flatMap_cons] at hwords hend
        rw [List.length_append] at hend
        obtain ⟨hgwords, hrest⟩ := reads_append.1 hwords
        obtain ⟨s', hblock, hrlco, hdups, hstat, hcopy', hwrites⟩ :=
          @decodeBlock_group columns q _ _ hg hcopies hgwords
            (by push_cast at hend ⊢; omega) k
        obtain ⟨hok, hpos, hlog⟩ := ih (s := s') g.blocktype g.coeffs
          (fun h => ⟨hcopy' h, by rw [hstat]; exact hg.header_pframe⟩)
          (fun g' hg' => hvalid g' (List.mem_cons_of_mem _ hg')) (by rwa [hrlco])
          (by rw [hrlco]; push_cast at hend ⊢; omega)
          (by simp only [List.flatMap_cons, Group.expand, List.length_append, List.length_replicate,
                List.length_cons] at hlen ⊢
              omega)
        rw [decodeBlocks_cons_of_ok hblock]
        refine ⟨hok, ?_, ?_⟩
        · rw [hpos, hrlco, List.flatMap_cons, List.length_append, Nat.add_assoc]
        · rw [hlog, hwrites, hdups, List.append_assoc]
          rfl
    | succ n =>
      obtain ⟨hcopy₁, hstat₁⟩ := hcopy (by omega)
      obtain ⟨s', hblock, hrlco, hn, hstat, hcopy', hwrites⟩ :=
        @decodeBlock_copy columns q _ _ _ _ hcopies hcopy₁ hstat₁ k
      obtain ⟨hok, hpos, hlog⟩ := ih (s := s') t c
        (fun _ => ⟨by rw [hcopy', hcopy₁], by rw [hstat]; exact hstat₁⟩) hvalid (by rwa [hrlco])
        (by rwa [hrlco])
        (by rw [hcopies] at hlen
            simp only [List.length_append, List.length_replicate, List.length_cons] at hlen ⊢
            omega)
      rw [decodeBlocks_cons_of_ok hblock]
      refine ⟨hok, by rw [hpos, hrlco], ?_⟩
      rw [hlog, hwrites, hn, List.append_assoc]
      rfl

end Vicodec
end TbsMedia
