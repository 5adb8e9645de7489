import Mathlib
import TbsMedia.Lib.Stores
import TbsMedia.Vicodec.DecodeSafety
import TbsMedia.Vicodec.Plane

/-!
# Planes that are not compressed

Where a plane does not get smaller, `encode_plane` copies its samples one by one and skips the others, but
`decode_plane` copies whole rows back and knows nothing of the step between the samples.

* `decodeComponents_raw`: a frame of which no plane has been compressed is decoded.
* `Opposite`: an encoder and a decoder for the same frames, each with its own buffer.
* `RoundTrips`: whatever the frame is, its visible samples come back.
* `roundTrips_iff`: this is so for the formats whose samples are adjacent.
-/

namespace TbsMedia
namespace Vicodec

open Lib

/-! ## Rows -/

section Rows

variable {α : Type*} (f : ℕ → ℕ → α) (height width : ℕ)

/-- The values of `f`, row by row. -/
def rowsOf : List α := (List.range height).flatMap fun j => (List.range width).map (f j)

theorem rowsOf_succ : rowsOf f (height + 1) width = rowsOf f height width ++ (List.range width).map (f height) := by
  unfold rowsOf
  rw [List.range_succ, List.flatMap_append, List.flatMap_singleton]

theorem length_rowsOf : (rowsOf f height width).length = height * width := by
  induction height with
  | zero => exact (Nat.zero_mul _).symm
  | succ height ih => rw [rowsOf_succ, List.length_append, ih, List.length_map, List.length_range, Nat.succ_mul]

theorem map_rowsOf {β : Type*} (g : α → β) :
    (rowsOf f height width).map g = rowsOf (fun j i => g (f j i)) height width := by
  unfold rowsOf
  rw [List.map_flatMap]
  simp only [List.map_map]
  rfl

variable {f height width} in
theorem rowsOf_congr {g : ℕ → ℕ → α} (h : ∀ j < height, ∀ i < width, f j i = g j i) :
    rowsOf f height width = rowsOf g height width := by
  unfold rowsOf
  refine List.flatMap_congr fun j hj => List.map_congr_left fun i hi => ?_
  exact h j (List.mem_range.mp hj) i (List.mem_range.mp hi)

variable {f height width} in
theorem mem_rowsOf {x : α} : x ∈ rowsOf f height width ↔ ∃ j < height, ∃ i < width, f j i = x := by
  unfold rowsOf
  simp only [List.mem_flatMap, List.mem_map, List.mem_range]

variable {f height width} in
theorem nodup_rowsOf (h : ∀ j < height, ∀ i < width, ∀ j' < height, ∀ i' < width, f j i = f j' i' → j = j' ∧ i = i') :
    (rowsOf f height width).Nodup := by
  have heq : rowsOf f height width = (List.range height ×ˢ List.range width).map fun q => f q.1 q.2 := by
    unfold rowsOf
    simp only [SProd.sprod, List.product, List.map_flatMap, List.map_map]
    rfl
  rw [heq]
  refine List.Nodup.map_on ?_ (List.nodup_range.product List.nodup_range)
  rintro ⟨j, i⟩ hq ⟨j', i'⟩ hq' hsame
  obtain ⟨hj, hi⟩ := List.pair_mem_product.mp hq
  obtain ⟨hj', hi'⟩ := List.pair_mem_product.mp hq'
  obtain ⟨rfl, rfl⟩ := h j (List.mem_range.mp hj) i (List.mem_range.mp hi) j' (List.mem_range.mp hj') i'
    (List.mem_range.mp hi') hsame
  rfl

theorem getElem?_rowsOf {height width j i : ℕ} (hj : j < height) (hi : i < width) :
    (rowsOf f height width)[j * width + i]? = some (f j i) := by
  induction height with
  | zero => exact absurd hj (Nat.not_lt_zero j)
  | succ height ih =>
    rw [rowsOf_succ]
    rcases Nat.lt_succ_iff_lt_or_eq.mp hj with hlt | rfl
    · have hrow : j * width + width ≤ height * width := by
        rw [← Nat.succ_mul]
        exact Nat.mul_le_mul_right _ hlt
      rw [List.getElem?_append_left (by rw [length_rowsOf]; omega), ih hlt]
    · rw [List.getElem?_append_right (by rw [length_rowsOf]; omega), length_rowsOf, Nat.add_sub_cancel_left,
        List.getElem?_map, List.getElem?_range hi]
      rfl

end Rows

/-! ## Bytes in words -/

theorem beWords_cons (hi lo : UInt8) (bs : List UInt8) :
    beWords (hi :: lo :: bs) = (hi.toNat * 256 + lo.toNat) :: beWords bs := by
  rw [beWords]

/-- **An even number of bytes comes back from the words.** -/
theorem payloadBytes_beWords {bs : List UInt8} (h : 2 ∣ bs.length) : payloadBytes (beWords bs) = bs := by
  induction bs using beWords.induct with
  | case1 hi lo bs ih =>
    have hlo := lo.toNat_lt
    have hdiv : (hi.toNat * 256 + lo.toNat) / 256 = hi.toNat := by omega
    have hbyte : UInt8.ofNat (hi.toNat * 256 + lo.toNat) = lo := by
      rw [← UInt8.toNat_inj, UInt8.toNat_ofNat']
      omega
    rw [List.length_cons, List.length_cons] at h
    have htail := ih (by omega)
    unfold payloadBytes at htail ⊢
    rw [beWords_cons, List.flatMap_cons, htail, hdiv, hbyte, UInt8.ofNat_toNat]
    rfl
  | case2 bs hshort =>
    rcases bs with - | ⟨b, - | ⟨lo, bs⟩⟩
    · rfl
    · rw [List.length_singleton] at h
      exact absurd h (by decide)
    · exact absurd rfl (hshort b lo bs)

theorem payloadBytes_flatMap {β : Type*} (l : List β) (g : β → List ℕ) :
    payloadBytes (l.flatMap g) = l.flatMap fun b => payloadBytes (g b) := by
  unfold payloadBytes
  rw [List.flatMap_assoc]

theorem length_payloadBytes_words (ws : List ℕ) : (payloadBytes ws).length = 2 * ws.length := by
  unfold payloadBytes
  induction ws with
  | nil => rfl
  | cons w ws ih =>
    rw [List.flatMap_cons, List.length_append, ih, List.length_cons]
    simp only [List.length_cons, List.length_nil]
    omega

/-! ## One plane -/

/-- What a sample becomes in the copy of its plane. -/
def rawSample (v : UInt8) : UInt8 := if v = 0xff then 0xfe else v

theorem rawBytes_eq (p : EncodeParams) (height width : ℕ) :
    rawBytes p height width =
      rowsOf (fun j i => rawSample (p.input (p.inputStart + j * p.stride + i * p.inputStep))) height width := rfl

theorem encodePlane_raw {p : EncodeParams} {ref : Mem UInt8} {rlco : List ℕ} {rlcoMax : ℤ} {height width : ℕ}
    (h : (encodePlane p ref rlco rlcoMax height width).unencoded = true) :
    (encodePlane p ref rlco rlcoMax height width).rlco =
      rlco ++ beWords (rawBytes p (roundUp8 height) (roundUp8 width)) := by
  unfold encodePlane at h ⊢
  dsimp only at h ⊢
  split_ifs at h ⊢
  rfl

/-- **A plane that is copied**: the rows are stored as they are. -/
theorem decodePlane_raw {q : DecodeParams} {rlco height width : ℕ} {g : ℕ → ℕ → UInt8} (coeffs : Block)
    (hlt : roundUp8 width * roundUp8 height < 2 ^ 32)
    (hread : q.data.read (2 * rlco) (roundUp8 height * roundUp8 width) =
      rowsOf g (roundUp8 height) (roundUp8 width))
    (hend : ((2 * rlco + roundUp8 height * roundUp8 width : ℕ) : ℤ) ≤ 2 * (q.endOfRlcoBuf + 1)) :
    (decodePlane q rlco coeffs height width true).ok = true ∧
      2 * (decodePlane q rlco coeffs height width true).rlco = 2 * rlco + roundUp8 height * roundUp8 width ∧
      (decodePlane q rlco coeffs height width true).writes =
        rowsOf (fun j i => (q.dst.base + j * q.dst.stride + i, g j i)) (roundUp8 height) (roundUp8 width) := by
  obtain ⟨m, hm⟩ : 2 ∣ roundUp8 width := dvd_trans (by decide) (eight_dvd_roundUp8 width)
  have hhalf : roundUp8 width / 2 = m := by omega
  have harea : roundUp8 height * roundUp8 width = 2 * (roundUp8 height * m) := by
    rw [hm]
    ring
  have hwords : roundUp8 width * roundUp8 height / 2 = roundUp8 height * m := by
    rw [Nat.mul_comm, harea]
    omega
  have hcheck : ¬ q.endOfRlcoBuf + 1 < rlco + (u32 (roundUp8 width * roundUp8 height) / 2 : ℕ) := by
    rw [u32, Nat.mod_eq_of_lt hlt, hwords]
    rw [harea] at hend
    push_cast at hend ⊢
    linarith
  unfold decodePlane
  dsimp only
  rw [if_pos rfl, if_neg hcheck]
  refine ⟨rfl, ?_, ?_⟩
  · dsimp only
    rw [hhalf, harea]
    ring
  · change (rowsOf _ _ _).map _ = _
    rw [map_rowsOf]
    refine rowsOf_congr fun j hj i hi => Prod.ext rfl ?_
    have hrow : j * roundUp8 width + roundUp8 width ≤ roundUp8 height * roundUp8 width := by
      rw [← Nat.succ_mul]
      exact Nat.mul_le_mul_right _ hj
    have hbyte := congrArg (fun l => l[j * roundUp8 width + i]?) hread
    rw [Mem.getElem?_read _ _ _ _ (by omega), getElem?_rowsOf _ hj hi] at hbyte
    have haddr : 2 * (rlco + j * (roundUp8 width / 2)) + i = 2 * rlco + (j * roundUp8 width + i) := by
      rw [hhalf, hm]
      ring
    dsimp only
    rw [haddr]
    exact Option.some.inj hbyte

/-! ## All planes -/

variable {P : FrameParams} {Q : FrameDecodeParams} {cs : List Component} {s : FrameEncoding}

/-- What is to come back of a plane. -/
def FrameParams.raw (P : FrameParams) (c : Component) (j i : ℕ) : UInt8 :=
  rawSample (P.input ((P.plane c).inputStart + j * (P.plane c).stride + i * (P.plane c).inputStep))

/-- The bytes that a plane is copied to. -/
def FrameParams.rawPlane (P : FrameParams) (c : Component) : List UInt8 :=
  rowsOf (P.raw c) (roundUp8 (P.size c).2) (roundUp8 (P.size c).1)

/-- What the decoder stores of a plane. -/
def rawStores (P : FrameParams) (Q : FrameDecodeParams) (c : Component) : List (ℕ × UInt8) :=
  rowsOf (fun j i => ((Q.dstPlane c).base + j * (Q.dstPlane c).stride + i, P.raw c j i))
    (roundUp8 (P.size c).2) (roundUp8 (P.size c).1)

theorem length_rawPlane (P : FrameParams) (c : Component) :
    (P.rawPlane c).length = roundUp8 (P.size c).2 * roundUp8 (P.size c).1 := length_rowsOf ..

theorem payloadBytes_rawPlane (P : FrameParams) (c : Component) :
    payloadBytes (beWords (P.rawPlane c)) = P.rawPlane c := by
  refine payloadBytes_beWords ?_
  rw [length_rawPlane]
  exact dvd_trans (by decide) (dvd_mul_of_dvd_right (eight_dvd_roundUp8 _) _)

/-- **What a frame is encoded to** if no plane gets smaller. -/
theorem encodeAll_raw (hnd : cs.Nodup) (hraw : ∀ c ∈ cs, (P.encodeAll cs s).unencoded c = true) :
    (P.encodeAll cs s).rlco = s.rlco ++ cs.flatMap fun c => beWords (P.rawPlane c) := by
  induction cs generalizing s with
  | nil => exact (List.append_nil _).symm
  | cons c cs ih =>
    rw [List.nodup_cons] at hnd
    have hself : (encodeComponent P s c).unencoded c = (planeEncoding P s c).unencoded :=
      Function.update_self _ _ _
    have hun : (planeEncoding P s c).unencoded = true := by
      rw [← hself, ← (@encodeAll_of_notMem P cs (encodeComponent P s c) c hnd.1).2]
      exact hraw c List.mem_cons_self
    have hrlco : (encodeComponent P s c).rlco = s.rlco ++ beWords (P.rawPlane c) := encodePlane_raw hun
    rw [encodeAll_cons, ih hnd.2 fun d hd => hraw d (List.mem_cons_of_mem _ hd), hrlco, List.flatMap_cons,
      List.append_assoc]

/-- **A frame of which no plane has been compressed is decoded**: the rows of the planes are stored one after
the other. -/
theorem decodeComponents_raw {pos : ℕ} (hsize : ∀ c ∈ cs, Q.planeSize c = P.size c)
    (hraw : ∀ c ∈ cs, Q.uncompressed c = true)
    (hlt : ∀ c ∈ cs, roundUp8 (P.size c).1 * roundUp8 (P.size c).2 < 2 ^ 32)
    (hread : Q.data.read (2 * pos) (cs.flatMap P.rawPlane).length = cs.flatMap P.rawPlane)
    (hend : ((2 * pos + (cs.flatMap P.rawPlane).length : ℕ) : ℤ) ≤ 2 * (Q.endOfRlcoBuf + 1)) (coeffs : Block) :
    (decodeComponents Q cs pos coeffs).ok = true ∧
      (decodeComponents Q cs pos coeffs).writes = cs.flatMap fun c => (rawStores P Q c).map (Prod.mk c) := by
  induction cs generalizing pos coeffs with
  | nil => exact ⟨rfl, rfl⟩
  | cons c cs ih =>
    rw [List.flatMap_cons] at hread hend
    rw [List.length_append] at hend
    obtain ⟨hfirst, hrest⟩ := (Mem.read_eq_append_iff List.length_append).mp hread
    have hlen := length_rawPlane P c
    have hdec : decodeComponent Q c pos coeffs =
        decodePlane (Q.plane c) pos coeffs (P.size c).2 (P.size c).1 true := by
      unfold decodeComponent
      rw [hsize c List.mem_cons_self, hraw c List.mem_cons_self]
    rw [hlen] at hfirst
    obtain ⟨hok, hpos, hwrites⟩ := @decodePlane_raw (Q.plane c) pos (P.size c).2 (P.size c).1 (P.raw c) coeffs
      (hlt c List.mem_cons_self) hfirst (le_trans (by rw [← hlen]; push_cast; omega) hend)
    rw [← hdec] at hok hpos hwrites
    rw [← hlen] at hpos
    obtain ⟨hok', hwrites'⟩ := @ih (decodeComponent Q c pos coeffs).rlco
      (fun d hd => hsize d (List.mem_cons_of_mem _ hd)) (fun d hd => hraw d (List.mem_cons_of_mem _ hd))
      (fun d hd => hlt d (List.mem_cons_of_mem _ hd)) (by rw [hpos]; exact hrest)
      (by rw [hpos, Nat.add_assoc]; exact hend) (decodeComponent Q c pos coeffs).coeffs
    rw [decodeComponents]
    dsimp only
    rw [if_pos hok]
    refine ⟨hok', ?_⟩
    dsimp only
    rw [hwrites', hwrites]
    rfl

/-- Where the samples of every plane are adjacent, each of them is found in the memory behind the stores. -/
theorem storeAll_rawStores (hnd : cs.Nodup) {height width : Component → ℕ}
    (hsize : ∀ c ∈ cs, roundUp8 (P.size c).2 = height c ∧ roundUp8 (P.size c).1 = width c)
    (hfit : ∀ c ∈ cs, (Q.dstPlane c).Fits (height c) (width c))
    (hapart : ∀ c ∈ cs, ∀ c' ∈ cs, c ≠ c' → (Q.dstPlane c).Apart (height c) (Q.dstPlane c') (height c'))
    (hstep : ∀ c ∈ cs, (Q.dstPlane c).step = 1) (m : Mem UInt8) {c : Component} (hc : c ∈ cs) {r col : ℕ}
    (hr : r < height c) (hcol : col < width c) :
    m.storeAll (cs.flatMap (rawStores P Q)) ((Q.dstPlane c).addr r col) = P.raw c r col := by
  have hstores : ∀ d ∈ cs, rawStores P Q d =
      rowsOf (fun j i => ((Q.dstPlane d).addr j i, P.raw d j i)) (height d) (width d) := by
    intro d hd
    unfold rawStores Plane.addr
    rw [hstep d hd, (hsize d hd).1, (hsize d hd).2]
    simp only [mul_one]
  have haddr : ∀ d ∈ cs, (rawStores P Q d).map Prod.fst =
      rowsOf (fun j i => (Q.dstPlane d).addr j i) (height d) (width d) := by
    intro d hd
    rw [hstores d hd, map_rowsOf]
  refine Mem.storeAll_of_mem ?_ (List.mem_flatMap.mpr ⟨c, hc, ?_⟩)
  · rw [List.map_flatMap, List.nodup_flatMap]
    refine ⟨fun d hd => ?_, hnd.imp_of_mem fun {d d'} hd hd' hne => ?_⟩
    · rw [haddr d hd]
      refine nodup_rowsOf fun j _ i hi j' _ i' hi' hsame => ?_
      exact Plane.addr_inj (hfit d hd).step_pos (hfit d hd).row hi hi' hsame
    · rw [Function.onFun, haddr d hd, haddr d' hd', List.disjoint_left]
      intro a ha ha'
      obtain ⟨j, hj, i, hi, rfl⟩ := mem_rowsOf.mp ha
      obtain ⟨j', hj', i', hi', hsame⟩ := mem_rowsOf.mp ha'
      exact (hapart d hd d' hd' hne).addr_ne (hfit d hd).step_pos (hfit d hd).row (hfit d' hd').step_pos
        (hfit d' hd').row hj hi hj' hi' hsame.symm
  · rw [hstores c hc]
    exact mem_rowsOf.mpr ⟨r, hr, col, hcol, rfl⟩

/-! ## Encoder and decoder -/

/-- An encoder and a decoder for frames of one format and size, each with a buffer of its own. -/
structure Opposite (enc dec : V4l2FwhtState) (B B' : Buffer) : Prop where
  fmt_eq : B'.fmt = B.fmt
  encoder_info : enc.info = some B.fmt
  decoder_info : dec.info = some B.fmt
  encoder_stride : enc.stride = B.stride
  encoder_codedHeight : enc.codedHeight = B.height
  decoder_stride : dec.stride = B'.stride
  decoder_codedHeight : dec.codedHeight = B'.height
  width_eq : dec.visibleWidth = enc.visibleWidth
  height_eq : dec.visibleHeight = enc.visibleHeight
  encoder_width_le : enc.visibleWidth ≤ B.width
  encoder_height_le : enc.visibleHeight ≤ B.height
  decoder_width_le : enc.visibleWidth ≤ B'.width
  decoder_height_le : enc.visibleHeight ≤ B'.height

/-- Every plane of the frame falls back to the uncompressed form. -/
def AllRaw (enc : V4l2FwhtState) (fmt : PixelFormat) (pIn : Mem UInt8) : Prop :=
  ∀ c ∈ components fmt.info.componentsNum,
    (fwhtEncodeFrame (enc.frameParams fmt pIn) enc.refFrame).unencoded c = true

/-- The frame is decoded, and its visible samples are where they have been, except that 0xfe stands for 0xff. -/
def ComesBack (enc dec : V4l2FwhtState) (B B' : Buffer) (pIn pOut : Mem UInt8) (coeffs : Block) : Prop :=
  ∃ e, v4l2FwhtEncode enc pIn = some e ∧
    (v4l2FwhtDecode { dec with header := e.header } (payloadMem e.rlco) pOut coeffs).ok = true ∧
    ∀ c ∈ components B.fmt.info.componentsNum,
      ∀ r < (B.fmt.planeSize enc.visibleWidth enc.visibleHeight c).2,
      ∀ col < (B.fmt.planeSize enc.visibleWidth enc.visibleHeight c).1,
        (v4l2FwhtDecode { dec with header := e.header } (payloadMem e.rlco) pOut coeffs).out
          ((B'.plane c).addr r col) = rawSample (pIn ((B.plane c).addr r col))

/-- Every frame of the format of which no plane is compressed comes back. -/
def RoundTrips (fmt : PixelFormat) : Prop :=
  ∀ (enc dec : V4l2FwhtState) (B B' : Buffer) (pIn pOut : Mem UInt8) (coeffs : Block), B.fmt = fmt →
    Opposite enc dec B B' → AllRaw enc fmt pIn → ComesBack enc dec B B' pIn pOut coeffs

variable {enc dec : V4l2FwhtState} {B B' : Buffer} {pIn pOut : Mem UInt8}

/-- What the encoder copies are the samples in its buffer. -/
theorem Opposite.raw_eq (h : Opposite enc dec B B') (pIn : Mem UInt8) (c : Component) (j i : ℕ) :
    (enc.frameParams B.fmt pIn).raw c j i = rawSample (pIn ((B.plane c).addr j i)) := by
  unfold FrameParams.raw FrameParams.plane V4l2FwhtState.frameParams Buffer.plane FwhtRawFrame.planeOf Plane.addr
  dsimp only
  rw [h.encoder_stride, h.encoder_codedHeight]

theorem Opposite.dstPlane_eq (h : Opposite enc dec B B') (f : FrameEncoding) (data : Mem UInt8) (c : Component) :
    (decodeParamsOf enc dec B.fmt f data).dstPlane c = B'.plane c := by
  unfold Buffer.plane
  rw [h.fmt_eq, ← h.decoder_stride, ← h.decoder_codedHeight]
  rfl

/-- **Where the samples of every plane are adjacent, an uncompressed frame comes back.** -/
theorem Opposite.comesBack (h : Opposite enc dec B B') (hraw : AllRaw enc B.fmt pIn)
    (hstep : ∀ c ∈ components B.fmt.info.componentsNum, (B'.plane c).step = 1) (coeffs : Block) :
    ComesBack enc dec B B' pIn pOut coeffs := by
  have hnd := nodup_components B.fmt.info.componentsNum
  have hinfo' : (V4l2FwhtState.info dec) = some B.fmt := h.decoder_info
  obtain ⟨e, hencode, hheader, hrlco⟩ := v4l2FwhtEncode_of_info h.encoder_info pIn
  generalize hf : fwhtEncodeFrame (enc.frameParams B.fmt pIn) enc.refFrame = f at hheader hrlco
  obtain ⟨hok, hdiv⟩ := headerOk_cframeHdr h.width_eq h.height_eq B.fmt f
  refine ⟨e, hencode, ?_⟩
  rw [hheader, hrlco, @v4l2FwhtDecode_of_ok { dec with header := enc.cframeHdr B.fmt f } B.fmt hinfo' hok hdiv]
  -- the payload is the bytes of the planes
  have hwords : f.rlco = (components B.fmt.info.componentsNum).flatMap fun c =>
      beWords ((enc.frameParams B.fmt pIn).rawPlane c) := by
    have hall := @encodeAll_raw (enc.frameParams B.fmt pIn) _ ⟨[], enc.refFrame, false, fun _ => false⟩ hnd hraw
    rw [← hf]
    exact hall.trans (List.nil_append _)
  have hbytes : payloadBytes f.rlco =
      (components B.fmt.info.componentsNum).flatMap (enc.frameParams B.fmt pIn).rawPlane := by
    rw [hwords, payloadBytes_flatMap]
    exact List.flatMap_congr fun c _ => payloadBytes_rawPlane _ c
  have hlen := length_payloadBytes_words f.rlco
  rw [hbytes] at hlen
  have hsize : ∀ c, (enc.frameParams B.fmt pIn).size c = B.fmt.planeSize enc.visibleWidth enc.visibleHeight c :=
    fun _ => rfl
  have hend : (decodeParamsOf enc dec B.fmt f (payloadMem f.rlco)).endOfRlcoBuf = (f.rlco.length : ℤ) - 1 := by
    change ((2 * f.rlco.length / 2 : ℕ) : ℤ) - 1 = _
    rw [Nat.mul_div_cancel_left _ (by decide)]
  have hcomponents := @componentsNum_decodeParamsOf enc dec B.fmt f (payloadMem f.rlco)
  obtain ⟨hdecoded, hwrites⟩ := @decodeComponents_raw (enc.frameParams B.fmt pIn)
    (decodeParamsOf enc dec B.fmt f (payloadMem f.rlco)) (components B.fmt.info.componentsNum) 0
    (fun c _ => planeSize_decodeParamsOf h.width_eq h.height_eq f _ c)
    (fun c hc => (uncompressed_decodeParamsOf f _ c).trans (hf ▸ hraw c hc))
    (fun c hc => (Buffer.fits_planeSize h.encoder_width_le h.encoder_height_le hc).samples_lt)
    (by
      rw [← hbytes]
      exact (Mem.read_ofList 0 (by omega)).trans (List.take_of_length_le (le_refl _)))
    (by
      rw [hlen, hend]
      push_cast
      omega) coeffs
  have hframe : fwhtDecodeFrame (decodeParamsOf enc dec B.fmt f (payloadMem f.rlco)) coeffs =
      decodeComponents (decodeParamsOf enc dec B.fmt f (payloadMem f.rlco))
        (components B.fmt.info.componentsNum) 0 coeffs := by
    unfold fwhtDecodeFrame
    rw [hcomponents]
  rw [← hframe] at hdecoded hwrites
  refine ⟨hdecoded, fun c hc r hr col hcol => ?_⟩
  obtain ⟨hr', hcol'⟩ := Buffer.visible_lt h.encoder_width_le h.encoder_height_le hc hr hcol
  have hplane := fun d => h.dstPlane_eq f (payloadMem f.rlco) d
  have hstored := @storeAll_rawStores (enc.frameParams B.fmt pIn) (decodeParamsOf enc dec B.fmt f (payloadMem f.rlco))
    (components B.fmt.info.componentsNum) hnd
    (fun d => roundUp8 (B.fmt.planeSize enc.visibleWidth enc.visibleHeight d).2)
    (fun d => roundUp8 (B.fmt.planeSize enc.visibleWidth enc.visibleHeight d).1)
    (fun d _ => ⟨congrArg (fun q => roundUp8 q.2) (hsize d), congrArg (fun q => roundUp8 q.1) (hsize d)⟩)
    (fun d hd => by
      rw [hplane, ← h.fmt_eq]
      exact Buffer.fits_planeSize h.decoder_width_le h.decoder_height_le (by rw [h.fmt_eq]; exact hd))
    (fun d hd d' hd' hne => by
      rw [hplane, hplane, ← h.fmt_eq]
      exact Buffer.apart_planeSize h.decoder_width_le h.decoder_height_le (by rw [h.fmt_eq]; exact hd)
        (by rw [h.fmt_eq]; exact hd') hne)
    (fun d hd => by
      rw [hplane]
      exact hstep d hd) pOut c hc r col hr' hcol'
  rw [hplane, h.raw_eq] at hstored
  rw [← hstored]
  change pOut.storeAll (List.map Prod.snd
    (fwhtDecodeFrame (decodeParamsOf enc dec B.fmt f (payloadMem f.rlco)) coeffs).writes) _ = _
  rw [hwrites, List.map_flatMap]
  refine congrArg (fun l => pOut.storeAll l _) (List.flatMap_congr fun d _ => ?_)
  rw [List.map_map]
  exact List.map_id'' (fun _ => rfl) _

/-! ## Frames of one block -/

/-- A buffer for one block of chroma samples. -/
def smallBuffer (fmt : PixelFormat) : Buffer where
  fmt := fmt
  width := 8 * fmt.info.widthDiv
  height := 8 * fmt.info.heightDiv
  width_dvd := dvd_refl _
  height_dvd := dvd_refl _
  height_pos := by cases fmt <;> decide
  size_lt := by cases fmt <;> decide

/-- An encoder or decoder of such frames that has just been opened. -/
def smallState (fmt : PixelFormat) : V4l2FwhtState where
  info := some fmt
  visibleWidth := 8 * fmt.info.widthDiv
  visibleHeight := 8 * fmt.info.heightDiv
  codedWidth := 8 * fmt.info.widthDiv
  codedHeight := 8 * fmt.info.heightDiv
  stride := (smallBuffer fmt).stride
  refStride := (smallBuffer fmt).stride
  gopSize := 1
  gopCnt := 0
  iFrameQp := 20
  pFrameQp := 20
  colorspace := 0
  ycbcrEnc := 0
  xferFunc := 0
  quantization := 0
  refFrame := fun _ _ => 0
  refBuf := none
  header := ⟨0, 0, 0, 0, 0, 0, 0, 0, 0, 0, 0⟩

theorem opposite_small (fmt : PixelFormat) :
    Opposite (smallState fmt) (smallState fmt) (smallBuffer fmt) (smallBuffer fmt) :=
  ⟨rfl, rfl, rfl, rfl, rfl, rfl, rfl, rfl, rfl, le_refl _, le_refl _, le_refl _, le_refl _⟩

/-- The component whose samples are not adjacent. -/
def PixelFormat.spread (fmt : PixelFormat) : Component := if fmt.info.lumaAlphaStep = 1 then .cb else .luma

/-- The last column of that component in such a frame. -/
def PixelFormat.lastColumn (fmt : PixelFormat) : ℕ :=
  (fmt.planeSize (8 * fmt.info.widthDiv) (8 * fmt.info.heightDiv) fmt.spread).1 - 1

/-- Of a frame of ones that is decoded into a buffer of zeros, the last sample of a row stays zero. -/
def smallFrameLost (fmt : PixelFormat) : Bool :=
  (components fmt.info.componentsNum).all (fun c =>
      (fwhtEncodeFrame ((smallState fmt).frameParams fmt fun _ => 1) fun _ _ => 0).unencoded c) &&
    ((v4l2FwhtEncode (smallState fmt) fun _ => 1).all fun e =>
      (v4l2FwhtDecode { smallState fmt with header := e.header } (payloadMem e.rlco) (fun _ => 0)
        (Block.ofFn fun _ _ => 0)).out (((smallBuffer fmt).plane fmt.spread).addr 0 fmt.lastColumn) = 0)

/-- The formats all of whose planes have adjacent samples. -/
def adjacentFormats : List PixelFormat := [.yuv420, .yvu420, .yuv422p, .grey]

theorem smallFrameLost_of_notMem {fmt : PixelFormat} (h : fmt ∉ adjacentFormats) : smallFrameLost fmt = true := by
  cases fmt
  case yuv420 | yvu420 | yuv422p | grey => exact absurd (by decide) h
  all_goals decide +kernel

theorem step_of_mem {fmt : PixelFormat} (h : fmt ∈ adjacentFormats) (size : ℕ) :
    ∀ c ∈ components fmt.info.componentsNum, (prepareRawFrame fmt size).step c = 1 := by
  have hzero : ∀ c ∈ components fmt.info.componentsNum, (prepareRawFrame fmt 0).step c = 1 := by
    cases fmt
    case yuv420 | yvu420 | yuv422p | grey => decide
    all_goals exact absurd h (by decide)
  exact hzero

/-- In every other format there is a frame that does not come back. -/
theorem exists_lost {fmt : PixelFormat} (hnot : fmt ∉ adjacentFormats) (h : smallFrameLost fmt = true) :
    AllRaw (smallState fmt) fmt (fun _ => 1) ∧
      ¬ ComesBack (smallState fmt) (smallState fmt) (smallBuffer fmt) (smallBuffer fmt) (fun _ => 1) (fun _ => 0)
        (Block.ofFn fun _ _ => 0) := by
  have hvisible : fmt.spread ∈ components fmt.info.componentsNum ∧
      0 < (fmt.planeSize (8 * fmt.info.widthDiv) (8 * fmt.info.heightDiv) fmt.spread).2 ∧
        fmt.lastColumn < (fmt.planeSize (8 * fmt.info.widthDiv) (8 * fmt.info.heightDiv) fmt.spread).1 := by
    clear h
    cases fmt
    case yuv420 | yvu420 | yuv422p | grey => exact absurd (by decide) hnot
    all_goals decide
  unfold smallFrameLost at h
  rw [Bool.and_eq_true, List.all_eq_true] at h
  obtain ⟨hraw, hlost⟩ := h
  refine ⟨hraw, ?_⟩
  rintro ⟨e, hencode, -, hback⟩
  rw [hencode, Option.all_some, decide_eq_true_eq] at hlost
  have hsample := hback fmt.spread hvisible.1 0 hvisible.2.1 fmt.lastColumn hvisible.2.2
  rw [hlost] at hsample
  exact absurd hsample (show ¬ (0 : UInt8) = rawSample 1 by decide)

/-- **An uncompressed frame comes back** in the formats whose planes have adjacent samples, and in no other one. -/
theorem roundTrips_iff (fmt : PixelFormat) : RoundTrips fmt ↔ fmt ∈ adjacentFormats := by
  constructor
  · intro h
    by_contra hnot
    obtain ⟨hraw, hlost⟩ := exists_lost hnot (smallFrameLost_of_notMem hnot)
    exact hlost (h _ _ _ _ _ _ _ rfl (opposite_small fmt) hraw)
  · rintro hmem enc dec B B' pIn pOut coeffs rfl hopposite hraw
    refine hopposite.comesBack hraw (fun c hc => ?_) coeffs
    have hstep := step_of_mem hmem (u32 (B'.stride * B'.height)) c hc
    rw [← hopposite.fmt_eq] at hstep
    exact hstep

/-- The chroma samples of an NV12 frame do not. -/
theorem not_roundTrips_nv12 : ¬ ∀ fmt : PixelFormat, RoundTrips fmt := by
  intro h
  obtain ⟨hraw, hlost⟩ := @exists_lost .nv12 (by decide) (by decide +kernel)
  exact hlost (h .nv12 _ _ _ _ _ _ _ rfl (opposite_small .nv12) hraw)

end Vicodec
end TbsMedia
