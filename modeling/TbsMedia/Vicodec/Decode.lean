import TbsMedia.Vicodec.Encode

/-!
# The frame decoder of FWHT

`decode_plane` reads one block after the other, and stores a block again as often as its header says.
What the decoder reads of the payload and what it stores in the frame is logged.

* `decodeBlock`, `decodeBlocks`: the two loops of `decode_plane`.
* `decodePlane`: `decode_plane`, with the planes that are copied.
* `fwhtDecodeFrame`: `fwht_decode_frame`.
-/

namespace TbsMedia
namespace Vicodec

open Lib

def FWHT_FL_LUMA_IS_UNCOMPRESSED : ℕ := 4
def FWHT_FL_CB_IS_UNCOMPRESSED : ℕ := 5
def FWHT_FL_CR_IS_UNCOMPRESSED : ℕ := 6
def FWHT_FL_CHROMA_FULL_HEIGHT : ℕ := 7
def FWHT_FL_CHROMA_FULL_WIDTH : ℕ := 8
def FWHT_FL_ALPHA_IS_UNCOMPRESSED : ℕ := 9
def FWHT_FL_I_FRAME : ℕ := 10

/-! ## Blocks -/

/-- A plane in a buffer: its pointer, `stride` and `step`. -/
structure Plane where
  base : ℕ
  stride : ℕ
  step : ℕ

/-- What `decode_plane` is called with: the payload, the word `end_of_rlco_buf`, the buffer of the
reference frame and the layout of the plane in both frames. -/
structure DecodeParams where
  data : Mem UInt8
  endOfRlcoBuf : ℤ
  ref : Option (Mem UInt8)
  refPlane : Plane
  dst : Plane

/-- The state of the loops. -/
structure DecodeState where
  rlco : ℕ
  coeffs : Block
  copies : ℕ
  copy : Block
  stat : ℕ
  reads : List ℕ
  writes : List (ℕ × UInt8)

/-- `(stat & PFRAME_BIT) && !is_intra`. -/
def DecodeParams.isInter (p : DecodeParams) (stat : ℕ) : Bool :=
  stat &&& PFRAME_BIT ≠ 0 && p.ref.isSome

/-- The deltas of an inter block added to the reference. -/
def DecodeParams.predict (p : DecodeParams) (stat columns k : ℕ) (deFwht : Block) : Block :=
  match p.ref with
  | some ref =>
    if stat &&& PFRAME_BIT ≠ 0 then
      addDeltas deFwht ref (blockAddr p.refPlane.base p.refPlane.stride p.refPlane.step columns k)
        p.refPlane.stride p.refPlane.step
    else deFwht
  | none => deFwht

/-- The stores of block number `k`. -/
def DecodeParams.fill (p : DecodeParams) (columns k : ℕ) (deFwht : Block) : List (ℕ × UInt8) :=
  fillDecoderBlock (blockAddr p.dst.base p.dst.stride p.dst.step columns k) deFwht p.dst.stride p.dst.step

/-- What `ifwht` makes of the coefficients of a block. -/
def DecodeParams.reconstruct (p : DecodeParams) (stat : ℕ) (coeffs : Block) : Block :=
  ifwht (if p.isInter stat then dequantizeInter coeffs else dequantizeIntra coeffs) (!p.isInter stat)

/-- The body of the loops, and whether they go on. -/
def decodeBlock (p : DecodeParams) (columns : ℕ) (s : DecodeState) (k : ℕ) : Bool × DecodeState :=
  if s.copies ≠ 0 then
    (true, { s with
      copies := s.copies - 1
      writes := s.writes ++ p.fill columns k (p.predict s.stat columns k s.copy) })
  else
    let d := derlc p.data s.rlco s.coeffs p.endOfRlcoBuf
    if d.stat &&& OVERFLOW_BIT ≠ 0 then
      (false, { s with rlco := d.rlcIn, coeffs := d.dwhtOut, stat := d.stat, reads := s.reads ++ d.reads })
    else
      let deFwht := p.reconstruct d.stat d.dwhtOut
      let copies := (d.stat &&& DUPS_MASK) >>> 1
      (true,
        { rlco := d.rlcIn
          coeffs := d.dwhtOut
          copies := copies
          copy := if copies ≠ 0 then deFwht else s.copy
          stat := d.stat
          reads := s.reads ++ d.reads
          writes := s.writes ++ p.fill columns k (p.predict d.stat columns k deFwht) })

theorem decodeBlock_of_copies (p : DecodeParams) (columns k : ℕ) {s : DecodeState} (h : s.copies ≠ 0) :
    decodeBlock p columns s k = (true, { s with
      copies := s.copies - 1
      writes := s.writes ++ p.fill columns k (p.predict s.stat columns k s.copy) }) :=
  if_pos h

theorem decodeBlock_of_overflow (p : DecodeParams) (columns k : ℕ) {s : DecodeState} {d : Derlc}
    (h : s.copies = 0) (hd : derlc p.data s.rlco s.coeffs p.endOfRlcoBuf = d)
    (hover : d.stat &&& OVERFLOW_BIT ≠ 0) :
    decodeBlock p columns s k = (false, { s with
      rlco := d.rlcIn
      coeffs := d.dwhtOut
      stat := d.stat
      reads := s.reads ++ d.reads }) := by
  subst hd
  exact (if_neg (not_not.2 h)).trans (if_pos hover)

theorem decodeBlock_of_coded (p : DecodeParams) (columns k : ℕ) {s : DecodeState} {d : Derlc}
    (h : s.copies = 0) (hd : derlc p.data s.rlco s.coeffs p.endOfRlcoBuf = d)
    (hover : ¬d.stat &&& OVERFLOW_BIT ≠ 0) :
    decodeBlock p columns s k = (true,
      { rlco := d.rlcIn
        coeffs := d.dwhtOut
        copies := (d.stat &&& DUPS_MASK) >>> 1
        copy := if (d.stat &&& DUPS_MASK) >>> 1 ≠ 0 then p.reconstruct d.stat d.dwhtOut else s.copy
        stat := d.stat
        reads := s.reads ++ d.reads
        writes := s.writes ++
          p.fill columns k (p.predict d.stat columns k (p.reconstruct d.stat d.dwhtOut)) }) := by
  subst hd
  exact (if_neg (not_not.2 h)).trans (if_neg hover)

/-- The loops over the blocks, and whether none of them has run out of input. -/
def decodeBlocks (p : DecodeParams) (columns : ℕ) : List ℕ → DecodeState → Bool × DecodeState
  | [], s => (true, s)
  | k :: ks, s =>
    let r := decodeBlock p columns s k
    if r.1 then decodeBlocks p columns ks r.2 else r

theorem decodeBlocks_cons_of_ok {p : DecodeParams} {columns k : ℕ} {s s' : DecodeState}
    (h : decodeBlock p columns s k = (true, s')) (ks : List ℕ) :
    decodeBlocks p columns (k :: ks) s = decodeBlocks p columns ks s' := by
  rw [decodeBlocks, h]
  exact if_pos rfl

theorem decodeBlocks_cons_of_overflow {p : DecodeParams} {columns k : ℕ} {s s' : DecodeState}
    (h : decodeBlock p columns s k = (false, s')) (ks : List ℕ) :
    decodeBlocks p columns (k :: ks) s = (false, s') := by
  rw [decodeBlocks, h]
  exact if_neg Bool.false_ne_true

/-! ## Planes and frames -/

/-- What `decode_plane` returns and stores. -/
structure PlaneDecoding where
  ok : Bool
  rlco : ℕ
  coeffs : Block
  reads : List ℕ
  writes : List (ℕ × UInt8)

/-- The rows of a plane that is not compressed: `memcpy(dst, *rlco, width)`. -/
def copyRows (p : DecodeParams) (rlco height width : ℕ) : List (ℕ × ℕ) :=
  (List.range height).flatMap fun i => (List.range width).map fun c =>
    (p.dst.base + i * p.dst.stride + c, 2 * (rlco + i * (width / 2)) + c)

def decodePlane (p : DecodeParams) (rlco : ℕ) (coeffs : Block) (height width : ℕ) (uncompressed : Bool) :
    PlaneDecoding :=
  let width := roundUp8 width
  let height := roundUp8 height
  if uncompressed then
    if p.endOfRlcoBuf + 1 < rlco + (u32 (width * height) / 2 : ℕ) then ⟨false, rlco, coeffs, [], []⟩
    else
      let rows := copyRows p rlco height width
      ⟨true, rlco + height * (width / 2), coeffs, rows.map Prod.snd,
        rows.map fun r => (r.1, p.data r.2)⟩
  else
    let r := decodeBlocks p (width / 8) (List.range (height / 8 * (width / 8)))
      ⟨rlco, coeffs, 0, coeffs, 0, [], []⟩
    ⟨r.1, r.2.rlco, r.2.coeffs, r.2.reads, r.2.writes⟩

/-- The arguments of `fwht_decode_frame`: the payload `cf->rlc_data`, of which `cf->size` bytes are
valid, and the contents of the reference frame, if there is one. -/
structure FrameDecodeParams where
  data : Mem UInt8
  size : ℕ
  hdrFlags : ℕ
  componentsNum : ℕ
  width : ℕ
  height : ℕ
  ref : Option (Mem UInt8)
  refFrame : FwhtRawFrame
  refStride : ℕ
  refChromaStride : ℕ
  dst : FwhtRawFrame
  dstStride : ℕ
  dstChromaStride : ℕ

/-- The plane of a frame with these strides. -/
def FwhtRawFrame.planeOf (frm : FwhtRawFrame) (stride chromaStride : ℕ) (c : Component) : Plane where
  base := frm.plane c
  stride := if c.isChroma then chromaStride else stride
  step := frm.step c

/-- Width and height of a plane. -/
def FrameDecodeParams.planeSize (p : FrameDecodeParams) (c : Component) : ℕ × ℕ :=
  if c.isChroma then
    (if p.hdrFlags.testBit FWHT_FL_CHROMA_FULL_WIDTH then p.width else p.width / 2,
     if p.hdrFlags.testBit FWHT_FL_CHROMA_FULL_HEIGHT then p.height else p.height / 2)
  else (p.width, p.height)

/-- The flag that says that a plane is not compressed. -/
def uncompressedFlag : Component → ℕ
  | .luma => FWHT_FL_LUMA_IS_UNCOMPRESSED
  | .cb => FWHT_FL_CB_IS_UNCOMPRESSED
  | .cr => FWHT_FL_CR_IS_UNCOMPRESSED
  | .alpha => FWHT_FL_ALPHA_IS_UNCOMPRESSED

def FrameDecodeParams.uncompressed (p : FrameDecodeParams) (c : Component) : Bool :=
  p.hdrFlags.testBit (uncompressedFlag c)

/-- The word `cf->rlc_data + cf->size / 2 - 1`. -/
def FrameDecodeParams.endOfRlcoBuf (p : FrameDecodeParams) : ℤ := (p.size / 2 : ℕ) - 1

/-- The plane of the frame that is decoded. -/
def FrameDecodeParams.dstPlane (p : FrameDecodeParams) (c : Component) : Plane :=
  p.dst.planeOf p.dstStride p.dstChromaStride c

/-- The arguments of `decode_plane` for a plane. -/
def FrameDecodeParams.plane (p : FrameDecodeParams) (c : Component) : DecodeParams where
  data := p.data
  endOfRlcoBuf := p.endOfRlcoBuf
  ref := p.ref
  refPlane := p.refFrame.planeOf p.refStride p.refChromaStride c
  dst := p.dstPlane c

/-- `decode_plane` on one plane of the frame. -/
def decodeComponent (p : FrameDecodeParams) (c : Component) (rlco : ℕ) (coeffs : Block) : PlaneDecoding :=
  decodePlane (p.plane c) rlco coeffs (p.planeSize c).2 (p.planeSize c).1 (p.uncompressed c)

/-- What `fwht_decode_frame` returns, reads of the payload, and stores in the planes. -/
structure FrameDecoding where
  ok : Bool
  reads : List ℕ
  writes : List (Component × ℕ × UInt8)

/-- The planes of a frame one after the other, up to the first that cannot be decoded. -/
def decodeComponents (p : FrameDecodeParams) : List Component → ℕ → Block → FrameDecoding
  | [], _, _ => ⟨true, [], []⟩
  | c :: cs, rlco, coeffs =>
    let r := decodeComponent p c rlco coeffs
    if r.ok then
      let f := decodeComponents p cs r.rlco r.coeffs
      ⟨f.ok, r.reads ++ f.reads, r.writes.map (Prod.mk c) ++ f.writes⟩
    else ⟨false, r.reads, r.writes.map (Prod.mk c)⟩

/-- `coeffs` is what `cf->coeffs` holds at the call. -/
def fwhtDecodeFrame (p : FrameDecodeParams) (coeffs : Block) : FrameDecoding :=
  decodeComponents p (components p.componentsNum) 0 coeffs

end Vicodec
end TbsMedia
