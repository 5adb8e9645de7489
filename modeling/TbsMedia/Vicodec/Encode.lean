import TbsMedia.Lib.Stores
import TbsMedia.Vicodec.Fwht

/-!
# The frame encoder of FWHT

`encode_plane` writes the blocks of a plane one behind the other.  A block that equals the one before is
counted in the header of that one.  Once the words exceed a limit the plane is written again, sample by
sample.

* `encodeBlocks`: the two loops of `encode_plane`.
* `encodePlane`: `encode_plane`, with the plane written uncompressed if the loops have given up.
* `fwhtEncodeFrame`: `fwht_encode_frame`.
-/

namespace TbsMedia
namespace Vicodec

open Lib

/-- The planes of a frame. -/
inductive Component where
  | luma | cb | cr | alpha
  deriving DecidableEq, Repr

/-- Luma and alpha have the size and the step of luma, the other two those of chroma. -/
def Component.isChroma : Component → Bool
  | .luma | .alpha => false
  | .cb | .cr => true

/-- The planes of a frame with `num` components, in the order of the stream. -/
def components (num : ℕ) : List Component :=
  [.luma] ++ (if 3 ≤ num then [.cb, .cr] else []) ++ if num = 4 then [.alpha] else []

theorem nodup_components (num : ℕ) : (components num).Nodup := by
  unfold components
  split_ifs <;> decide

/-- `struct fwht_raw_frame`, with the pointers to the planes as offsets in `buf`. -/
structure FwhtRawFrame where
  widthDiv : ℕ
  heightDiv : ℕ
  lumaAlphaStep : ℕ
  chromaStep : ℕ
  componentsNum : ℕ
  plane : Component → ℕ

/-- The distance of the samples of a plane. -/
def FwhtRawFrame.step (frm : FwhtRawFrame) (c : Component) : ℕ :=
  if c.isChroma then frm.chromaStep else frm.lumaAlphaStep

/-! ## One block -/

/-- What `encode_plane` is called with: the buffer of the input frame, the layout of the plane and the
kind of the frame. -/
structure EncodeParams where
  input : Mem UInt8
  inputStart : ℕ
  stride : ℕ
  inputStep : ℕ
  isIntra : Bool
  nextIsIntra : Bool
  iFrameQp : ℕ
  pFrameQp : ℕ

/-- The state of the loops: the words up to `*rlco`, the reference plane, `encoding`, `last_size`. -/
structure EncodeState where
  rlco : List ℕ
  ref : Mem UInt8
  pcoded : Bool
  lastSize : ℕ

/-- A block as it is coded: `blocktype`, `cf->coeffs` and `cf->de_coeffs`. -/
structure CodedBlock where
  blocktype : Blocktype
  coeffs : Block
  deCoeffs : Block

def codeBlock (p : EncodeParams) (input : ℕ) (ref : Mem UInt8) (refp : ℕ) : CodedBlock :=
  let d := decideBlocktype p.input input p.stride p.inputStep ref refp
  let blocktype := if p.isIntra then .iblock else d.1
  let q := if blocktype = .iblock then
      quantizeIntra p.iFrameQp (fwht p.input input p.stride p.inputStep true)
    else quantizeInter p.pFrameQp (fwht16 d.2)
  ⟨blocktype, q.1, q.2⟩

/-- What the encoder reconstructs from a block. -/
def CodedBlock.deFwht (b : CodedBlock) (ref : Mem UInt8) (refp : ℕ) : Block :=
  let deFwht := ifwht b.deCoeffs (b.blocktype = .iblock)
  if b.blocktype = .pblock then addDeltas deFwht ref refp 8 1 else deFwht

/-- The words of a block written at `*rlco`, or the block counted as a duplicate of the last one. -/
def emit (rlco : List ℕ) (lastSize : ℕ) (words : List ℕ) : List ℕ :=
  let size := words.length
  if lastSize = size ∧ rlco.drop (rlco.length - size + 1) = words.drop 1 then
    let lastRlco := rlco.length - size
    let hdr := rlco.getD lastRlco 0
    if (hdr ^^^ words.headD 0) &&& PFRAME_BIT = 0 ∧ hdr &&& DUPS_MASK < DUPS_MASK then
      rlco.set lastRlco ((hdr + 2) % 65536)
    else rlco ++ words
  else rlco ++ words

/-- The address of the block in row `k / columns` and column `k % columns`, for the pointer of a plane
with a stride and a step. -/
def blockAddr (base stride step columns k : ℕ) : ℕ :=
  base + u32 (k / columns * 8 * stride) + u32 (k % columns * 8 * step)

/-- The body of the loops, for the block number `k` of a plane with so many columns. -/
def encodeBlock (p : EncodeParams) (columns : ℕ) (s : EncodeState) (k : ℕ) : EncodeState :=
  let b := codeBlock p (blockAddr p.inputStart p.stride p.inputStep columns k) s.ref (64 * k)
  let words := rlc b.coeffs b.blocktype
  { rlco := emit s.rlco s.lastSize words
    ref := if p.nextIsIntra then s.ref
      else s.ref.storeAll (fillDecoderBlock (64 * k) (b.deFwht s.ref (64 * k)) 8 1)
    pcoded := s.pcoded || b.blocktype = .pblock
    lastSize := words.length }

/-- The loops over the blocks, and whether they have been left because the words have reached the
limit. -/
def encodeBlocks (p : EncodeParams) (columns : ℕ) (rlcoMax : ℤ) : List ℕ → EncodeState → Bool × EncodeState
  | [], s => (false, s)
  | k :: ks, s =>
    let s' := encodeBlock p columns s k
    if rlcoMax ≤ s'.rlco.length then (true, s') else encodeBlocks p columns rlcoMax ks s'

/-! ## Planes and frames -/

/-- The bytes that a plane is copied to when it is not compressed. -/
def rawBytes (p : EncodeParams) (height width : ℕ) : List UInt8 :=
  (List.range height).flatMap fun j => (List.range width).map fun i =>
    let v := p.input (p.inputStart + j * p.stride + i * p.inputStep)
    if v = 0xff then 0xfe else v

/-- The words that bytes are in a buffer of big-endian words. -/
def beWords : List UInt8 → List ℕ
  | hi :: lo :: bytes => (hi.toNat * 256 + lo.toNat) :: beWords bytes
  | _ => []

/-- What `encode_plane` returns and stores. -/
structure PlaneEncoding where
  rlco : List ℕ
  ref : Mem UInt8
  pcoded : Bool
  unencoded : Bool

def encodePlane (p : EncodeParams) (ref : Mem UInt8) (rlco : List ℕ) (rlcoMax : ℤ) (height width : ℕ) :
    PlaneEncoding :=
  let width := roundUp8 width
  let height := roundUp8 height
  let r := encodeBlocks p (width / 8) rlcoMax (List.range (height / 8 * (width / 8))) ⟨rlco, ref, false, 0⟩
  if r.1 then ⟨rlco ++ beWords (rawBytes p height width), r.2.ref, false, true⟩
  else ⟨r.2.rlco, r.2.ref, r.2.pcoded, false⟩

/-- What `fwht_encode_frame` returns and stores. -/
structure FrameEncoding where
  rlco : List ℕ
  ref : Component → Mem UInt8
  pcoded : Bool
  unencoded : Component → Bool

/-- The arguments of `fwht_encode_frame` and the quantisers of its `cf`. -/
structure FrameParams where
  input : Mem UInt8
  frm : FwhtRawFrame
  isIntra : Bool
  nextIsIntra : Bool
  width : ℕ
  height : ℕ
  stride : ℕ
  chromaStride : ℕ
  iFrameQp : ℕ
  pFrameQp : ℕ

/-- Width and height of a plane. -/
def FrameParams.size (p : FrameParams) (c : Component) : ℕ × ℕ :=
  if c.isChroma then (p.width / p.frm.widthDiv, p.height / p.frm.heightDiv) else (p.width, p.height)

/-- The arguments of `encode_plane` for a plane. -/
def FrameParams.plane (p : FrameParams) (c : Component) : EncodeParams where
  input := p.input
  inputStart := p.frm.plane c
  stride := if c.isChroma then p.chromaStride else p.stride
  inputStep := p.frm.step c
  isIntra := p.isIntra
  nextIsIntra := p.nextIsIntra
  iFrameQp := p.iFrameQp
  pFrameQp := p.pFrameQp

/-- The call of `encode_plane` for a plane: `rlco_max` lies 256 words below half of the samples. -/
def planeEncoding (p : FrameParams) (s : FrameEncoding) (c : Component) : PlaneEncoding :=
  let width := (p.size c).1
  let height := (p.size c).2
  let rlcoMax : ℤ := s.rlco.length + (u32 (height * width) / 2 : ℕ) - 256
  encodePlane (p.plane c) (s.ref c) s.rlco rlcoMax height width

/-- One plane of the frame. -/
def encodeComponent (p : FrameParams) (s : FrameEncoding) (c : Component) : FrameEncoding :=
  let r := planeEncoding p s c
  { rlco := r.rlco
    ref := Function.update s.ref c r.ref
    pcoded := s.pcoded || r.pcoded
    unencoded := Function.update s.unencoded c r.unencoded }

def fwhtEncodeFrame (p : FrameParams) (ref : Component → Mem UInt8) : FrameEncoding :=
  (components p.frm.componentsNum).foldl (encodeComponent p) ⟨[], ref, false, fun _ => false⟩

/-- The bytes of a buffer of big-endian words. -/
def payloadBytes (words : List ℕ) : List UInt8 :=
  words.flatMap fun w => [UInt8.ofNat (w / 256), UInt8.ofNat w]

/-- Byte `2 * m` and the byte behind it are the two halves of word `m`. -/
theorem payloadBytes_getElem? (words : List ℕ) (m : ℕ) :
    (payloadBytes words)[2 * m]? = words[m]?.map (fun w => UInt8.ofNat (w / 256)) ∧
      (payloadBytes words)[2 * m + 1]? = words[m]?.map UInt8.ofNat := by
  induction words generalizing m with
  | nil => simp [payloadBytes]
  | cons w words ih =>
    cases m with
    | zero => simp [payloadBytes]
    | succ m => exact ih m

end Vicodec
end TbsMedia
