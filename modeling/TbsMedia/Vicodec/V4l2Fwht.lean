import TbsMedia.Vicodec.Decode

/-!
# The V4L2 frontend of the codec

`codec-v4l2-fwht.c` knows the pixel formats, finds the planes of a frame in its buffer, counts the frames
of a group and writes and checks the header.

* `PixelFormat.info`: the table `v4l2_fwht_pixfmts`.
* `prepareRawFrame`: `prepare_raw_frame`.
* `v4l2FwhtEncode`, `v4l2FwhtDecode`: one frame.
-/

namespace TbsMedia
namespace Vicodec

open Lib

/-! ## Pixel formats -/

/-- The formats `V4L2_PIX_FMT_…` of the table. -/
inductive PixelFormat where
  | yuv420 | yvu420 | yuv422p | nv12 | nv21 | nv16 | nv61 | nv24 | nv42 | yuyv | yvyu | uyvy | vyuy
  | bgr24 | rgb24 | hsv24 | bgr32 | xbgr32 | abgr32 | rgb32 | xrgb32 | argb32 | bgrx32 | bgra32
  | rgbx32 | rgba32 | hsv32 | grey
  deriving DecidableEq, Repr

def FWHT_FL_COMPONENTS_NUM_MSK : ℕ := 0x70000
def FWHT_FL_COMPONENTS_NUM_OFFSET : ℕ := 16
def FWHT_FL_PIXENC_MSK : ℕ := 0x180000
def FWHT_FL_PIXENC_YUV : ℕ := 1 <<< 19
def FWHT_FL_PIXENC_RGB : ℕ := 2 <<< 19
def FWHT_FL_PIXENC_HSV : ℕ := 3 <<< 19

/-- `struct v4l2_fwht_pixfmt_info`. -/
structure PixfmtInfo where
  bytesperlineMult : ℕ
  sizeimageMult : ℕ
  sizeimageDiv : ℕ
  lumaAlphaStep : ℕ
  chromaStep : ℕ
  widthDiv : ℕ
  heightDiv : ℕ
  componentsNum : ℕ
  planesNum : ℕ
  pixenc : ℕ

/-- The table `v4l2_fwht_pixfmts`. -/
def PixelFormat.info : PixelFormat → PixfmtInfo
  | .yuv420 => ⟨1, 3, 2, 1, 1, 2, 2, 3, 3, FWHT_FL_PIXENC_YUV⟩
  | .yvu420 => ⟨1, 3, 2, 1, 1, 2, 2, 3, 3, FWHT_FL_PIXENC_YUV⟩
  | .yuv422p => ⟨1, 2, 1, 1, 1, 2, 1, 3, 3, FWHT_FL_PIXENC_YUV⟩
  | .nv12 => ⟨1, 3, 2, 1, 2, 2, 2, 3, 2, FWHT_FL_PIXENC_YUV⟩
  | .nv21 => ⟨1, 3, 2, 1, 2, 2, 2, 3, 2, FWHT_FL_PIXENC_YUV⟩
  | .nv16 => ⟨1, 2, 1, 1, 2, 2, 1, 3, 2, FWHT_FL_PIXENC_YUV⟩
  | .nv61 => ⟨1, 2, 1, 1, 2, 2, 1, 3, 2, FWHT_FL_PIXENC_YUV⟩
  | .nv24 => ⟨1, 3, 1, 1, 2, 1, 1, 3, 2, FWHT_FL_PIXENC_YUV⟩
  | .nv42 => ⟨1, 3, 1, 1, 2, 1, 1, 3, 2, FWHT_FL_PIXENC_YUV⟩
  | .yuyv => ⟨2, 2, 1, 2, 4, 2, 1, 3, 1, FWHT_FL_PIXENC_YUV⟩
  | .yvyu => ⟨2, 2, 1, 2, 4, 2, 1, 3, 1, FWHT_FL_PIXENC_YUV⟩
  | .uyvy => ⟨2, 2, 1, 2, 4, 2, 1, 3, 1, FWHT_FL_PIXENC_YUV⟩
  | .vyuy => ⟨2, 2, 1, 2, 4, 2, 1, 3, 1, FWHT_FL_PIXENC_YUV⟩
  | .bgr24 => ⟨3, 3, 1, 3, 3, 1, 1, 3, 1, FWHT_FL_PIXENC_RGB⟩
  | .rgb24 => ⟨3, 3, 1, 3, 3, 1, 1, 3, 1, FWHT_FL_PIXENC_RGB⟩
  | .hsv24 => ⟨3, 3, 1, 3, 3, 1, 1, 3, 1, FWHT_FL_PIXENC_HSV⟩
  | .bgr32 => ⟨4, 4, 1, 4, 4, 1, 1, 3, 1, FWHT_FL_PIXENC_RGB⟩
  | .xbgr32 => ⟨4, 4, 1, 4, 4, 1, 1, 3, 1, FWHT_FL_PIXENC_RGB⟩
  | .abgr32 => ⟨4, 4, 1, 4, 4, 1, 1, 4, 1, FWHT_FL_PIXENC_RGB⟩
  | .rgb32 => ⟨4, 4, 1, 4, 4, 1, 1, 3, 1, FWHT_FL_PIXENC_RGB⟩
  | .xrgb32 => ⟨4, 4, 1, 4, 4, 1, 1, 3, 1, FWHT_FL_PIXENC_RGB⟩
  | .argb32 => ⟨4, 4, 1, 4, 4, 1, 1, 4, 1, FWHT_FL_PIXENC_RGB⟩
  | .bgrx32 => ⟨4, 4, 1, 4, 4, 1, 1, 3, 1, FWHT_FL_PIXENC_RGB⟩
  | .bgra32 => ⟨4, 4, 1, 4, 4, 1, 1, 4, 1, FWHT_FL_PIXENC_RGB⟩
  | .rgbx32 => ⟨4, 4, 1, 4, 4, 1, 1, 3, 1, FWHT_FL_PIXENC_RGB⟩
  | .rgba32 => ⟨4, 4, 1, 4, 4, 1, 1, 4, 1, FWHT_FL_PIXENC_RGB⟩
  | .hsv32 => ⟨4, 4, 1, 4, 4, 1, 1, 3, 1, FWHT_FL_PIXENC_HSV⟩
  | .grey => ⟨1, 1, 1, 1, 0, 1, 1, 1, 1, FWHT_FL_PIXENC_RGB⟩

/-- The pointers of a raw frame; a pointer that is `NULL` is written as zero. -/
def planePointers (luma cb cr alpha : ℕ) : Component → ℕ
  | .luma => luma
  | .cb => cb
  | .cr => cr
  | .alpha => alpha

/-- Where `prepare_raw_frame` finds the planes, for the size of the luma plane. -/
def PixelFormat.planes (size : ℕ) : PixelFormat → Component → ℕ
  | .grey => planePointers 0 0 0 0
  | .yuv420 => planePointers 0 size (size + size / 4) 0
  | .yvu420 => planePointers 0 (size + size / 4) size 0
  | .yuv422p => planePointers 0 size (size + size / 2) 0
  | .nv12 | .nv16 | .nv24 => planePointers 0 size (size + 1) 0
  | .nv21 | .nv61 | .nv42 => planePointers 0 (size + 1) size 0
  | .yuyv => planePointers 0 1 3 0
  | .yvyu => planePointers 0 3 1 0
  | .uyvy => planePointers 1 0 2 0
  | .vyuy => planePointers 1 2 0 0
  | .rgb24 | .hsv24 => planePointers 1 2 0 0
  | .bgr24 => planePointers 1 0 2 0
  | .rgb32 | .xrgb32 | .hsv32 => planePointers 2 3 1 0
  | .bgr32 | .xbgr32 => planePointers 1 0 2 0
  | .argb32 => planePointers 2 3 1 0
  | .abgr32 => planePointers 1 0 2 3
  | .bgrx32 => planePointers 2 1 3 0
  | .bgra32 => planePointers 2 1 3 0
  | .rgbx32 => planePointers 1 2 0 0
  | .rgba32 => planePointers 1 2 0 3

/-- `prepare_raw_frame`, with the pointers as offsets in `buf`. -/
def prepareRawFrame (fmt : PixelFormat) (size : ℕ) : FwhtRawFrame where
  widthDiv := fmt.info.widthDiv
  heightDiv := fmt.info.heightDiv
  lumaAlphaStep := fmt.info.lumaAlphaStep
  chromaStep := fmt.info.chromaStep
  componentsNum := fmt.info.componentsNum
  plane := fmt.planes size

/-- The stride of the chroma planes, for that of luma. -/
def PixelFormat.chromaStride (fmt : PixelFormat) (stride : ℕ) : ℕ :=
  let chromaStride := if fmt.info.planesNum = 3 then stride / 2 else stride
  if fmt = .nv24 ∨ fmt = .nv42 then u32 (chromaStride * 2) else chromaStride

/-! ## Frames -/

def FWHT_MAGIC1 : ℕ := 0x4f4f4f4f
def FWHT_MAGIC2 : ℕ := 0xffffffff
def FWHT_VERSION : ℕ := 3

/-- `struct fwht_cframe_hdr`, in host order. -/
structure CframeHdr where
  magic1 : ℕ
  magic2 : ℕ
  version : ℕ
  width : ℕ
  height : ℕ
  flags : ℕ
  colorspace : ℕ
  xferFunc : ℕ
  ycbcrEnc : ℕ
  quantization : ℕ
  size : ℕ

/-- `struct v4l2_fwht_state`.  The encoder keeps its reference in the planes `refFrame`, the decoder in
the buffer `refBuf`. -/
structure V4l2FwhtState where
  info : Option PixelFormat
  visibleWidth : ℕ
  visibleHeight : ℕ
  codedWidth : ℕ
  codedHeight : ℕ
  stride : ℕ
  refStride : ℕ
  gopSize : ℕ
  gopCnt : ℕ
  iFrameQp : ℕ
  pFrameQp : ℕ
  colorspace : ℕ
  ycbcrEnc : ℕ
  xferFunc : ℕ
  quantization : ℕ
  refFrame : Component → Mem UInt8
  refBuf : Option (Mem UInt8)
  header : CframeHdr

/-- One bit of the header flags. -/
def flagBit (b : Bool) (i : ℕ) : ℕ := if b then 1 <<< i else 0

/-- The header flags of a frame. -/
def headerFlags (fmt : PixelFormat) (luma cb cr alpha pcoded : Bool) : ℕ :=
  (fmt.info.componentsNum - 1) <<< FWHT_FL_COMPONENTS_NUM_OFFSET ||| fmt.info.pixenc |||
    flagBit luma FWHT_FL_LUMA_IS_UNCOMPRESSED ||| flagBit cb FWHT_FL_CB_IS_UNCOMPRESSED |||
    flagBit cr FWHT_FL_CR_IS_UNCOMPRESSED ||| flagBit alpha FWHT_FL_ALPHA_IS_UNCOMPRESSED |||
    flagBit (!pcoded) FWHT_FL_I_FRAME |||
    flagBit (fmt.info.heightDiv = 1) FWHT_FL_CHROMA_FULL_HEIGHT |||
    flagBit (fmt.info.widthDiv = 1) FWHT_FL_CHROMA_FULL_WIDTH

/-- What `fwht_encode_frame` is called with for an input frame. -/
def V4l2FwhtState.frameParams (st : V4l2FwhtState) (fmt : PixelFormat) (pIn : Mem UInt8) : FrameParams where
  input := pIn
  frm := prepareRawFrame fmt (u32 (st.stride * st.codedHeight))
  isIntra := st.gopCnt = 0
  nextIsIntra := st.gopCnt = u32Sub st.gopSize 1
  width := st.visibleWidth
  height := st.visibleHeight
  stride := st.stride
  chromaStride := fmt.chromaStride st.stride
  iFrameQp := st.iFrameQp
  pFrameQp := st.pFrameQp

/-- `gop_cnt` behind a frame. -/
def V4l2FwhtState.nextGopCnt (st : V4l2FwhtState) (pcoded : Bool) : ℕ :=
  let gopCnt := u32 ((if pcoded then st.gopCnt else 0) + 1)
  if st.gopSize ≤ gopCnt then 0 else gopCnt

/-- What `v4l2_fwht_encode` returns and stores: the header and the words behind it. -/
structure V4l2Encoding where
  ret : ℕ
  state : V4l2FwhtState
  header : CframeHdr
  rlco : List ℕ

def v4l2FwhtEncode (st : V4l2FwhtState) (pIn : Mem UInt8) : Option V4l2Encoding :=
  st.info.map fun fmt =>
    let f := fwhtEncodeFrame (st.frameParams fmt pIn) st.refFrame
    let size := 2 * f.rlco.length
    { ret := size + 44
      state := { st with refFrame := f.ref, gopCnt := st.nextGopCnt f.pcoded }
      header :=
        { magic1 := FWHT_MAGIC1
          magic2 := FWHT_MAGIC2
          version := FWHT_VERSION
          width := st.visibleWidth
          height := st.visibleHeight
          flags := headerFlags fmt (f.unencoded .luma) (f.unencoded .cb) (f.unencoded .cr)
            (f.unencoded .alpha) f.pcoded
          colorspace := st.colorspace
          xferFunc := st.xferFunc
          ycbcrEnc := st.ycbcrEnc
          quantization := st.quantization
          size := size }
      rlco := f.rlco }

/-- What `v4l2_fwht_decode` returns and stores; `ok` is false for `-EINVAL`. -/
structure V4l2Decoding where
  ok : Bool
  state : V4l2FwhtState
  out : Mem UInt8

/-- The number of components that a header stands for. -/
def CframeHdr.componentsNum (hdr : CframeHdr) : ℕ :=
  if 2 ≤ hdr.version then
    1 + ((hdr.flags &&& FWHT_FL_COMPONENTS_NUM_MSK) >>> FWHT_FL_COMPONENTS_NUM_OFFSET)
  else 3

/-- The checks of the header up to the number of components. -/
def V4l2FwhtState.headerOk (st : V4l2FwhtState) (fmt : PixelFormat) : Bool :=
  st.header.version ≠ 0 && st.header.version ≤ FWHT_VERSION && st.header.magic1 = FWHT_MAGIC1 &&
    st.header.magic2 = FWHT_MAGIC2 && st.header.width = st.visibleWidth &&
    st.header.height = st.visibleHeight &&
    (st.header.version < 2 || st.header.flags &&& FWHT_FL_PIXENC_MSK = fmt.info.pixenc) &&
    st.header.componentsNum = fmt.info.componentsNum

/-- The checks of the subsampling. -/
def V4l2FwhtState.divOk (st : V4l2FwhtState) (fmt : PixelFormat) : Bool :=
  (if st.header.flags.testBit FWHT_FL_CHROMA_FULL_WIDTH then 1 else 2) = fmt.info.widthDiv &&
    (if st.header.flags.testBit FWHT_FL_CHROMA_FULL_HEIGHT then 1 else 2) = fmt.info.heightDiv

/-- What `fwht_decode_frame` is called with for a payload. -/
def V4l2FwhtState.frameDecodeParams (st : V4l2FwhtState) (fmt : PixelFormat) (pIn : Mem UInt8) :
    FrameDecodeParams where
  data := pIn
  size := st.header.size
  hdrFlags := st.header.flags
  componentsNum := st.header.componentsNum
  width := st.visibleWidth
  height := st.visibleHeight
  ref := st.refBuf
  refFrame := prepareRawFrame fmt (u32 (st.refStride * st.codedHeight))
  refStride := st.refStride
  refChromaStride := fmt.chromaStride st.refStride
  dst := prepareRawFrame fmt (u32 (st.stride * st.codedHeight))
  dstStride := st.stride
  dstChromaStride := fmt.chromaStride st.stride

/-- `coeffs` is what the `struct fwht_cframe` on the stack holds. -/
def v4l2FwhtDecode (st : V4l2FwhtState) (pIn pOut : Mem UInt8) (coeffs : Block) : V4l2Decoding :=
  match st.info with
  | none => ⟨false, st, pOut⟩
  | some fmt =>
    if st.headerOk fmt then
      let st' := { st with
        colorspace := st.header.colorspace
        xferFunc := st.header.xferFunc
        ycbcrEnc := st.header.ycbcrEnc
        quantization := st.header.quantization }
      if st.divOk fmt then
        let f := fwhtDecodeFrame (st.frameDecodeParams fmt pIn) coeffs
        ⟨f.ok, st', pOut.storeAll (f.writes.map Prod.snd)⟩
      else ⟨false, st', pOut⟩
    else ⟨false, st, pOut⟩

/-- A frame whose header is accepted is decoded into the buffer. -/
theorem v4l2FwhtDecode_of_ok {st : V4l2FwhtState} {fmt : PixelFormat} (hinfo : st.info = some fmt)
    (hheader : st.headerOk fmt = true) (hdiv : st.divOk fmt = true) (pIn pOut : Mem UInt8) (coeffs : Block) :
    v4l2FwhtDecode st pIn pOut coeffs =
      ⟨(fwhtDecodeFrame (st.frameDecodeParams fmt pIn) coeffs).ok,
        { st with
          colorspace := st.header.colorspace
          xferFunc := st.header.xferFunc
          ycbcrEnc := st.header.ycbcrEnc
          quantization := st.header.quantization },
        pOut.storeAll ((fwhtDecodeFrame (st.frameDecodeParams fmt pIn) coeffs).writes.map Prod.snd)⟩ := by
  unfold v4l2FwhtDecode
  rw [hinfo]
  exact (if_pos hheader).trans (if_pos hdiv)

/-- **The decoder finds in the flags what the encoder has put there.** -/
theorem headerFlags_spec (fmt : PixelFormat) (luma cb cr alpha pcoded : Bool) :
    headerFlags fmt luma cb cr alpha pcoded &&& FWHT_FL_PIXENC_MSK = fmt.info.pixenc ∧
      1 + ((headerFlags fmt luma cb cr alpha pcoded &&& FWHT_FL_COMPONENTS_NUM_MSK) >>>
        FWHT_FL_COMPONENTS_NUM_OFFSET) = fmt.info.componentsNum ∧
      (headerFlags fmt luma cb cr alpha pcoded).testBit FWHT_FL_LUMA_IS_UNCOMPRESSED = luma ∧
      (headerFlags fmt luma cb cr alpha pcoded).testBit FWHT_FL_CB_IS_UNCOMPRESSED = cb ∧
      (headerFlags fmt luma cb cr alpha pcoded).testBit FWHT_FL_CR_IS_UNCOMPRESSED = cr ∧
      (headerFlags fmt luma cb cr alpha pcoded).testBit FWHT_FL_ALPHA_IS_UNCOMPRESSED = alpha ∧
      (if (headerFlags fmt luma cb cr alpha pcoded).testBit FWHT_FL_CHROMA_FULL_WIDTH then 1 else 2) =
        fmt.info.widthDiv ∧
      (if (headerFlags fmt luma cb cr alpha pcoded).testBit FWHT_FL_CHROMA_FULL_HEIGHT then 1 else 2) =
        fmt.info.heightDiv := by
  revert luma cb cr alpha pcoded
  cases fmt <;> decide +kernel

/-! ## The decoder in front of what the encoder has written -/

/-- The header in front of a frame. -/
def V4l2FwhtState.cframeHdr (st : V4l2FwhtState) (fmt : PixelFormat) (f : FrameEncoding) : CframeHdr where
  magic1 := FWHT_MAGIC1
  magic2 := FWHT_MAGIC2
  version := FWHT_VERSION
  width := st.visibleWidth
  height := st.visibleHeight
  flags := headerFlags fmt (f.unencoded .luma) (f.unencoded .cb) (f.unencoded .cr) (f.unencoded .alpha) f.pcoded
  colorspace := st.colorspace
  xferFunc := st.xferFunc
  ycbcrEnc := st.ycbcrEnc
  quantization := st.quantization
  size := 2 * f.rlco.length

variable {enc dec : V4l2FwhtState} {fmt : PixelFormat}

/-- What the encoder writes. -/
theorem v4l2FwhtEncode_of_info (hinfo : enc.info = some fmt) (pIn : Mem UInt8) :
    ∃ e, v4l2FwhtEncode enc pIn = some e ∧
      e.header = enc.cframeHdr fmt (fwhtEncodeFrame (enc.frameParams fmt pIn) enc.refFrame) ∧
      e.rlco = (fwhtEncodeFrame (enc.frameParams fmt pIn) enc.refFrame).rlco := by
  unfold v4l2FwhtEncode
  rw [hinfo]
  exact ⟨_, rfl, rfl, rfl⟩

/-- The decoder accepts the header, if it expects frames of this size. -/
theorem headerOk_cframeHdr (hwidth : dec.visibleWidth = enc.visibleWidth)
    (hheight : dec.visibleHeight = enc.visibleHeight) (fmt : PixelFormat) (f : FrameEncoding) :
    V4l2FwhtState.headerOk { dec with header := enc.cframeHdr fmt f } fmt = true ∧
      V4l2FwhtState.divOk { dec with header := enc.cframeHdr fmt f } fmt = true := by
  obtain ⟨hpix, hnum, -, -, -, -, hwd, hhd⟩ := headerFlags_spec fmt (f.unencoded .luma) (f.unencoded .cb)
    (f.unencoded .cr) (f.unencoded .alpha) f.pcoded
  have hcomponents : (enc.cframeHdr fmt f).componentsNum = fmt.info.componentsNum := hnum
  have hpixenc : (enc.cframeHdr fmt f).flags &&& FWHT_FL_PIXENC_MSK = fmt.info.pixenc := hpix
  constructor
  · unfold V4l2FwhtState.headerOk
    dsimp only
    rw [hcomponents, hpixenc, hwidth, hheight]
    simp [V4l2FwhtState.cframeHdr, FWHT_VERSION]
  · unfold V4l2FwhtState.divOk
    rw [Bool.and_eq_true, decide_eq_true_eq, decide_eq_true_eq]
    exact ⟨hwd, hhd⟩

/-- The parameters that a payload is decoded with. -/
def decodeParamsOf (enc dec : V4l2FwhtState) (fmt : PixelFormat) (f : FrameEncoding) (data : Mem UInt8) :
    FrameDecodeParams :=
  V4l2FwhtState.frameDecodeParams { dec with header := enc.cframeHdr fmt f } fmt data

/-- Width and height of a plane of frames of this size. -/
def PixelFormat.planeSize (fmt : PixelFormat) (width height : ℕ) (c : Component) : ℕ × ℕ :=
  if c.isChroma then (width / fmt.info.widthDiv, height / fmt.info.heightDiv) else (width, height)

/-- Both sides agree on the size of a plane. -/
theorem planeSize_decodeParamsOf (hwidth : dec.visibleWidth = enc.visibleWidth)
    (hheight : dec.visibleHeight = enc.visibleHeight) (f : FrameEncoding) (data : Mem UInt8) (c : Component) :
    (decodeParamsOf enc dec fmt f data).planeSize c = fmt.planeSize enc.visibleWidth enc.visibleHeight c := by
  obtain ⟨-, -, -, -, -, -, hwd, hhd⟩ := headerFlags_spec fmt (f.unencoded .luma) (f.unencoded .cb)
    (f.unencoded .cr) (f.unencoded .alpha) f.pcoded
  have hdiv : ∀ (b : Bool) (n d : ℕ), (if b then 1 else 2) = d → (if b then n else n / 2) = n / d := by
    rintro b n d rfl
    cases b <;> simp
  have hw : (decodeParamsOf enc dec fmt f data).width = enc.visibleWidth := hwidth
  have hh : (decodeParamsOf enc dec fmt f data).height = enc.visibleHeight := hheight
  have hflags : (decodeParamsOf enc dec fmt f data).hdrFlags = headerFlags fmt _ _ _ _ _ := rfl
  unfold FrameDecodeParams.planeSize PixelFormat.planeSize
  rw [hw, hh, hflags, hdiv _ _ _ hwd, hdiv _ _ _ hhd]

/-- The decoder is told which planes have not been compressed. -/
theorem uncompressed_decodeParamsOf (f : FrameEncoding) (data : Mem UInt8) (c : Component) :
    (decodeParamsOf enc dec fmt f data).uncompressed c = f.unencoded c := by
  obtain ⟨-, -, hluma, hcb, hcr, halpha, -, -⟩ := headerFlags_spec fmt (f.unencoded .luma) (f.unencoded .cb)
    (f.unencoded .cr) (f.unencoded .alpha) f.pcoded
  cases c
  · exact hluma
  · exact hcb
  · exact hcr
  · exact halpha

/-- The decoder finds as many planes as there are. -/
theorem componentsNum_decodeParamsOf (f : FrameEncoding) (data : Mem UInt8) :
    (decodeParamsOf enc dec fmt f data).componentsNum = fmt.info.componentsNum :=
  (headerFlags_spec fmt _ _ _ _ _).2.1

end Vicodec
end TbsMedia
