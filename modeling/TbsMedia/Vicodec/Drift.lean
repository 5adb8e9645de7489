import TbsMedia.Lib.Runs
import TbsMedia.Vicodec.Plane

/-!
# Encoder and decoder side by side

Every frame that is encoded is decoded, and what is decoded is the reference of the next frame.  The
reference of the encoder is the same picture as long as no plane is abandoned in front of a predicted
frame, and as long as the last frame of a group has a predicted block.

* `Codec.step`: one frame through the encoder and the decoder.
* `Codec.InSync`: the two references are the same picture.
* `Codec.Keeps`: the steps that keep them the same.
* `no_drift`: whole runs.
* `drift_of_abandoned`: a plane that is abandoned.
-/

namespace TbsMedia
namespace Vicodec

open Lib

/-! ## Frames through the codec -/

/-- An encoder, a decoder, and whether the last frame has been decoded. -/
structure Codec where
  encoder : V4l2FwhtState
  decoder : V4l2FwhtState
  ok : Bool

/-- An input frame with the controls of the encoder at that time, and what the buffer and the stack of the
decoder hold. -/
structure FrameInput where
  pIn : Mem UInt8
  gopSize : ℕ
  iFrameQp : ℕ
  pFrameQp : ℕ
  pOut : Mem UInt8
  coeffs : Block

/-- The encoder with the controls of a frame. -/
def Codec.control (s : Codec) (i : FrameInput) : V4l2FwhtState :=
  { s.encoder with gopSize := i.gopSize, iFrameQp := i.iFrameQp, pFrameQp := i.pFrameQp }

/-- A frame is encoded and decoded; what has been decoded is the next reference. -/
def Codec.step (s : Codec) (i : FrameInput) : Option Codec :=
  (v4l2FwhtEncode (s.control i) i.pIn).map fun e =>
    let d := v4l2FwhtDecode { s.decoder with header := e.header } (payloadMem e.rlco) i.pOut i.coeffs
    { encoder := e.state, decoder := { d.state with refBuf := some d.out }, ok := d.ok }

/-- Encoder and decoder work on frames of one format and size, which fit the buffers of the decoder. -/
structure Codec.SetUp (s : Codec) (B : Buffer) : Prop where
  encoder_info : s.encoder.info = some B.fmt
  decoder_info : s.decoder.info = some B.fmt
  width_eq : s.decoder.visibleWidth = s.encoder.visibleWidth
  height_eq : s.decoder.visibleHeight = s.encoder.visibleHeight
  width_le : s.encoder.visibleWidth ≤ B.width
  height_le : s.encoder.visibleHeight ≤ B.height
  stride_eq : s.decoder.stride = B.stride
  refStride_eq : s.decoder.refStride = B.stride
  codedHeight_eq : s.decoder.codedHeight = B.height

/-- The columns of blocks of a plane. -/
def Codec.columns (s : Codec) (B : Buffer) (c : Component) : ℕ :=
  roundUp8 (B.fmt.planeSize s.encoder.visibleWidth s.encoder.visibleHeight c).1 / 8

/-- The blocks of a plane. -/
def Codec.blocks (s : Codec) (B : Buffer) (c : Component) : ℕ :=
  blockCount (B.fmt.planeSize s.encoder.visibleWidth s.encoder.visibleHeight c).2
    (B.fmt.planeSize s.encoder.visibleWidth s.encoder.visibleHeight c).1

/-- The planes of a reference of the encoder are those of a frame in a buffer, block by block. -/
def Codec.SamePicture (s : Codec) (B : Buffer) (ref : Component → Mem UInt8) (out : Mem UInt8) : Prop :=
  ∀ c ∈ components B.fmt.info.componentsNum, ∀ k < s.blocks B c, ∀ y x : Fin 8,
    ref c (refCell k y x) =
      out ((B.plane c).addr (blockRow (s.columns B c) k y) (blockColumn (s.columns B c) k x))

/-- **No drift**: where the next frame will be predicted, the frame has been decoded, and encoder and
decoder predict from the same picture. -/
def Codec.InSync (s : Codec) (B : Buffer) : Prop :=
  s.encoder.gopCnt ≠ 0 → s.ok = true ∧ ∃ out, s.decoder.refBuf = some out ∧
    s.SamePicture B s.encoder.refFrame out

/-- **The steps that do not go wrong**: if the next frame will be predicted, then this one was not taken
for the last of its group, and `encode_plane` has abandoned no plane of it. -/
def Codec.Keeps (s : Codec) (i : FrameInput) : Prop :=
  ∀ fmt, s.encoder.info = some fmt →
    (s.control i).nextGopCnt
        (fwhtEncodeFrame ((s.control i).frameParams fmt i.pIn) s.encoder.refFrame).pcoded ≠ 0 →
      s.encoder.gopCnt ≠ u32Sub i.gopSize 1 ∧ ∀ c ∈ components fmt.info.componentsNum,
        (fwhtEncodeFrame ((s.control i).frameParams fmt i.pIn) s.encoder.refFrame).unencoded c = false

/-! ## One frame -/

variable {B : Buffer} {s : Codec} {i : FrameInput}

/-- The blocks of a plane fit the rows and columns that there are in the buffer. -/
theorem Codec.SetUp.planeSize_le (h : s.SetUp B) (c : Component) :
    roundUp8 (B.fmt.planeSize s.encoder.visibleWidth s.encoder.visibleHeight c).2 ≤ B.rows c ∧
      roundUp8 (B.fmt.planeSize s.encoder.visibleWidth s.encoder.visibleHeight c).1 ≤ B.columns c :=
  Buffer.planeSize_le h.width_le h.height_le c

theorem Codec.SetUp.fits (h : s.SetUp B) {c : Component} (hc : c ∈ components B.fmt.info.componentsNum) :
    (B.plane c).Fits
      (roundUp8 (B.fmt.planeSize s.encoder.visibleWidth s.encoder.visibleHeight c).2)
      (roundUp8 (B.fmt.planeSize s.encoder.visibleWidth s.encoder.visibleHeight c).1) :=
  (Buffer.fits hc).mono (h.planeSize_le c).1 (h.planeSize_le c).2

/-- What the decoder has stored of a plane is found in its buffer. -/
theorem storeAll_planes {cs : List Component} (hcs : cs.Nodup) {P : Component → Plane}
    {height width : Component → ℕ} (hfit : ∀ c ∈ cs, (P c).Fits (height c) (width c))
    (hapart : ∀ c ∈ cs, ∀ c' ∈ cs, c ≠ c' → (P c).Apart (height c) (P c') (height c'))
    (content : Component → ℕ → Block) (m : Mem UInt8) {c : Component} (hc : c ∈ cs) {k : ℕ}
    (hk : k < height c / 8 * (width c / 8)) (y x : Fin 8) :
    m.storeAll (cs.flatMap fun c => (P c).blockStores (width c / 8)
        (List.range (height c / 8 * (width c / 8))) (content c))
      ((P c).addr (blockRow (width c / 8) k y) (blockColumn (width c / 8) k x)) =
        clampSample ((content c k).at y x) := by
  refine Mem.storeAll_of_mem ?_ (List.mem_flatMap.2
    ⟨c, hc, (mem_blockStores (hfit c hc).found).2 ⟨k, hk, y, x, rfl, rfl⟩⟩)
  rw [List.map_flatMap, List.nodup_flatMap]
  refine ⟨fun d hd => nodup_blockStores (hfit d hd).found (hfit d hd).step_pos (hfit d hd).row _,
    hcs.imp_of_mem fun {d d'} hd hd' hne => ?_⟩
  rw [Function.onFun, List.disjoint_left]
  intro a ha ha'
  obtain ⟨⟨_, v⟩, hav, rfl⟩ := List.mem_map.1 ha
  obtain ⟨⟨_, v'⟩, hav', heq⟩ := List.mem_map.1 ha'
  obtain ⟨j, hj, y₁, x₁, haddr, -⟩ := (mem_blockStores (hfit d hd).found).1 hav
  obtain ⟨j', hj', y₂, x₂, haddr', -⟩ := (mem_blockStores (hfit d' hd').found).1 hav'
  exact (hapart d hd d' hd' hne).addr_ne (hfit d hd).step_pos (hfit d hd).row (hfit d' hd').step_pos
    (hfit d' hd').row (blockRow_lt hj y₁) (blockColumn_lt hj x₁) (blockRow_lt hj' y₂)
    (blockColumn_lt hj' x₂) (haddr.trans (heq.symm.trans haddr'.symm))

theorem encodeAll_lt {P : FrameParams} {cs : List Component} {f : FrameEncoding} (hnd : cs.Nodup)
    (hcomp : ∀ c ∈ cs, (P.encodeAll cs f).unencoded c = false) (h : ∀ w ∈ f.rlco, w < 65536) :
    ∀ w ∈ (P.encodeAll cs f).rlco, w < 65536 := by
  induction cs generalizing f with
  | nil => exact h
  | cons c cs ih =>
    rw [List.nodup_cons] at hnd
    obtain ⟨gs, hvalid, hrlco, -⟩ := planeEncoding_streams hnd.1 (hcomp c List.mem_cons_self)
    rw [encodeAll_cons] at hcomp ⊢
    refine ih hnd.2 (fun d hd => hcomp d (List.mem_cons_of_mem _ hd)) fun w hw => ?_
    rw [hrlco] at hw
    rcases List.mem_append.1 hw with hw | hw
    · exact h w hw
    · obtain ⟨g, hg, hwg⟩ := List.mem_flatMap.1 hw
      exact (hvalid g hg).words_lt w hwg

/-! ## The decoder on what the encoder has written -/

/-- What the frame is encoded to. -/
def Codec.encoding (s : Codec) (B : Buffer) (i : FrameInput) : FrameEncoding :=
  fwhtEncodeFrame ((s.control i).frameParams B.fmt i.pIn) s.encoder.refFrame

/-- The header flags of the frame. -/
def Codec.flags (s : Codec) (B : Buffer) (i : FrameInput) : ℕ :=
  headerFlags B.fmt ((s.encoding B i).unencoded .luma) ((s.encoding B i).unencoded .cb)
    ((s.encoding B i).unencoded .cr) ((s.encoding B i).unencoded .alpha) (s.encoding B i).pcoded

/-- The decoder in front of a frame of the encoder. -/
def Codec.receive (s : Codec) (B : Buffer) (i : FrameInput) : V4l2FwhtState :=
  { s.decoder with header :=
      { magic1 := FWHT_MAGIC1
        magic2 := FWHT_MAGIC2
        version := FWHT_VERSION
        width := s.encoder.visibleWidth
        height := s.encoder.visibleHeight
        flags := s.flags B i
        colorspace := s.encoder.colorspace
        xferFunc := s.encoder.xferFunc
        ycbcrEnc := s.encoder.ycbcrEnc
        quantization := s.encoder.quantization
        size := 2 * (s.encoding B i).rlco.length } }

/-- The decoder accepts the header. -/
theorem Codec.SetUp.headerOk (h : s.SetUp B) (i : FrameInput) :
    (s.receive B i).headerOk B.fmt = true ∧ (s.receive B i).divOk B.fmt = true :=
  headerOk_cframeHdr h.width_eq h.height_eq B.fmt (s.encoding B i)

/-- What the payload is decoded with. -/
def Codec.decodeParams (s : Codec) (B : Buffer) (i : FrameInput) : FrameDecodeParams :=
  (s.receive B i).frameDecodeParams B.fmt (payloadMem (s.encoding B i).rlco)

/-- **One frame**: what the encoder and the decoder keep of it. -/
theorem Codec.SetUp.step_eq (h : s.SetUp B) (i : FrameInput) :
    ∃ t, s.step i = some t ∧ t.SetUp B ∧ t.encoder.visibleWidth = s.encoder.visibleWidth ∧
      t.encoder.visibleHeight = s.encoder.visibleHeight ∧
      t.encoder.gopCnt = (s.control i).nextGopCnt (s.encoding B i).pcoded ∧
      t.encoder.refFrame = (s.encoding B i).ref ∧
      t.ok = (fwhtDecodeFrame (s.decodeParams B i) i.coeffs).ok ∧
      t.decoder.refBuf =
        some (i.pOut.storeAll ((fwhtDecodeFrame (s.decodeParams B i) i.coeffs).writes.map Prod.snd)) := by
  obtain ⟨hheader, hdiv⟩ := h.headerOk i
  have hinfo : (s.control i).info = some B.fmt := h.encoder_info
  have hdecoder : (s.receive B i).info = some B.fmt := h.decoder_info
  have hstep : s.step i = some
      (let d := v4l2FwhtDecode (s.receive B i) (payloadMem (s.encoding B i).rlco) i.pOut i.coeffs
      { encoder := { s.control i with
          refFrame := (s.encoding B i).ref
          gopCnt := (s.control i).nextGopCnt (s.encoding B i).pcoded }
        decoder := { d.state with refBuf := some d.out }
        ok := d.ok }) := by
    unfold Codec.step v4l2FwhtEncode
    exact congrArg (fun o => (Option.map _ o).map _) hinfo
  rw [hstep, v4l2FwhtDecode_of_ok hdecoder hheader hdiv]
  exact ⟨_, rfl, ⟨h.encoder_info, h.decoder_info, h.width_eq, h.height_eq, h.width_le, h.height_le,
    h.stride_eq, h.refStride_eq, h.codedHeight_eq⟩, rfl, rfl, rfl, rfl, rfl, rfl⟩

/-- Both sides agree on the size of a plane. -/
theorem Codec.SetUp.decoder_planeSize (h : s.SetUp B) (i : FrameInput) (c : Component) :
    (s.decodeParams B i).planeSize c =
      B.fmt.planeSize s.encoder.visibleWidth s.encoder.visibleHeight c :=
  planeSize_decodeParamsOf h.width_eq h.height_eq (s.encoding B i) _ c

/-- The decoder stores the planes where they lie in the buffer, and looks for its reference there. -/
theorem Codec.SetUp.decoder_planes (h : s.SetUp B) (i : FrameInput) (c : Component) :
    (s.decodeParams B i).dstPlane c = B.plane c ∧
      ((s.decodeParams B i).plane c).refPlane = B.plane c := by
  have hdst : (s.decodeParams B i).dstPlane c =
      (prepareRawFrame B.fmt (u32 (s.decoder.stride * s.decoder.codedHeight))).planeOf s.decoder.stride
        (B.fmt.chromaStride s.decoder.stride) c := rfl
  have href : ((s.decodeParams B i).plane c).refPlane =
      (prepareRawFrame B.fmt (u32 (s.decoder.refStride * s.decoder.codedHeight))).planeOf
        s.decoder.refStride (B.fmt.chromaStride s.decoder.refStride) c := rfl
  rw [hdst, href, h.stride_eq, h.refStride_eq, h.codedHeight_eq]
  exact ⟨rfl, rfl⟩

/-- The decoder is told which planes have not been compressed. -/
theorem Codec.decoder_uncompressed (s : Codec) (B : Buffer) (i : FrameInput) (c : Component) :
    (s.decodeParams B i).uncompressed c = (s.encoding B i).unencoded c :=
  uncompressed_decodeParamsOf (s.encoding B i) _ c

/-- The decoder finds as many planes as there are. -/
theorem Codec.decoder_componentsNum (s : Codec) (B : Buffer) (i : FrameInput) :
    (s.decodeParams B i).componentsNum = B.fmt.info.componentsNum :=
  componentsNum_decodeParamsOf (s.encoding B i) _

/-- **What the decoder makes of a frame whose planes have all been compressed.** -/
theorem Codec.SetUp.decode (h : s.SetUp B) (i : FrameInput)
    (hcomp : ∀ c ∈ components B.fmt.info.componentsNum, (s.encoding B i).unencoded c = false) :
    (fwhtDecodeFrame (s.decodeParams B i) i.coeffs).ok = true ∧
      (fwhtDecodeFrame (s.decodeParams B i) i.coeffs).writes.map Prod.snd =
        (components B.fmt.info.componentsNum).flatMap fun c =>
          (B.plane c).blockStores (s.columns B c) (List.range (s.blocks B c)) fun k =>
            ((s.decodeParams B i).plane c).blockOf (s.columns B c) k
              ((((s.control i).frameParams B.fmt i.pIn).plane c).coded (s.columns B c)
                (s.encoder.refFrame c) k) := by
  have hnd := nodup_components B.fmt.info.componentsNum
  have hlt : ∀ w ∈ (s.encoding B i).rlco, w < 65536 :=
    encodeAll_lt hnd hcomp fun w hw => (nomatch hw)
  have hend : ((s.encoding B i).rlco.length : ℤ) ≤ (s.decodeParams B i).endOfRlcoBuf + 1 := by
    have hsize : (s.decodeParams B i).size = 2 * (s.encoding B i).rlco.length := rfl
    unfold FrameDecodeParams.endOfRlcoBuf
    rw [hsize, Nat.mul_div_cancel_left _ (by omega)]
    omega
  obtain ⟨hok, hwrites⟩ := decodeComponents_encode (P := (s.control i).frameParams B.fmt i.pIn)
    (s := ⟨[], s.encoder.refFrame, false, fun _ => false⟩) hnd (fun c _ => h.decoder_planeSize i c) hcomp
    (fun c hc => (s.decoder_uncompressed B i c).trans (hcomp c hc)) (reads_payloadMem hlt) hend i.coeffs
  unfold fwhtDecodeFrame
  rw [s.decoder_componentsNum]
  refine ⟨hok, (congrArg (List.map Prod.snd) hwrites).trans ?_⟩
  rw [List.map_flatMap]
  refine List.flatMap_congr fun c _ => ?_
  rw [List.map_map]
  refine (List.map_id'' (fun _ => rfl) _).trans ?_
  unfold planeStores
  rw [(h.decoder_planes i c).1]
  rfl

/-- Where the frame is predicted, both sides predict from the same samples. -/
theorem Codec.SetUp.sameRef (h : s.SetUp B) (hsync : s.InSync B) (i : FrameInput) {c : Component}
    (hc : c ∈ components B.fmt.info.componentsNum) {k : ℕ} (hk : k < s.blocks B c)
    (hinter : s.encoder.gopCnt ≠ 0) :
    SameRef ((s.decodeParams B i).plane c) (s.columns B c) (s.encoder.refFrame c) k := by
  obtain ⟨-, out, hout, hsame⟩ := hsync hinter
  refine ⟨out, hout, fun y x => ?_⟩
  rw [(h.decoder_planes i c).2, hsame c hc k hk y x]
  exact congrArg out ((h.fits hc).found k hk y x)

/-- **A frame of which no plane has been abandoned leaves the same picture on both sides.** -/
theorem Codec.SetUp.samePicture (h : s.SetUp B) (hsync : s.InSync B) (i : FrameInput)
    (hnext : s.encoder.gopCnt ≠ u32Sub i.gopSize 1)
    (hcomp : ∀ c ∈ components B.fmt.info.componentsNum, (s.encoding B i).unencoded c = false) :
    s.SamePicture B (s.encoding B i).ref
      (i.pOut.storeAll ((fwhtDecodeFrame (s.decodeParams B i) i.coeffs).writes.map Prod.snd)) := by
  intro c hc k hk y x
  have hapart : ∀ d ∈ components B.fmt.info.componentsNum, ∀ d' ∈ components B.fmt.info.componentsNum,
      d ≠ d' → (B.plane d).Apart
        (roundUp8 (B.fmt.planeSize s.encoder.visibleWidth s.encoder.visibleHeight d).2) (B.plane d')
        (roundUp8 (B.fmt.planeSize s.encoder.visibleWidth s.encoder.visibleHeight d').2) :=
    fun d hd d' hd' hne => (Buffer.apart hd hd' hne).mono (h.planeSize_le d).1 (h.planeSize_le d').1
  obtain ⟨rlco, rlcoMax, href, hun⟩ := encodeAll_of_mem (P := (s.control i).frameParams B.fmt i.pIn)
    (s := ⟨[], s.encoder.refFrame, false, fun _ => false⟩) (nodup_components _) hc
  have hintra : (((s.control i).frameParams B.fmt i.pIn).plane c).nextIsIntra = false :=
    decide_eq_false hnext
  have henc : (s.encoding B i).ref c (refCell k y x) = _ :=
    (congrFun href _).trans (encodePlane_ref hintra (hun.symm.trans (hcomp c hc)) hk y x)
  rw [henc, (h.decode i hcomp).2]
  refine Eq.trans ?_ (storeAll_planes (nodup_components _) (fun c hc => h.fits hc)
    hapart _ i.pOut hc hk y x).symm
  rw [blockOf_coded fun hp => h.sameRef hsync i hc hk (of_decide_eq_false hp)]
  rfl

/-- One frame keeps encoder and decoder in step. -/
theorem Codec.SetUp.step_inSync (h : s.SetUp B) (hsync : s.InSync B) (hkeeps : s.Keeps i) :
    ∃ t, s.step i = some t ∧ t.SetUp B ∧ t.InSync B := by
  obtain ⟨t, hstep, hset, hwidth, hheight, hcnt, href, hok, hbuf⟩ := h.step_eq i
  refine ⟨t, hstep, hset, fun hpredicted => ?_⟩
  rw [hcnt] at hpredicted
  obtain ⟨hnext, hcomp⟩ := hkeeps B.fmt h.encoder_info hpredicted
  refine ⟨hok.trans (h.decode i hcomp).1, _, hbuf, ?_⟩
  have hsame := h.samePicture hsync i hnext hcomp
  unfold Codec.SamePicture Codec.blocks Codec.columns at hsame ⊢
  rw [href, hwidth, hheight]
  exact hsame

/-- **No drift**: where no plane is abandoned in front of a predicted frame, and no frame in front of a
predicted frame is taken for the last of its group, encoder and decoder predict from the same picture. -/
theorem no_drift {is : List FrameInput} (h : s.SetUp B) (hstart : s.encoder.gopCnt = 0)
    (hkeeps : Along Codec.step Codec.Keeps s is) :
    ∃ t, run Codec.step s is = some t ∧ t.InSync B := by
  obtain ⟨t, hrun, -, hsync⟩ := run_inv_total (I := fun s => s.SetUp B ∧ s.InSync B)
    (fun _ _ hI hP => hI.1.step_inSync hI.2 hP) ⟨h, fun hne => absurd hstart hne⟩ hkeeps
  exact ⟨t, hrun, hsync⟩

/-! ## Frames of one grey -/

/-- A square buffer of grey samples. -/
def greyBuffer (n : ℕ) (hdvd : 8 ∣ n) (hpos : 0 < n) (hlt : n * n < 2 ^ 32) : Buffer where
  fmt := .grey
  width := n
  height := n
  width_dvd := hdvd
  height_dvd := hdvd
  height_pos := hpos
  size_lt := (Nat.mul_one _).symm ▸ hlt

/-- An encoder or decoder of grey frames that has just been opened. -/
def greyState (n : ℕ) : V4l2FwhtState where
  info := some .grey
  visibleWidth := n
  visibleHeight := n
  codedWidth := n
  codedHeight := n
  stride := n
  refStride := n
  gopSize := 0
  gopCnt := 0
  iFrameQp := 0
  pFrameQp := 0
  colorspace := 0
  ycbcrEnc := 0
  xferFunc := 0
  quantization := 0
  refFrame := fun _ _ => 0
  refBuf := none
  header := ⟨0, 0, 0, 0, 0, 0, 0, 0, 0, 0, 0⟩

def greyCodec (n : ℕ) : Codec := ⟨greyState n, greyState n, false⟩

/-- A frame whose samples are all equal, in groups of three. -/
def flatFrame (v : UInt8) : FrameInput := ⟨fun _ => v, 3, 20, 20, fun _ => 0, Block.ofFn fun _ _ => 0⟩

theorem greyCodec_setUp {n : ℕ} (hdvd : 8 ∣ n) (hpos : 0 < n) (hlt : n * n < 2 ^ 32) :
    (greyCodec n).SetUp (greyBuffer n hdvd hpos hlt) :=
  ⟨rfl, rfl, rfl, rfl, le_refl n, le_refl n, (Nat.mul_one n).symm, (Nat.mul_one n).symm, rfl⟩

/-- A grey frame is encoded, and the next one can be predicted from it. -/
theorem no_drift_grey : ∃ t, run Codec.step (greyCodec 24) [flatFrame 128] = some t ∧
    t.InSync (greyBuffer 24 (by decide) (by decide) (by decide)) := by
  refine no_drift (greyCodec_setUp _ _ _) rfl ⟨fun fmt hfmt _ => ?_, fun _ _ => trivial⟩
  obtain rfl : PixelFormat.grey = fmt := Option.some.inj hfmt
  exact ⟨by decide, by decide +kernel⟩

/-- **Drift**: a white plane of one block is abandoned at once; the decoder shows 0xfe where the reference
of the encoder holds 0xff, and the next frame is predicted. -/
theorem drift_of_abandoned : (greyCodec 8).SetUp (greyBuffer 8 (by decide) (by decide) (by decide)) ∧
    (greyCodec 8).encoder.gopCnt = 0 ∧ ∃ t, run Codec.step (greyCodec 8) [flatFrame 255] = some t ∧
      ¬t.InSync (greyBuffer 8 (by decide) (by decide) (by decide)) := by
  have hrun : (run Codec.step (greyCodec 8) [flatFrame 255]).map (fun t =>
      (t.encoder.gopCnt, t.blocks (greyBuffer 8 (by decide) (by decide) (by decide)) .luma,
        t.encoder.refFrame .luma 0, t.decoder.refBuf.map (· 0))) = some (1, 1, 255, some 254) := by
    decide +kernel
  refine ⟨greyCodec_setUp _ _ _, rfl, ?_⟩
  obtain ⟨t, ht, hvalues⟩ := Option.map_eq_some_iff.1 hrun
  refine ⟨t, ht, fun hsync => ?_⟩
  rw [Prod.mk.injEq, Prod.mk.injEq, Prod.mk.injEq] at hvalues
  obtain ⟨hcnt, hblocks, href, hbuf⟩ := hvalues
  obtain ⟨-, out, hout, hsame⟩ := hsync (by omega)
  have hbase : ((greyBuffer 8 (by decide) (by decide) (by decide)).plane .luma).base = 0 := rfl
  have hcell := hsame .luma (by decide) 0 (by omega) 0 0
  unfold refCell Plane.addr blockRow blockColumn at hcell
  rw [hbase] at hcell
  simp only [Nat.zero_div, Nat.zero_mod, Fin.coe_ofNat_eq_mod, Nat.mul_zero, Nat.zero_mul, Nat.add_zero]
    at hcell
  rw [hout, Option.map_some, Option.some.injEq] at hbuf
  rw [href, hbuf] at hcell
  exact absurd hcell (by decide)

end Vicodec
end TbsMedia
