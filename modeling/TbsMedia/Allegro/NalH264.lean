import Mathlib
import TbsMedia.Allegro.Rbsp

/-!
# H.264 parameter sets

One walk over the fields of a parameter set is run with two sets of primitives: one writes the fields, the other reads
them.  An error is kept and makes every later primitive do nothing; the walk itself goes on to its end.

* `Walk`: the syntax of a parameter set, as the source goes through it.
* `NalH264Ops`, `write`, `read`: the primitives.
* `Walk.run`: a walk with a set of primitives.
* `nalH264RbspSps`, `nalH264RbspPps`: the two parameter sets.
* `nalH264WriteSps`, `nalH264ReadSps`, `nalH264WritePps`, `nalH264ReadPps`: the NAL units.
-/

namespace TbsMedia
namespace Allegro

/-- An `int` or an `unsigned int`. -/
abbrev Word := BitVec 32

def SEQUENCE_PARAMETER_SET : Word := 7
def PICTURE_PARAMETER_SET : Word := 8

/-- `DIV_ROUND_UP(n, 8)`. -/
def divRoundUp8 (n : ℕ) : ℕ := (n + 7) % POS_LIMIT / 8

/-! ## Exp-Golomb codes -/

/-- `rbsp_write_uev`.  `ilog2(0)` is -1, which is no number of bits. -/
def rbspWriteUev (r : Rbsp) (value : Word) : Rbsp × ℤ :=
  if value + 1 = 0 then (r, -EINVAL)
  else
    let leadingZeroBits := Nat.log2 (value + 1).toNat
    let w := rbspWriteBits r leadingZeroBits 0
    if w.2 ≠ 0 then w else rbspWriteBits w.1 (leadingZeroBits + 1) (value + 1).toNat

/-- `rbsp_write_sev`. -/
def rbspWriteSev (r : Rbsp) (value : Word) : Rbsp × ℤ :=
  rbspWriteUev r (if 0 < value.toInt then (2 * value) ||| 1 else -(2 * value))

/-- The loop of `rbsp_read_uev`; `none` when it goes on for longer than the fuel. -/
def readLeadingZeroBits : ℕ → ℕ → Rbsp → Option (Rbsp × Except ℤ ℕ)
  | 0, _, _ => none
  | fuel + 1, n, r =>
    match rbspReadBit r with
    | (r, .error e) => some (r, .error e)
    | (r, .ok true) => some (r, .ok n)
    | (r, .ok false) => readLeadingZeroBits fuel (n + 1) r

/-- There are so many positions with so many values of the counter: a loop that goes on for longer does not end. -/
def READ_FUEL : ℕ := POS_LIMIT * POS_LIMIT

/-- `rbsp_read_uev`.  The number of bits is an `int`; a shift by 32 or more has no value in C, and none is taken. -/
def rbspReadUev (r : Rbsp) : Option (Rbsp × Except ℤ Word) :=
  match readLeadingZeroBits READ_FUEL 0 r with
  | none => none
  | some (r, .error e) => some (r, .error e)
  | some (r, .ok n) =>
    let leadingZeroBits := (BitVec.ofNat 32 n).toInt
    if 0 < leadingZeroBits then
      match rbspReadBits r leadingZeroBits.toNat with
      | (r, .error e) => some (r, .error e)
      | (r, .ok tmp) => some (r, .ok (((1 : Word) <<< leadingZeroBits.toNat) - 1 + BitVec.ofNat 32 tmp))
    else some (r, .ok (((1 : Word) <<< leadingZeroBits.toNat) - 1))

/-- The value that `rbsp_read_sev` makes of a code number. -/
def sevOfUev (tmp : Word) : Word :=
  if tmp &&& 1 ≠ 0 then (tmp + 1) / 2 else -(tmp / 2)

/-- `rbsp_read_sev`. -/
def rbspReadSev (r : Rbsp) : Option (Rbsp × Except ℤ Word) :=
  match rbspReadUev r with
  | none => none
  | some (r, .error e) => some (r, .error e)
  | some (r, .ok tmp) => some (r, .ok (sevOfUev tmp))

/-! ## Primitives -/

/-- A `struct nal_h264_ops`.  A primitive gives the value that is at its pointer afterwards, or its error. -/
structure NalH264Ops where
  rbspBit : Rbsp → Word → Option (Rbsp × Except ℤ Word)
  rbspBits : ℕ → Rbsp → Word → Option (Rbsp × Except ℤ Word)
  rbspUev : Rbsp → Word → Option (Rbsp × Except ℤ Word)
  rbspSev : Rbsp → Word → Option (Rbsp × Except ℤ Word)

/-- A value that was written stays as it is. -/
def written (value : Word) (w : Rbsp × ℤ) : Option (Rbsp × Except ℤ Word) :=
  some (w.1, if w.2 = 0 then .ok value else .error w.2)

def write : NalH264Ops where
  rbspBit r value := written value (rbspWriteBit r (decide (value ≠ 0)))
  rbspBits n r value := written value (rbspWriteBits r n value.toNat)
  rbspUev r value := written value (rbspWriteUev r value)
  rbspSev r value := written value (rbspWriteSev r value)

def read : NalH264Ops where
  rbspBit r _ :=
    match rbspReadBit r with
    | (r, .error e) => some (r, .error e)
    | (r, .ok bit) => some (r, .ok (BitVec.ofNat 32 bit.toNat))
  rbspBits n r _ :=
    match rbspReadBits r n with
    | (r, .error e) => some (r, .error e)
    | (r, .ok tmp) => some (r, .ok (BitVec.ofNat 32 tmp))
  rbspUev r _ := rbspReadUev r
  rbspSev r _ := rbspReadSev r

/-- A `struct rbsp` with its error. -/
structure Stream where
  rbsp : Rbsp
  error : ℤ

/-- `rbsp_bit`, `rbsp_bits`, `rbsp_uev`, `rbsp_sev`: behind an error, nothing is done. -/
def latch (op : Rbsp → Word → Option (Rbsp × Except ℤ Word)) (st : Stream) (value : Word) : Option (Stream × Word) :=
  if st.error ≠ 0 then some (st, value)
  else
    match op st.rbsp value with
    | none => none
    | some (r, .error e) => some (⟨r, e⟩, value)
    | some (r, .ok value') => some (⟨r, 0⟩, value')

/-! ## Walks -/

/-- A walk over the fields of a struct.  The fields are those that the struct has, and those next to its arrays.  A
`test` is on a condition, a `loop` on the bound of a loop. -/
inductive Walk (F : Type) where
  | skip
  | seq (first rest : Walk F)
  | bit (x : F)
  | bits (n : ℕ) (x : F)
  | uev (x : F)
  | sev (x : F)
  | fail
  | endless
  | test (x : F) (k : Word → Walk F)
  | loop (x : F) (k : Word → Walk F)

variable {F : Type}

def Walk.block : List (Walk F) → Walk F
  | [] => .skip
  | w :: ws => .seq w (Walk.block ws)

/-- `if (p(x))`. -/
def Walk.when (x : F) (p : Word → Bool) (w : Walk F) : Walk F :=
  .test x fun value => if p value then w else .skip

/-- `for (i = first; i < first + n; i++)`. -/
def Walk.upto (body : ℕ → Walk F) : ℕ → ℕ → Walk F
  | _, 0 => .skip
  | first, n + 1 => .seq (body first) (Walk.upto body (first + 1) n)

/-- A walk with a set of primitives; `none` when it does not end. -/
def Walk.run [DecidableEq F] (ops : NalH264Ops) : Walk F → Stream → (F → Word) → Option (Stream × (F → Word))
  | .skip, st, s => some (st, s)
  | .seq first rest, st, s =>
    match first.run ops st s with
    | none => none
    | some (st, s) => rest.run ops st s
  | .bit x, st, s => (latch ops.rbspBit st (s x)).map fun p => (p.1, Function.update s x p.2)
  | .bits n x, st, s => (latch (ops.rbspBits n) st (s x)).map fun p => (p.1, Function.update s x p.2)
  | .uev x, st, s => (latch ops.rbspUev st (s x)).map fun p => (p.1, Function.update s x p.2)
  | .sev x, st, s => (latch ops.rbspSev st (s x)).map fun p => (p.1, Function.update s x p.2)
  | .fail, st, s => some ({ st with error := -EINVAL }, s)
  | .endless, _, _ => none
  | .test x k, st, s => (k (s x)).run ops st s
  | .loop x k, st, s => (k (s x)).run ops st s

/-! ## Fields -/

/-- The fields of a `struct nal_h264_hrd_parameters`. -/
inductive HrdField where
  | cpbCntMinus1
  | bitRateScale
  | cpbSizeScale
  | bitRateValueMinus1 (i : ℕ)
  | cpbSizeValueMinus1 (i : ℕ)
  | cbrFlag (i : ℕ)
  | initialCpbRemovalDelayLengthMinus1
  | cpbRemovalDelayLengthMinus1
  | dpbOutputDelayLengthMinus1
  | timeOffsetLength
  deriving DecidableEq

/-- The fields of a `struct nal_h264_vui_parameters`. -/
inductive VuiField where
  | aspectRatioInfoPresentFlag
  | aspectRatioIdc
  | sarWidth
  | sarHeight
  | overscanInfoPresentFlag
  | overscanAppropriateFlag
  | videoSignalTypePresentFlag
  | videoFormat
  | videoFullRangeFlag
  | colourDescriptionPresentFlag
  | colourPrimaries
  | transferCharacteristics
  | matrixCoefficients
  | chromaLocInfoPresentFlag
  | chromaSampleLocTypeTopField
  | chromaSampleLocTypeBottomField
  | timingInfoPresentFlag
  | numUnitsInTick
  | timeScale
  | fixedFrameRateFlag
  | nalHrdParametersPresentFlag
  | nalHrdParameters (x : HrdField)
  | vclHrdParametersPresentFlag
  | vclHrdParameters (x : HrdField)
  | lowDelayHrdFlag
  | picStructPresentFlag
  | bitstreamRestrictionFlag
  | motionVectorsOverPicBoundariesFlag
  | maxBytesPerPicDenom
  | maxBitsPerMbDenom
  | log2MaxMvLengthHorizontal
  | log21MaxMvLengthVertical
  | maxNumReorderFrames
  | maxDecFrameBuffering
  deriving DecidableEq

/-- The fields of a `struct nal_h264_sps`.  The members of its union are kept apart: a walk uses one of them only. -/
inductive SpsField where
  | profileIdc
  | constraintSet0Flag
  | constraintSet1Flag
  | constraintSet2Flag
  | constraintSet3Flag
  | constraintSet4Flag
  | constraintSet5Flag
  | reservedZero2bits
  | levelIdc
  | seqParameterSetId
  | chromaFormatIdc
  | separateColourPlaneFlag
  | bitDepthLumaMinus8
  | bitDepthChromaMinus8
  | qpprimeYZeroTransformBypassFlag
  | seqScalingMatrixPresentFlag
  | log2MaxFrameNumMinus4
  | picOrderCntType
  | log2MaxPicOrderCntLsbMinus4
  | deltaPicOrderAlwaysZeroFlag
  | offsetForNonRefPic
  | offsetForTopToBottomField
  | numRefFramesInPicOrderCntCycle
  | offsetForRefFrame (i : ℕ)
  | maxNumRefFrames
  | gapsInFrameNumValueAllowedFlag
  | picWidthInMbsMinus1
  | picHeightInMapUnitsMinus1
  | frameMbsOnlyFlag
  | mbAdaptiveFrameFieldFlag
  | direct8x8InferenceFlag
  | frameCroppingFlag
  | cropLeft
  | cropRight
  | cropTop
  | cropBottom
  | vuiParametersPresentFlag
  | vui (x : VuiField)
  deriving DecidableEq

/-- The fields of a `struct nal_h264_pps`.  The members of its union are kept apart: a walk uses one of them only. -/
inductive PpsField where
  | picParameterSetId
  | seqParameterSetId
  | entropyCodingModeFlag
  | bottomFieldPicOrderInFramePresentFlag
  | numSliceGroupsMinus1
  | sliceGroupMapType
  | runLengthMinus1 (i : ℕ)
  | topLeft (i : ℕ)
  | bottomRight (i : ℕ)
  | sliceGroupChangeDirectionFlag
  | sliceGroupChangeRateMinus1
  | picSizeInMapUnitsMinus1
  | sliceGroupId (i : ℕ)
  | numRefIdxL0DefaultActiveMinus1
  | numRefIdxL1DefaultActiveMinus1
  | weightedPredFlag
  | weightedBipredIdc
  | picInitQpMinus26
  | picInitQsMinus26
  | chromaQpIndexOffset
  | deblockingFilterControlPresentFlag
  | constrainedIntraPredFlag
  | redundantPicCntPresentFlag
  deriving DecidableEq

/-! ## The parameter sets -/

section Hrd

open HrdField

/-- The loop of `nal_h264_rbsp_hrd_parameters`.  No `unsigned int` is above the highest one. -/
def cpbLoop (f : HrdField → F) (cpbCntMinus1 : Word) : Walk F :=
  if cpbCntMinus1 + 1 = 0 then .endless
  else
    .upto (fun i => .block [
      .uev (f (bitRateValueMinus1 i)),
      .uev (f (cpbSizeValueMinus1 i)),
      .bit (f (cbrFlag i))]) 0 (cpbCntMinus1.toNat + 1)

/-- `nal_h264_rbsp_hrd_parameters`. -/
def nalH264RbspHrdParameters (f : HrdField → F) : Walk F := .block [
  .uev (f cpbCntMinus1),
  .bits 4 (f bitRateScale),
  .bits 4 (f cpbSizeScale),
  .loop (f cpbCntMinus1) (cpbLoop f),
  .bits 5 (f initialCpbRemovalDelayLengthMinus1),
  .bits 5 (f cpbRemovalDelayLengthMinus1),
  .bits 5 (f dpbOutputDelayLengthMinus1),
  .bits 5 (f timeOffsetLength)]

end Hrd

section Vui

open VuiField

/-- `nal_h264_rbsp_vui_parameters`. -/
def nalH264RbspVuiParameters (f : VuiField → F) : Walk F := .block [
  .bit (f aspectRatioInfoPresentFlag),
  .when (f aspectRatioInfoPresentFlag) (· ≠ 0) (.block [
    .bits 8 (f aspectRatioIdc),
    .when (f aspectRatioIdc) (· = 255) (.block [
      .bits 16 (f sarWidth),
      .bits 16 (f sarHeight)])]),
  .bit (f overscanInfoPresentFlag),
  .when (f overscanInfoPresentFlag) (· ≠ 0) (.bit (f overscanAppropriateFlag)),
  .bit (f videoSignalTypePresentFlag),
  .when (f videoSignalTypePresentFlag) (· ≠ 0) (.block [
    .bits 3 (f videoFormat),
    .bit (f videoFullRangeFlag),
    .bit (f colourDescriptionPresentFlag),
    .when (f colourDescriptionPresentFlag) (· ≠ 0) (.block [
      .bits 8 (f colourPrimaries),
      .bits 8 (f transferCharacteristics),
      .bits 8 (f matrixCoefficients)])]),
  .bit (f chromaLocInfoPresentFlag),
  .when (f chromaLocInfoPresentFlag) (· ≠ 0) (.block [
    .uev (f chromaSampleLocTypeTopField),
    .uev (f chromaSampleLocTypeBottomField)]),
  .bit (f timingInfoPresentFlag),
  .when (f timingInfoPresentFlag) (· ≠ 0) (.block [
    .bits 32 (f numUnitsInTick),
    .bits 32 (f timeScale),
    .bit (f fixedFrameRateFlag)]),
  .bit (f nalHrdParametersPresentFlag),
  .when (f nalHrdParametersPresentFlag) (· ≠ 0) (nalH264RbspHrdParameters (f ∘ nalHrdParameters)),
  .bit (f vclHrdParametersPresentFlag),
  .when (f vclHrdParametersPresentFlag) (· ≠ 0) (nalH264RbspHrdParameters (f ∘ vclHrdParameters)),
  .test (f nalHrdParametersPresentFlag) fun nal =>
    .when (f vclHrdParametersPresentFlag) (fun vcl => nal ≠ 0 ∨ vcl ≠ 0) (.bit (f lowDelayHrdFlag)),
  .bit (f picStructPresentFlag),
  .bit (f bitstreamRestrictionFlag),
  .when (f bitstreamRestrictionFlag) (· ≠ 0) (.block [
    .bit (f motionVectorsOverPicBoundariesFlag),
    .uev (f maxBytesPerPicDenom),
    .uev (f maxBitsPerMbDenom),
    .uev (f log2MaxMvLengthHorizontal),
    .uev (f log21MaxMvLengthVertical),
    .uev (f maxNumReorderFrames),
    .uev (f maxDecFrameBuffering)])]

end Vui

section Sps

open SpsField

/-- The profiles with a chroma format. -/
def chromaProfiles : List Word := [100, 110, 122, 244, 44, 83, 86, 118, 128, 138, 139, 134, 135]

/-- The `switch` over `pic_order_cnt_type`. -/
def picOrderCntSwitch (type : Word) : Walk SpsField :=
  if type = 0 then .uev log2MaxPicOrderCntLsbMinus4
  else if type = 1 then .block [
    .bit deltaPicOrderAlwaysZeroFlag,
    .sev offsetForNonRefPic,
    .sev offsetForTopToBottomField,
    .uev numRefFramesInPicOrderCntCycle,
    .loop numRefFramesInPicOrderCntCycle fun n => .upto (fun i => .sev (offsetForRefFrame i)) 0 n.toNat]
  else .fail

/-- `nal_h264_rbsp_sps`. -/
def nalH264RbspSps : Walk SpsField := .block [
  .bits 8 profileIdc,
  .bit constraintSet0Flag,
  .bit constraintSet1Flag,
  .bit constraintSet2Flag,
  .bit constraintSet3Flag,
  .bit constraintSet4Flag,
  .bit constraintSet5Flag,
  .bits 2 reservedZero2bits,
  .bits 8 levelIdc,
  .uev seqParameterSetId,
  .when profileIdc (· ∈ chromaProfiles) (.block [
    .uev chromaFormatIdc,
    .when chromaFormatIdc (· = 3) (.bit separateColourPlaneFlag),
    .uev bitDepthLumaMinus8,
    .uev bitDepthChromaMinus8,
    .bit qpprimeYZeroTransformBypassFlag,
    .bit seqScalingMatrixPresentFlag,
    .when seqScalingMatrixPresentFlag (· ≠ 0) .fail]),
  .uev log2MaxFrameNumMinus4,
  .uev picOrderCntType,
  .test picOrderCntType picOrderCntSwitch,
  .uev maxNumRefFrames,
  .bit gapsInFrameNumValueAllowedFlag,
  .uev picWidthInMbsMinus1,
  .uev picHeightInMapUnitsMinus1,
  .bit frameMbsOnlyFlag,
  .when frameMbsOnlyFlag (· = 0) (.bit mbAdaptiveFrameFieldFlag),
  .bit direct8x8InferenceFlag,
  .bit frameCroppingFlag,
  .when frameCroppingFlag (· ≠ 0) (.block [
    .uev cropLeft,
    .uev cropRight,
    .uev cropTop,
    .uev cropBottom]),
  .bit vuiParametersPresentFlag,
  .when vuiParametersPresentFlag (· ≠ 0) (nalH264RbspVuiParameters vui)]

end Sps

section Pps

open PpsField

/-- `order_base_2`. -/
def orderBase2 (n : Word) : ℕ := if 1 < n.toNat then Nat.log2 (n.toNat - 1) + 1 else 0

/-- The `switch` over `slice_group_map_type`. -/
def sliceGroupSwitch (type : Word) : Walk PpsField :=
  if type = 0 then
    .loop numSliceGroupsMinus1 fun n => .upto (fun i => .uev (runLengthMinus1 i)) 0 n.toNat
  else if type = 2 then
    .loop numSliceGroupsMinus1 fun n => .upto (fun i => .block [.uev (topLeft i), .uev (bottomRight i)]) 0 n.toNat
  else if type = 3 ∨ type = 4 ∨ type = 5 then .block [
    .bit sliceGroupChangeDirectionFlag,
    .uev sliceGroupChangeRateMinus1]
  else if type = 6 then .block [
    .uev picSizeInMapUnitsMinus1,
    .test numSliceGroupsMinus1 fun groups =>
      .loop picSizeInMapUnitsMinus1 fun n =>
        .upto (fun i => .bits (orderBase2 (groups + 1)) (sliceGroupId i)) 0 n.toNat]
  else .skip

/-- `nal_h264_rbsp_pps`. -/
def nalH264RbspPps : Walk PpsField := .block [
  .uev picParameterSetId,
  .uev seqParameterSetId,
  .bit entropyCodingModeFlag,
  .bit bottomFieldPicOrderInFramePresentFlag,
  .uev numSliceGroupsMinus1,
  .when numSliceGroupsMinus1 (· ≠ 0) (.block [
    .uev sliceGroupMapType,
    .test sliceGroupMapType sliceGroupSwitch]),
  .uev numRefIdxL0DefaultActiveMinus1,
  .uev numRefIdxL1DefaultActiveMinus1,
  .bit weightedPredFlag,
  .bits 2 weightedBipredIdc,
  .sev picInitQpMinus26,
  .sev picInitQsMinus26,
  .sev chromaQpIndexOffset,
  .bit deblockingFilterControlPresentFlag,
  .bit constrainedIntraPredFlag,
  .bit redundantPicCntPresentFlag]

end Pps

/-! ## NAL units -/

/-- The fields of a NAL unit's header, which are local variables. -/
inductive HeaderField where
  | forbiddenZeroBit
  | nalRefIdc
  | nalUnitType
  deriving DecidableEq

/-- The header of a NAL unit. -/
def nalUnitHeader : Walk HeaderField := .block [
  .bit .forbiddenZeroBit,
  .bits 2 .nalRefIdc,
  .bits 5 .nalUnitType]

/-- The header that is written. -/
def headerOf (nalUnitType : Word) : HeaderField → Word
  | .forbiddenZeroBit => 0
  | .nalRefIdc => 0
  | .nalUnitType => nalUnitType

/-- `rbsp_init`, which leaves `num_consecutive_zeros` as it is. -/
def rbspInit (data : ℕ → UInt8) (size zeros : ℕ) : Stream := ⟨⟨data, size, 0, zeros, []⟩, 0⟩

/-- `nal_h264_write_start_code_prefix`. -/
def nalH264WriteStartCodePrefix (st : Stream) : Stream :=
  let p := divRoundUp8 st.rbsp.pos
  if st.rbsp.size < p + 4 then { st with error := -EINVAL }
  else
    let data := Function.update (Function.update (Function.update (Function.update st.rbsp.data p 0) (p + 1) 0)
      (p + 2) 0) (p + 3) 1
    { st with rbsp := { st.rbsp with data := data, pos := (st.rbsp.pos + 32) % POS_LIMIT } }

/-- `nal_h264_read_start_code_prefix`. -/
def nalH264ReadStartCodePrefix (st : Stream) : Stream :=
  let p := divRoundUp8 st.rbsp.pos
  if st.rbsp.size < p + 4 then { st with error := -EINVAL }
  else if st.rbsp.data p ≠ 0 ∨ st.rbsp.data (p + 1) ≠ 0 ∨ st.rbsp.data (p + 2) ≠ 0 ∨ st.rbsp.data (p + 3) ≠ 1 then
    { st with error := -EINVAL }
  else { st with rbsp := { st.rbsp with pos := (st.rbsp.pos + 32) % POS_LIMIT } }

/-- `nal_h264_rbsp_trailing_bits`. -/
def nalH264RbspTrailingBits (ops : NalH264Ops) (st : Stream) : Option Stream :=
  match latch ops.rbspBit st 1 with
  | none => none
  | some (st, _) => (latch (ops.rbspBits ((st.rbsp.pos + 7) / 8 * 8 - st.rbsp.pos)) st 0).map Prod.fst

/-- What a function gives at its end. -/
def nalResult (st : Stream) : ℤ := if st.error ≠ 0 then st.error else divRoundUp8 st.rbsp.pos

/-- `nal_h264_write_sps` and `nal_h264_write_pps`: the buffer and the result. -/
def nalH264WriteUnit [DecidableEq F] (nalUnitType : Word) (body : Walk F) (data : ℕ → UInt8) (n zeros : ℕ)
    (s : F → Word) : Option (Stream × ℤ) :=
  match nalUnitHeader.run write (nalH264WriteStartCodePrefix (rbspInit data n zeros)) (headerOf nalUnitType) with
  | none => none
  | some (st, _) =>
    match body.run write st s with
    | none => none
    | some (st, _) => (nalH264RbspTrailingBits write st).map fun st => (st, nalResult st)

/-- `nal_h264_write_sps`. -/
def nalH264WriteSps (data : ℕ → UInt8) (n zeros : ℕ) (sps : SpsField → Word) : Option (Stream × ℤ) :=
  nalH264WriteUnit SEQUENCE_PARAMETER_SET nalH264RbspSps data n zeros sps

/-- `nal_h264_write_pps`. -/
def nalH264WritePps (data : ℕ → UInt8) (n zeros : ℕ) (pps : PpsField → Word) : Option (Stream × ℤ) :=
  nalH264WriteUnit PICTURE_PARAMETER_SET nalH264RbspPps data n zeros pps

/-- The end of `nal_h264_read_sps` and `nal_h264_read_pps`: the struct and the result. -/
def nalH264ReadBody [DecidableEq F] (body : Walk F) (st : Stream) (s : F → Word) : Option ((F → Word) × ℤ) :=
  match body.run read st s with
  | none => none
  | some (st, s) => (nalH264RbspTrailingBits read st).map fun st => (s, nalResult st)

/-- `nal_h264_read_sps`.  `h` is what the local variables hold before. -/
def nalH264ReadSps (h : HeaderField → Word) (sps : SpsField → Word) (src : ℕ → UInt8) (n zeros : ℕ) :
    Option ((SpsField → Word) × ℤ) :=
  match nalUnitHeader.run read (nalH264ReadStartCodePrefix (rbspInit src n zeros)) h with
  | none => none
  | some (st, h) =>
    if st.error ≠ 0 ∨ h .forbiddenZeroBit ≠ 0 ∨ h .nalRefIdc ≠ 0 ∨ h .nalUnitType ≠ SEQUENCE_PARAMETER_SET then
      some (sps, -EINVAL)
    else nalH264ReadBody nalH264RbspSps st sps

/-- A byte is skipped. -/
def Stream.skipByte (st : Stream) : Stream :=
  { st with rbsp := { st.rbsp with pos := (st.rbsp.pos + 8) % POS_LIMIT } }

/-- `nal_h264_read_pps`, which skips the header. -/
def nalH264ReadPps (pps : PpsField → Word) (src : ℕ → UInt8) (n zeros : ℕ) : Option ((PpsField → Word) × ℤ) :=
  nalH264ReadBody nalH264RbspPps (nalH264ReadStartCodePrefix (rbspInit src n zeros)).skipByte pps

end Allegro
end TbsMedia
