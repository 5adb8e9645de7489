import Mathlib
import TbsMedia.Lib.Memory

/-!
# The block coder of FWHT

A plane is coded in blocks of eight by eight samples.  A block is transformed, quantised, scanned in
zigzag order and written as a header word and words of a run of zeros and a coefficient.  This file has
the functions of `codec-fwht.c` that work on one block.

* `fwht`, `fwht16`, `ifwht`: the Walsh-Hadamard transforms.
* `quantize`, `dequantize`: the coefficients that are coded, and what becomes of them.
* `rlc`, `derlc`: run-length coding and its inverse.
* `decideBlocktype`, `addDeltas`, `fillDecoderBlock`: prediction from the reference frame.
-/

namespace TbsMedia
namespace Vicodec

open Lib

def OVERFLOW_BIT : ℕ := 0x4000
def PFRAME_BIT : ℕ := 0x8000
def DUPS_MASK : ℕ := 0x1ffe
def ALL_ZEROS : ℕ := 15

/-- `PBLOCK` and `IBLOCK`. -/
inductive Blocktype where
  | pblock | iblock
  deriving DecidableEq, Repr

/-- Eight rows of eight values of type `s16`. -/
abbrev Block := Vector (Vector ℤ 8) 8

/-- The block with the values of a function of row and column. -/
def Block.ofFn (f : Fin 8 → Fin 8 → ℤ) : Block := Vector.ofFn fun y => Vector.ofFn (f y)

/-- The value in row `y` and column `x`. -/
def Block.at (b : Block) (y x : Fin 8) : ℤ := (b[y])[x]

@[simp] theorem Block.at_ofFn (f : Fin 8 → Fin 8 → ℤ) (y x : Fin 8) : (Block.ofFn f).at y x = f y x := by
  simp [Block.at, Block.ofFn]

/-- Blocks with the same values are equal. -/
theorem Block.ext {b c : Block} (h : ∀ y x, b.at y x = c.at y x) : b = c := by
  ext y hy x hx
  exact h ⟨y, hy⟩ ⟨x, hx⟩

/-- What a variable of type `s16` holds after a store. -/
def s16 (v : ℤ) : ℤ := (v + 32768) % 65536 - 32768

/-- What a variable of type `u32` holds after a store. -/
def u32 (v : ℕ) : ℕ := v % 2 ^ 32

/-- The difference of two values of type `u32`. -/
def u32Sub (a b : ℕ) : ℕ := u32 (a + 2 ^ 32 - u32 b)

/-- `round_up(x, 8)` of a value of type `u32`. -/
def roundUp8 (x : ℕ) : ℕ := u32 ((x + 7) / 8 * 8)

theorem s16_eq {v : ℤ} (h : -32768 ≤ v) (h' : v ≤ 32767) : s16 v = v := by
  unfold s16
  omega

theorem u32Sub_eq {a b : ℕ} (ha : a < 2 ^ 32) (h : b ≤ a) : u32Sub a b = a - b := by
  unfold u32Sub u32
  omega

theorem eight_dvd_roundUp8 (x : ℕ) : 8 ∣ roundUp8 x := by
  unfold roundUp8 u32
  omega

/-! ## Zigzag order -/

/-- The table `zigzag`, in pairs of a row and a column. -/
def zigzag : List (Fin 8 × Fin 8) :=
  [(0, 0),
   (0, 1), (1, 0),
   (0, 2), (1, 1), (2, 0),
   (0, 3), (1, 2), (2, 1), (3, 0),
   (0, 4), (1, 3), (2, 2), (3, 1), (4, 0),
   (0, 5), (1, 4), (2, 3), (3, 2), (4, 1), (5, 0),
   (0, 6), (1, 5), (2, 4), (3, 3), (4, 2), (5, 1), (6, 0),
   (0, 7), (1, 6), (2, 5), (3, 4), (4, 3), (5, 2), (6, 1), (7, 0),
   (1, 7), (2, 6), (3, 5), (4, 4), (5, 3), (6, 2), (7, 1),
   (2, 7), (3, 6), (4, 5), (5, 4), (6, 3), (7, 2),
   (3, 7), (4, 6), (5, 5), (6, 4), (7, 3),
   (4, 7), (5, 6), (6, 5), (7, 4),
   (5, 7), (6, 6), (7, 5),
   (6, 7), (7, 6),
   (7, 7)]

/-- The values of a block in zigzag order. -/
def Block.scan (b : Block) : List ℤ := zigzag.map fun p => b.at p.1 p.2

/-- One value of a block replaced. -/
def Block.set (b : Block) (y x : Fin 8) (v : ℤ) : Block := Vector.set b y (Vector.set (b[y]) x v)

/-- The block that the last loop of `derlc` stores to `dwht_out` from the values at `wp`. -/
def unscan (dwhtOut : Block) (wp : List ℤ) : Block :=
  (zigzag.zip wp).foldl (fun out p => out.set p.1.1 p.1.2 p.2) dwhtOut

@[simp] theorem length_scan (b : Block) : b.scan.length = 64 := rfl

/-! ## Transforms -/

/-- The three stages of a transform of eight values. -/
def stages (add : ℤ) (tmp : Fin 8 → ℤ) : Fin 8 → ℤ :=
  -- stage 1
  let w₁ : Fin 8 → ℤ := ![
    tmp 0 + tmp 1 - add, tmp 0 - tmp 1, tmp 2 + tmp 3 - add, tmp 2 - tmp 3,
    tmp 4 + tmp 5 - add, tmp 4 - tmp 5, tmp 6 + tmp 7 - add, tmp 6 - tmp 7]
  -- stage 2
  let w₂ : Fin 8 → ℤ := ![
    w₁ 0 + w₁ 2, w₁ 0 - w₁ 2, w₁ 1 - w₁ 3, w₁ 1 + w₁ 3,
    w₁ 4 + w₁ 6, w₁ 4 - w₁ 6, w₁ 5 - w₁ 7, w₁ 5 + w₁ 7]
  -- stage 3
  ![w₂ 0 + w₂ 4, w₂ 0 - w₂ 4, w₂ 1 - w₂ 5, w₂ 1 + w₂ 5,
    w₂ 2 + w₂ 6, w₂ 2 - w₂ 6, w₂ 3 - w₂ 7, w₂ 3 + w₂ 7]

/-- The first loop of a transform: the rows of a block. -/
def rowPass (add : ℤ) (tmp : Block) : Block := .ofFn fun y x => s16 (stages add (tmp.at y) x)

/-- The second loop of a transform: the columns of a block. -/
def columnPass (out : Block) : Block := .ofFn fun y x => s16 (stages 0 (fun k => out.at k x) y)

/-- How far the samples of a row are apart for the `switch` of `fwht`. -/
def tapStep (inputStep : ℕ) : ℕ :=
  if inputStep = 1 then 1 else if inputStep = 2 then 2 else if inputStep = 3 then 3 else 4

def fwht (m : Mem UInt8) (block stride inputStep : ℕ) (intra : Bool) : Block :=
  columnPass (rowPass (if intra then 256 else 0) (.ofFn fun y x =>
    ((m (block + y * stride + x * tapStep inputStep)).toNat : ℤ)))

def fwht16 (block : Block) : Block := columnPass (rowPass 0 block)

def ifwht (block : Block) (intra : Bool) : Block :=
  let out := columnPass (rowPass 0 block)
  .ofFn fun y x => if intra then s16 (out.at y x / 2 ^ 6 + 128) else out.at y x / 2 ^ 6

/-! ## Quantisation -/

def quantTable : Fin 8 → Fin 8 → ℕ :=
  ![![2, 2, 2, 2, 2, 2, 2, 2],
    ![2, 2, 2, 2, 2, 2, 2, 2],
    ![2, 2, 2, 2, 2, 2, 2, 3],
    ![2, 2, 2, 2, 2, 2, 3, 6],
    ![2, 2, 2, 2, 2, 3, 6, 6],
    ![2, 2, 2, 2, 3, 6, 6, 6],
    ![2, 2, 2, 3, 6, 6, 6, 6],
    ![2, 2, 3, 6, 6, 6, 6, 8]]

def quantTableP : Fin 8 → Fin 8 → ℕ :=
  ![![3, 3, 3, 3, 3, 3, 3, 3],
    ![3, 3, 3, 3, 3, 3, 3, 3],
    ![3, 3, 3, 3, 3, 3, 3, 3],
    ![3, 3, 3, 3, 3, 3, 3, 6],
    ![3, 3, 3, 3, 3, 3, 6, 6],
    ![3, 3, 3, 3, 3, 6, 6, 9],
    ![3, 3, 3, 3, 6, 6, 9, 9],
    ![3, 3, 3, 6, 6, 9, 9, 10]]

/-- What the loop body of `quantize_intra` and `quantize_inter` leaves in `*coeff`. -/
def quantizeCoeff (quant qp : ℕ) (coeff : ℤ) : ℤ :=
  let c := coeff / 2 ^ quant
  if -qp ≤ c ∧ c ≤ qp then 0 else c

/-- What the loop body of `quantize_intra` and `quantize_inter` leaves in `*de_coeff`. -/
def quantizeDeCoeff (quant qp : ℕ) (coeff : ℤ) : ℤ :=
  let c := coeff / 2 ^ quant
  if -qp ≤ c ∧ c ≤ qp then 0 else s16 (c * 2 ^ quant)

/-- `coeff` and `de_coeff` after quantisation by a table. -/
def quantize (quant : Fin 8 → Fin 8 → ℕ) (qp : ℕ) (coeff : Block) : Block × Block :=
  (.ofFn fun y x => quantizeCoeff (quant y x) qp (coeff.at y x),
   .ofFn fun y x => quantizeDeCoeff (quant y x) qp (coeff.at y x))

def quantizeIntra (qp : ℕ) (coeff : Block) : Block × Block := quantize quantTable qp coeff

def quantizeInter (qp : ℕ) (coeff : Block) : Block × Block := quantize quantTableP qp coeff

def dequantize (quant : Fin 8 → Fin 8 → ℕ) (coeff : Block) : Block :=
  .ofFn fun y x => s16 (coeff.at y x * 2 ^ quant y x)

def dequantizeIntra (coeff : Block) : Block := dequantize quantTable coeff

def dequantizeInter (coeff : Block) : Block := dequantize quantTableP coeff

/-! ## Run-length coding -/

/-- The word `htons((cnt | tmp << 4))`; the low four bits of the shifted value are clear. -/
def runWord (cnt : ℕ) (tmp : ℤ) : ℕ := ((cnt + tmp * 16) % 65536).toNat

/-- The words of the values up to `to_encode`, behind a run of `cnt` zeros. -/
def encodeRuns (cnt : ℕ) : List ℤ → List ℕ
  | [] => []
  | tmp :: rest =>
    if tmp = 0 ∧ cnt < 14 then
      -- the run has come to `to_encode`: its last zero is the coefficient
      if rest = [] then [runWord cnt 0] else encodeRuns (cnt + 1) rest
    else runWord cnt tmp :: encodeRuns 0 rest

/-- The number of zeros a scan ends with. -/
def lastzeroRun (block : List ℤ) : ℕ := (block.reverse.takeWhile (· = 0)).length

/-- The header word that `rlc` writes. -/
def header (blocktype : Blocktype) : ℕ := if blocktype = .pblock then PFRAME_BIT else 0

/-- The words of `rlc` behind the header. -/
def rlcPayload (block : List ℤ) : List ℕ :=
  let run := lastzeroRun block
  let toEncode := 8 * 8 - if 14 < run then run else 0
  encodeRuns 0 (block.take toEncode) ++ if 14 < run then [ALL_ZEROS] else []

def rlc (input : Block) (blocktype : Blocktype) : List ℕ :=
  header blocktype :: rlcPayload input.scan

/-- The word at index `i` of a buffer of big-endian words. -/
def ntohs (data : Mem UInt8) (i : ℕ) : ℕ := (data (2 * i)).toNat * 256 + (data (2 * i + 1)).toNat

/-- The state of the loop of `derlc`: the word `input` points to, `dec_count`, what has been written to
`block`, and the bytes that have been read. -/
structure RunState where
  input : ℕ
  decCount : ℕ
  block : List ℤ
  reads : List ℕ

/-- One word expanded. -/
def RunState.expand (s : RunState) (data : Mem UInt8) : RunState :=
  let word := ntohs data s.input
  let length := word % 16
  { input := s.input + 1
    decCount := s.decCount + length + 1
    block := s.block ++ List.replicate length 0 ++ [s16 word / 16]
    reads := s.reads ++ [2 * s.input, 2 * s.input + 1] }

/-- The rest of the block filled with zeros. -/
def RunState.fill (s : RunState) : RunState :=
  { s with
    input := s.input + 1
    block := s.block ++ List.replicate (64 - s.decCount) 0
    reads := s.reads ++ [2 * s.input, 2 * s.input + 1] }

/-- The loop of `derlc`, and whether it has been left without an overflow. -/
def decodeRuns (data : Mem UInt8) (endOfInput : ℤ) (s : RunState) : Bool × RunState :=
  if s.decCount < 8 * 8 then
    if endOfInput < s.input then (false, s)
    else if ntohs data s.input % 16 = 15 then (true, s.fill)
    else decodeRuns data endOfInput (s.expand data)
  else (true, s)
termination_by 64 - s.decCount
decreasing_by
  unfold RunState.expand
  dsimp only
  omega

/-- What `derlc` returns and stores; `written` is what it has written to its array `block`, and `reads`
the bytes it has read. -/
structure Derlc where
  stat : ℕ
  dwhtOut : Block
  rlcIn : ℕ
  written : List ℤ
  reads : List ℕ

def derlc (data : Mem UInt8) (rlcIn : ℕ) (coeffs : Block) (endOfInput : ℤ) : Derlc :=
  if endOfInput < rlcIn then ⟨OVERFLOW_BIT, coeffs, rlcIn, [], []⟩
  else
    let stat := ntohs data rlcIn
    let r := decodeRuns data endOfInput ⟨rlcIn + 1, 0, [], [2 * rlcIn, 2 * rlcIn + 1]⟩
    if r.1 then ⟨stat, unscan coeffs r.2.block, r.2.input, r.2.block, r.2.reads⟩
    else ⟨OVERFLOW_BIT, coeffs, rlcIn, r.2.block, r.2.reads⟩

/-! ## Samples -/

/-- The address of a sample in the loops over a block with `input += stride - 8 * input_step`. -/
def sampleAddr (base stride step y x : ℕ) : ℕ :=
  base + y * (8 * step + u32Sub stride (8 * step)) + x * step

def fillEncoderBlock (m : Mem UInt8) (input stride inputStep : ℕ) : Block := .ofFn fun y x =>
  ((m (sampleAddr input stride inputStep y x)).toNat : ℤ)

/-- The sum of a value over all positions of a block. -/
def Block.sum (f : Fin 8 → Fin 8 → ℤ) : ℤ :=
  ((List.finRange 8).map fun y => ((List.finRange 8).map (f y)).sum).sum

/-- The distance that is summed up by `var_intra` and `var_inter`. -/
def distance (a b : ℤ) : ℤ := if a - b < 0 then -(a - b) else a - b

def varIntra (input : Block) : ℤ :=
  let mean := (Block.sum input.at).tdiv 64
  Block.sum fun y x => distance (input.at y x) mean

def varInter (old new : Block) : ℤ := Block.sum fun y x => distance (old.at y x) (new.at y x)

/-- The block type, and the differences to the reference. -/
def decideBlocktype (m : Mem UInt8) (cur stride inputStep : ℕ) (ref : Mem UInt8) (reference : ℕ) :
    Blocktype × Block :=
  let tmp := fillEncoderBlock m cur stride inputStep
  let old := fillEncoderBlock ref reference 8 1
  (if varIntra tmp ≤ varInter old tmp then .iblock else .pblock,
    .ofFn fun y x => s16 (tmp.at y x - old.at y x))

/-- What `fill_decoder_block` stores for a value. -/
def clampSample (v : ℤ) : UInt8 := if v < 0 then 0 else if 255 < v then 255 else UInt8.ofNat v.toNat

/-- The stores of `fill_decoder_block`, row by row. -/
def fillDecoderBlock (dst : ℕ) (input : Block) (stride dstStep : ℕ) : List (ℕ × UInt8) :=
  (List.finRange 8).flatMap fun y : Fin 8 => (List.finRange 8).map fun x : Fin 8 =>
    (sampleAddr dst stride dstStep y x, clampSample (input.at y x))

/-- One delta added to its reference, kept in the range of a sample. -/
def addDelta (delta ref : ℤ) : ℤ :=
  let d := s16 (delta + ref)
  if d < 0 then 0 else if 255 < d then 255 else d

def addDeltas (deltas : Block) (m : Mem UInt8) (ref stride refStep : ℕ) : Block :=
  .ofFn fun y x => addDelta (deltas.at y x) (m (sampleAddr ref stride refStep y x)).toNat

end Vicodec
end TbsMedia
