import Mathlib
import TbsMedia.Lib.ByteBits

/-!
# Decompression of Altera programming files

`altera-comp.c` unpacks literals and back references from a stream of bits.  It looks at no length of its input and
takes the offsets as they come.

An item is described by the bits that it takes, not by the run (`ItemAt`), and there is one at most at a
position.  A turn unpacks it, or fails because there is none (`item_spec`); every turn moves on in the input, so
the loop ends, and it ends without a fault exactly where items follow to the end of the data.

* `alteraBitsReq`, `alteraReadPacked`, `alteraShrink`: the functions; what leaves a buffer is a fault.
* `readPacked_spec`: what is read, and when the reading leaves the input.
* `Complete`: a stream whose items are all in the input, with offsets into the bytes before them.
* `isSafe_iff`: the complete streams are the ones that are unpacked without a fault.
-/

namespace TbsMedia
namespace Altera

open Lib.ByteBits

/-! ## The code -/

/-- What goes wrong: a read outside the input, a write outside the output, a copy from outside the output; or the
steps of the model do not suffice. -/
inductive Fault where
  | input
  | output
  | back
  | fuel
  deriving DecidableEq

/-- The loop of `altera_bits_req`. -/
def bitsReqLoop : ℕ → BitVec 32 → ℕ
  | 0, _ => 0
  | result + 1, n => if n &&& (1 : BitVec 32) <<< 15 = 0 then bitsReqLoop result (n <<< 1) else result + 1

def alteraBitsReq (n : BitVec 32) : ℕ := if n = 0 then 1 else bitsReqLoop 16 n

/-- `in_index` and `bits_avail`. -/
structure Cursor where
  inIndex : ℕ
  bitsAvail : ℕ
  deriving DecidableEq

/-- The loop of `altera_read_packed`. -/
def readLoop (buffer : List UInt8) : ℕ → ℕ → ℕ → ℕ → Cursor → Except Fault (ℕ × Cursor)
  | 0, _, _, _, _ => .error .fuel
  | fuel + 1, bits, shift, result, c =>
    if bits = 0 then .ok (result, c)
    else
      match buffer[c.inIndex]? with
      | none => .error .input
      | some databyte =>
        let result := result |||
          (((databyte.toNat >>> (8 - c.bitsAvail)) &&& (0xff >>> (8 - c.bitsAvail))) <<< shift)
        if bits ≤ c.bitsAvail then
          .ok (result &&& (0xffff >>> (16 - (bits + shift))), ⟨c.inIndex, c.bitsAvail - bits⟩)
        else readLoop buffer fuel (bits - c.bitsAvail) (shift + c.bitsAvail) result ⟨c.inIndex + 1, 8⟩

/-- `altera_read_packed`; only the first turn may find no bits. -/
def alteraReadPacked (buffer : List UInt8) (bits : ℕ) (c : Cursor) : Except Fault (ℕ × Cursor) :=
  readLoop buffer (bits + 2) bits 0 0 c

/-- The loop that reads the length of the data. -/
def lengthLoop (input : List UInt8) : ℕ → ℕ → ℕ → Cursor → Except Fault (ℕ × Cursor)
  | 0, _, dataLength, c => .ok (dataLength, c)
  | n + 1, i, dataLength, c => do
    let (byte, c) ← alteraReadPacked input 8 c
    lengthLoop input n (i + 1) (dataLength ||| byte <<< (i * 8)) c

/-- The variables of the main loop. -/
structure Shrink where
  out : List UInt8
  i : ℕ
  cursor : Cursor

/-- `out[i] = …` -/
def Shrink.put (s : Shrink) (byte : UInt8) : Except Fault Shrink :=
  if s.i < s.out.length then .ok { s with out := s.out.set s.i byte, i := s.i + 1 } else .error .output

/-- The bytes of a literal. -/
def literalLoop (input : List UInt8) (dataLength : ℕ) : ℕ → Shrink → Except Fault Shrink
  | 0, s => .ok s
  | n + 1, s =>
    if s.i < dataLength then do
      let (byte, c) ← alteraReadPacked input 8 s.cursor
      let s ← { s with cursor := c }.put (UInt8.ofNat byte)
      literalLoop input dataLength n s
    else literalLoop input dataLength n s

/-- The bytes of a back reference. -/
def copyLoop (dataLength offset : ℕ) : ℕ → Shrink → Except Fault Shrink
  | 0, s => .ok s
  | n + 1, s =>
    if s.i < dataLength then
      if offset ≤ s.i then do
        let s ← s.put (s.out.getD (s.i - offset) 0)
        copyLoop dataLength offset n s
      else .error .back
    else copyLoop dataLength offset n s

/-- The width of an offset at a position. -/
def offsetBits (matchDataLength i : ℕ) : ℕ :=
  alteraBitsReq ((BitVec.ofNat 16 (if i > matchDataLength then matchDataLength else i)).signExtend 32)

/-- A turn of the main loop. -/
def item (input : List UInt8) (matchDataLength dataLength : ℕ) (s : Shrink) : Except Fault Shrink := do
  let (flag, c) ← alteraReadPacked input 1 s.cursor
  if flag = 0 then literalLoop input dataLength 3 { s with cursor := c }
  else
    let (offset, c) ← alteraReadPacked input (offsetBits matchDataLength s.i) c
    let (length, c) ← alteraReadPacked input 8 c
    copyLoop dataLength offset length { s with cursor := c }

def shrinkLoop (input : List UInt8) (matchDataLength dataLength : ℕ) : ℕ → Shrink → Except Fault Shrink
  | 0, _ => .error .fuel
  | fuel + 1, s =>
    if s.i < dataLength then do
      let s ← item input matchDataLength dataLength s
      shrinkLoop input matchDataLength dataLength fuel s
    else .ok s

/-- `altera_shrink`: the output and the result. -/
def alteraShrink (fuel : ℕ) (input out : List UInt8) (version : ℤ) : Except Fault (List UInt8 × ℕ) := do
  let matchDataLength := if version > 0 then 8192 - 1 else 8192
  let out := List.replicate out.length 0
  let (dataLength, c) ← lengthLoop input 4 0 0 ⟨0, 8⟩
  if dataLength > out.length then return (out, 0)
  let s ← shrinkLoop input matchDataLength dataLength fuel ⟨out, 0, c⟩
  return (s.out, dataLength)

/-! ## The width of an offset -/

/-- `n & (1 << (SHORT_BITS - 1))`, of a short number. -/
theorem and_bit15_eq_zero {n : BitVec 32} (hn : n.toNat < 2 ^ 16) :
    n &&& (1 : BitVec 32) <<< 15 = 0 ↔ n.toNat < 2 ^ 15 := by
  have hone : (1 : BitVec 32) <<< 15 = BitVec.twoPow 32 15 := rfl
  have hbit : n.getLsbD 15 = decide (n.toNat / 2 ^ 15 % 2 = 1) := Nat.testBit_eq_decide_div_mod_eq
  rw [hone, BitVec.and_twoPow, hbit]
  by_cases hlt : n.toNat < 2 ^ 15
  · have hnot : ¬ n.toNat / 2 ^ 15 % 2 = 1 := by omega
    rw [decide_eq_false hnot, if_neg Bool.false_ne_true]
    exact iff_of_true rfl hlt
  · have hset : n.toNat / 2 ^ 15 % 2 = 1 := by omega
    rw [decide_eq_true hset, if_pos rfl]
    exact iff_of_false (by decide) hlt

/-- The loop has shifted the number so that its highest bit is found when its length is left. -/
theorem bitsReqLoop_eq {r m : ℕ} {n : BitVec 32} (hr : r ≤ 16) (hn : n.toNat = m * 2 ^ (16 - r)) (hm : 0 < m)
    (hlt : m < 2 ^ r) : bitsReqLoop r n = m.size := by
  induction r generalizing n with
  | zero => omega
  | succ r ih =>
    have hscale : 2 ^ (r + 1) * 2 ^ (16 - (r + 1)) = 2 ^ 16 := by
      rw [← pow_add]
      congr 1
      omega
    have hhalf : 2 ^ r * 2 ^ (16 - (r + 1)) = 2 ^ 15 := by
      rw [← pow_add]
      congr 1
      omega
    have hpos : 0 < 2 ^ (16 - (r + 1)) := by positivity
    have hn16 : n.toNat < 2 ^ 16 := by
      rw [hn, ← hscale]
      exact Nat.mul_lt_mul_of_pos_right hlt hpos
    unfold bitsReqLoop
    by_cases hsmall : n.toNat < 2 ^ 15
    · rw [if_pos ((and_bit15_eq_zero hn16).mpr hsmall)]
      refine ih (by omega) ?_ ?_
      · have hdouble : 2 ^ (16 - r) = 2 ^ (16 - (r + 1)) * 2 := by
          rw [← pow_succ]
          congr 1
          omega
        rw [BitVec.toNat_shiftLeft, Nat.shiftLeft_eq, pow_one, Nat.mod_eq_of_lt (by omega), hn, hdouble, mul_assoc]
      · rw [hn, ← hhalf] at hsmall
        exact Nat.lt_of_mul_lt_mul_right hsmall
    · rw [if_neg fun h => hsmall ((and_bit15_eq_zero hn16).mp h)]
      have hge : 2 ^ r ≤ m := by
        rw [hn, ← hhalf, not_lt] at hsmall
        exact Nat.le_of_mul_le_mul_right hsmall hpos
      have hle := Nat.size_le.mpr hlt
      have hgt := Nat.lt_size.mpr hge
      omega

/-- **The width of an offset**: the length of the position, or of the window behind it. -/
theorem offsetBits_eq {matchDataLength : ℕ} (h : matchDataLength ≤ 8192) (i : ℕ) :
    offsetBits matchDataLength i = max 1 (min i matchDataLength).size := by
  have hmin : (if i > matchDataLength then matchDataLength else i) = min i matchDataLength := by
    split <;> omega
  have hcast : ((BitVec.ofNat 16 (min i matchDataLength)).signExtend 32).toNat = min i matchDataLength := by
    have hnat : (BitVec.ofNat 16 (min i matchDataLength)).toNat = min i matchDataLength := by
      rw [BitVec.toNat_ofNat, Nat.mod_eq_of_lt (by omega)]
    have hmsb : (BitVec.ofNat 16 (min i matchDataLength)).msb = false := by
      rw [BitVec.msb_eq_false_iff_two_mul_lt, hnat]
      omega
    rw [BitVec.signExtend_eq_setWidth_of_msb_false hmsb, BitVec.toNat_setWidth, hnat, Nat.mod_eq_of_lt (by omega)]
  unfold offsetBits alteraBitsReq
  rw [hmin]
  generalize (BitVec.ofNat 16 (min i matchDataLength)).signExtend 32 = n at hcast
  by_cases hzero : n = 0
  · subst hzero
    rw [if_pos rfl, ← hcast]
    rfl
  · have hpos : 0 < min i matchDataLength := by
      rw [← hcast]
      exact Nat.pos_of_ne_zero fun hn => hzero (BitVec.eq_of_toNat_eq hn)
    rw [if_neg hzero, bitsReqLoop_eq (m := min i matchDataLength) le_rfl (by rw [hcast]; omega) hpos (by omega)]
    have := Nat.size_pos.mpr hpos
    omega

theorem offsetBits_bounds {matchDataLength : ℕ} (h : matchDataLength ≤ 8192) (i : ℕ) :
    1 ≤ offsetBits matchDataLength i ∧ offsetBits matchDataLength i ≤ 16 := by
  have hsize : (min i matchDataLength).size ≤ 16 := Nat.size_le.mpr (by omega)
  rw [offsetBits_eq h]
  omega

/-! ## Reading -/

/-- The number of bits that have been read. -/
def Cursor.position (c : Cursor) : ℕ := 8 * c.inIndex + (8 - c.bitsAvail)

/-- What a turn takes from a byte. -/
theorem taken_eq {buffer : List UInt8} {c : Cursor} {d : UInt8} (hd : buffer[c.inIndex]? = some d)
    (hc : c.bitsAvail ≤ 8) :
    (d.toNat >>> (8 - c.bitsAvail)) &&& (0xff >>> (8 - c.bitsAvail)) = field buffer c.position c.bitsAvail := by
  have hmask : (0xff : ℕ) = 2 ^ 8 - 1 := rfl
  refine Nat.eq_of_testBit_eq fun k => ?_
  rw [Nat.testBit_and, Nat.testBit_shiftRight, Nat.testBit_shiftRight, hmask, Nat.testBit_two_pow_sub_one,
    testBit_field]
  unfold Cursor.position
  by_cases hk : k < c.bitsAvail
  · have hin : 8 - c.bitsAvail + k < 8 := by omega
    rw [testBit_byte hd hin, decide_eq_true hin, decide_eq_true hk, Bool.and_true, Bool.true_and, Nat.add_assoc]
  · have hout : ¬ 8 - c.bitsAvail + k < 8 := by omega
    rw [decide_eq_false hout, decide_eq_false hk, Bool.and_false, Bool.false_and]

/-- The mask at the end leaves the bits that were asked for. -/
theorem masked_eq (buffer : List UInt8) (p : ℕ) {bits avail shift result : ℕ} (hle : bits ≤ avail)
    (hshort : bits + shift ≤ 16) (hresult : result < 2 ^ shift) :
    (result ||| field buffer p avail <<< shift) &&& (0xffff >>> (16 - (bits + shift))) =
      result ||| field buffer p bits <<< shift := by
  have hmask : (0xffff : ℕ) = 2 ^ 16 - 1 := rfl
  refine Nat.eq_of_testBit_eq fun k => ?_
  rw [Nat.testBit_and, Nat.testBit_shiftRight, hmask, Nat.testBit_two_pow_sub_one, Nat.testBit_or, Nat.testBit_or,
    Nat.testBit_shiftLeft, Nat.testBit_shiftLeft, testBit_field, testBit_field]
  by_cases hk : k < shift
  · have hkept : 16 - (bits + shift) + k < 16 := by omega
    have hnot : ¬ k ≥ shift := by omega
    rw [decide_eq_true hkept, decide_eq_false hnot, Bool.false_and, Bool.and_true, Bool.false_and]
  · have hnone : result.testBit k = false :=
      Nat.testBit_lt_two_pow (hresult.trans_le (Nat.pow_le_pow_right (by decide) (not_lt.mp hk)))
    have hkept : 16 - (bits + shift) + k < 16 ↔ k - shift < bits := by omega
    rw [hnone, Bool.false_or, Bool.false_or, decide_eq_decide.mpr hkept, decide_eq_true (not_lt.mp hk), Bool.true_and,
      Bool.true_and]
    by_cases hj : k - shift < bits
    · rw [decide_eq_true hj, decide_eq_true (hj.trans_le hle), Bool.and_true]
    · rw [decide_eq_false hj, Bool.and_false, Bool.false_and]

/-- The loop, after `shift` bits. -/
theorem readLoop_spec (buffer : List UInt8) (fuel bits shift result : ℕ) (c : Cursor) (hc : c.bitsAvail ≤ 8)
    (hbits : 0 < bits) (hshort : bits + shift ≤ 16) (hresult : result < 2 ^ shift)
    (hfuel : bits + 1 < fuel ∨ (bits < fuel ∧ 0 < c.bitsAvail)) :
    (c.position + bits ≤ 8 * buffer.length → ∃ c', readLoop buffer fuel bits shift result c =
        .ok (result ||| field buffer c.position bits <<< shift, c') ∧
        c'.bitsAvail ≤ 8 ∧ c'.position = c.position + bits) ∧
      (8 * buffer.length < c.position + bits → readLoop buffer fuel bits shift result c = .error .input) := by
  induction fuel generalizing bits shift result c with
  | zero => omega
  | succ fuel ih =>
    have hposition : c.position = 8 * c.inIndex + (8 - c.bitsAvail) := rfl
    unfold readLoop
    rw [if_neg hbits.ne']
    by_cases hin : c.inIndex < buffer.length
    · have hget : buffer[c.inIndex]? = some buffer[c.inIndex] := List.getElem?_eq_getElem hin
      rw [hget]
      dsimp only
      rw [taken_eq hget hc]
      by_cases hlast : bits ≤ c.bitsAvail
      · rw [if_pos hlast, masked_eq buffer c.position hlast hshort hresult]
        refine ⟨fun _ => ⟨_, rfl, (Nat.sub_le _ _).trans hc, ?_⟩, fun hout => by omega⟩
        unfold Cursor.position
        dsimp only
        omega
      · have hnext : (⟨c.inIndex + 1, 8⟩ : Cursor).position = c.position + c.bitsAvail := by
          unfold Cursor.position
          dsimp only
          omega
        have hresult' : result ||| field buffer c.position c.bitsAvail <<< shift < 2 ^ (shift + c.bitsAvail) := by
          refine Nat.or_lt_two_pow (hresult.trans_le (Nat.pow_le_pow_right (by decide) (by omega))) ?_
          rw [Nat.shiftLeft_eq, mul_comm, pow_add]
          exact Nat.mul_lt_mul_of_pos_left (field_lt buffer c.position c.bitsAvail) (by positivity)
        obtain ⟨hok, herror⟩ := ih (bits - c.bitsAvail) _ _ ⟨c.inIndex + 1, 8⟩ le_rfl (by omega) (by omega)
          hresult' (by dsimp only; omega)
        rw [hnext] at hok herror
        have hsum : c.bitsAvail + (bits - c.bitsAvail) = bits := by omega
        have hsplit : field buffer c.position bits <<< shift = field buffer c.position c.bitsAvail <<< shift |||
            field buffer (c.position + c.bitsAvail) (bits - c.bitsAvail) <<< (shift + c.bitsAvail) := by
          rw [← hsum, field_add, Nat.shiftLeft_or_distrib, ← Nat.shiftLeft_add, Nat.add_comm shift, hsum]
        rw [if_neg hlast]
        refine ⟨fun hfit => ?_, fun hout => herror (by omega)⟩
        obtain ⟨c', hread, hc', hposition'⟩ := hok (by omega)
        refine ⟨c', ?_, hc', by omega⟩
        rw [hread, hsplit, Nat.lor_assoc]
    · have hnone : buffer[c.inIndex]? = none := List.getElem?_eq_none (not_lt.mp hin)
      rw [hnone]
      exact ⟨fun hfit => by omega, fun _ => rfl⟩

variable {input : List UInt8} {c : Cursor}

variable (input) in
/-- **What is read**: the number in the next bits, when they are in the input. -/
theorem readPacked_spec {bits : ℕ} (hc : c.bitsAvail ≤ 8) (hbits : 1 ≤ bits) (hle : bits ≤ 16)
    (hfit : c.position + bits ≤ 8 * input.length) :
    ∃ c', alteraReadPacked input bits c = .ok (field input c.position bits, c') ∧ c'.bitsAvail ≤ 8 ∧
      c'.position = c.position + bits := by
  obtain ⟨c', hread, hc', hposition⟩ := (readLoop_spec input (bits + 2) bits 0 0 c
    hc hbits hle (by decide) (by omega)).1 hfit
  rw [Nat.zero_or, Nat.shiftLeft_zero] at hread
  exact ⟨c', hread, hc', hposition⟩

/-- Bits that are not in the input are read outside it. -/
theorem readPacked_error {bits : ℕ} (hc : c.bitsAvail ≤ 8) (hbits : 1 ≤ bits) (hle : bits ≤ 16)
    (hout : 8 * input.length < c.position + bits) : alteraReadPacked input bits c = .error .input :=
  (readLoop_spec input _ _ _ _ _ hc hbits hle (by decide) (by omega)).2 hout

variable (input) in
/-- The length of the data is in the first four bytes. -/
theorem lengthLoop_spec {n i : ℕ} (hc : c.bitsAvail ≤ 8) (hposition : c.position = 8 * i) :
    (8 * (i + n) ≤ 8 * input.length → ∃ c', lengthLoop input n i (field input 0 (8 * i)) c =
        .ok (field input 0 (8 * (i + n)), c') ∧ c'.bitsAvail ≤ 8 ∧ c'.position = 8 * (i + n)) ∧
      (n ≠ 0 → 8 * input.length < 8 * (i + n) → lengthLoop input n i (field input 0 (8 * i)) c = .error .input) := by
  induction n generalizing i c with
  | zero => exact ⟨fun _ => ⟨c, rfl, hc, hposition⟩, fun h => absurd rfl h⟩
  | succ n ih =>
    have hcount : i + 1 + n = i + (n + 1) := by omega
    unfold lengthLoop
    by_cases hfit : c.position + 8 ≤ 8 * input.length
    · obtain ⟨c', hread, hc', hposition'⟩ := readPacked_spec input hc (by decide) (by decide) hfit
      have hnext : field input 0 (8 * i) ||| field input c.position 8 <<< (i * 8) = field input 0 (8 * (i + 1)) := by
        rw [Nat.mul_add, Nat.mul_one, field_add, hposition, Nat.zero_add, Nat.mul_comm i 8]
      obtain ⟨hok, herror⟩ := ih (i := i + 1) hc' (by omega)
      rw [hcount] at hok herror
      rw [hread]
      change (_ → ∃ c'', lengthLoop input n (i + 1) (field input 0 (8 * i) ||| field input c.position 8 <<< (i * 8)) c' =
        _ ∧ _) ∧ (_ → _ → lengthLoop input n (i + 1)
          (field input 0 (8 * i) ||| field input c.position 8 <<< (i * 8)) c' = _)
      rw [hnext]
      refine ⟨hok, fun _ hout => herror (fun hn => ?_) hout⟩
      omega
    · rw [readPacked_error hc (by decide) (by decide) (not_le.mp hfit)]
      exact ⟨fun h => by omega, fun _ _ => rfl⟩

/-! ## The items of a stream -/

/-- The number of bits that an offset has at a position. -/
def offsetWidth (matchDataLength i : ℕ) : ℕ := max 1 (min i matchDataLength).size

/-- From the bit `p` on, with `i` bytes unpacked, the input has an item behind which `i'` bytes are unpacked and the
bit is `p'`: up to three bytes, or an offset into the bytes before and a length. -/
inductive ItemAt (input : List UInt8) (matchDataLength dataLength : ℕ) : ℕ → ℕ → ℕ → ℕ → Prop
  | literal {i p : ℕ} (hflag : field input p 1 = 0)
      (hfit : p + 1 + 8 * min 3 (dataLength - i) ≤ 8 * input.length) :
      ItemAt input matchDataLength dataLength i p (i + min 3 (dataLength - i)) (p + 1 + 8 * min 3 (dataLength - i))
  | copy {i p offset length : ℕ} (hflag : field input p 1 ≠ 0)
      (hoffset : field input (p + 1) (offsetWidth matchDataLength i) = offset)
      (hlength : field input (p + 1 + offsetWidth matchDataLength i) 8 = length)
      (hfit : p + 1 + offsetWidth matchDataLength i + 8 ≤ 8 * input.length) (hback : length = 0 ∨ offset ≤ i) :
      ItemAt input matchDataLength dataLength i p (i + min length (dataLength - i))
        (p + 1 + offsetWidth matchDataLength i + 8)

/-- Items follow until all the data are unpacked. -/
inductive Items (input : List UInt8) (matchDataLength dataLength : ℕ) : ℕ → ℕ → Prop
  | done {i p : ℕ} (h : dataLength ≤ i) : Items input matchDataLength dataLength i p
  | more {i p i' p' : ℕ} (h : i < dataLength) (hitem : ItemAt input matchDataLength dataLength i p i' p')
      (hrest : Items input matchDataLength dataLength i' p') : Items input matchDataLength dataLength i p

/-- The distance that a back reference can go. -/
def windowOf (version : ℤ) : ℕ := if version > 0 then 8191 else 8192

/-- A stream is complete for an output: its length is there, and is more than the output has or is followed by the
items of the data. -/
def Complete (input : List UInt8) (outLength : ℕ) (version : ℤ) : Prop :=
  4 ≤ input.length ∧
    (outLength < field input 0 32 ∨ Items input (windowOf version) (field input 0 32) 0 32)

/-- The function comes to an end inside its buffers. -/
def IsSafe (input out : List UInt8) (version : ℤ) : Prop :=
  ∃ r, ∀ fuel > 8 * input.length, alteraShrink fuel input out version = .ok r

/-! ## A turn -/

/-- A state that a turn starts from: the data fit into the output. -/
structure Shrink.Fits (dataLength : ℕ) (s : Shrink) : Prop where
  avail : s.cursor.bitsAvail ≤ 8
  length : dataLength ≤ s.out.length

/-- The state behind an item. -/
structure Shrink.Behind (dataLength i p : ℕ) (s : Shrink) : Prop where
  fits : s.Fits dataLength
  i : s.i = i
  position : s.cursor.position = p

variable {matchDataLength dataLength : ℕ} {s : Shrink}

theorem put_eq (hlt : s.i < s.out.length) (byte : UInt8) :
    s.put byte = .ok ⟨s.out.set s.i byte, s.i + 1, s.cursor⟩ := if_pos hlt

variable (input) in
theorem literalLoop_spec {n : ℕ} (hs : s.Fits dataLength) :
    (s.cursor.position + 8 * min n (dataLength - s.i) ≤ 8 * input.length →
        ∃ s', literalLoop input dataLength n s = .ok s' ∧ s'.Behind dataLength (s.i + min n (dataLength - s.i))
          (s.cursor.position + 8 * min n (dataLength - s.i))) ∧
      (8 * input.length < s.cursor.position + 8 * min n (dataLength - s.i) → s.cursor.position ≤ 8 * input.length →
        literalLoop input dataLength n s = .error .input) := by
  induction n generalizing s with
  | zero =>
    rw [Nat.zero_min]
    exact ⟨fun _ => ⟨s, rfl, hs, rfl, rfl⟩, fun h h' => by omega⟩
  | succ n ih =>
    unfold literalLoop
    by_cases hlt : s.i < dataLength
    · rw [if_pos hlt]
      have hcount : min (n + 1) (dataLength - s.i) = 1 + min n (dataLength - (s.i + 1)) := by omega
      rw [hcount]
      by_cases hfit : s.cursor.position + 8 ≤ 8 * input.length
      · obtain ⟨c', hread, hc', hposition⟩ := readPacked_spec input hs.avail (by decide) (by decide) hfit
        rw [hread]
        have hput := put_eq (s := { s with cursor := c' }) (hlt.trans_le hs.length)
          (UInt8.ofNat (field input s.cursor.position 8))
        obtain ⟨hok, herror⟩ := ih (s := ⟨s.out.set s.i (UInt8.ofNat (field input s.cursor.position 8)), s.i + 1, c'⟩)
          ⟨hc', by rw [List.length_set]; exact hs.length⟩
        dsimp only at hok herror
        rw [hposition] at hok herror
        change (_ → ∃ s', (Shrink.put { s with cursor := c' } _ >>= literalLoop input dataLength n) = _ ∧ _) ∧
          (_ → _ → (Shrink.put { s with cursor := c' } _ >>= literalLoop input dataLength n) = _)
        rw [hput]
        refine ⟨fun h => ?_, fun h h' => herror (by omega) (by omega)⟩
        obtain ⟨s', hs', hfits, hi, hp⟩ := hok (by omega)
        exact ⟨s', hs', hfits, by omega, by omega⟩
      · rw [readPacked_error hs.avail (by decide) (by decide) (not_le.mp hfit)]
        exact ⟨fun h => by omega, fun _ _ => rfl⟩
    · rw [if_neg hlt]
      have hcount : min (n + 1) (dataLength - s.i) = min n (dataLength - s.i) := by omega
      rw [hcount]
      exact ih hs

theorem copyLoop_spec (offset n : ℕ) (hs : s.Fits dataLength) :
    (min n (dataLength - s.i) = 0 ∨ offset ≤ s.i → ∃ s', copyLoop dataLength offset n s = .ok s' ∧
        s'.Behind dataLength (s.i + min n (dataLength - s.i)) s.cursor.position) ∧
      (min n (dataLength - s.i) ≠ 0 → s.i < offset → copyLoop dataLength offset n s = .error .back) := by
  induction n generalizing s with
  | zero =>
    rw [Nat.zero_min]
    exact ⟨fun _ => ⟨s, rfl, hs, rfl, rfl⟩, fun h => absurd rfl h⟩
  | succ n ih =>
    unfold copyLoop
    by_cases hlt : s.i < dataLength
    · rw [if_pos hlt]
      by_cases hback : offset ≤ s.i
      · rw [if_pos hback, put_eq (hlt.trans_le hs.length)]
        obtain ⟨hok, -⟩ := ih (s := ⟨s.out.set s.i (s.out.getD (s.i - offset) 0), s.i + 1, s.cursor⟩)
          ⟨hs.avail, by rw [List.length_set]; exact hs.length⟩
        refine ⟨fun _ => ?_, fun _ h => by omega⟩
        obtain ⟨s', hs', hfits, hi, hp⟩ := hok (.inr (by dsimp only; omega))
        exact ⟨s', hs', hfits, by dsimp only at hi; omega, hp⟩
      · rw [if_neg hback]
        exact ⟨fun h => by omega, fun _ _ => rfl⟩
    · rw [if_neg hlt]
      have hcount : min (n + 1) (dataLength - s.i) = min n (dataLength - s.i) := by omega
      rw [hcount]
      exact ih hs

/-- An item takes bits of the input. -/
theorem ItemAt.bounds {i p i' p' : ℕ} (h : ItemAt input matchDataLength dataLength i p i' p') :
    p < p' ∧ p' ≤ 8 * input.length := by
  cases h with
  | literal hflag hfit => exact ⟨by omega, hfit⟩
  | copy hflag hoffset hlength hfit hback => exact ⟨by omega, hfit⟩

/-- There is one item at a position. -/
theorem ItemAt.unique {i p i₁ p₁ i₂ p₂ : ℕ} (h₁ : ItemAt input matchDataLength dataLength i p i₁ p₁)
    (h₂ : ItemAt input matchDataLength dataLength i p i₂ p₂) : i₁ = i₂ ∧ p₁ = p₂ := by
  cases h₁ with
  | literal hflag hfit =>
    cases h₂ with
    | literal => exact ⟨rfl, rfl⟩
    | copy hflag' => exact absurd hflag hflag'
  | copy hflag hoffset hlength hfit hback =>
    cases h₂ with
    | literal hflag' => exact absurd hflag' hflag
    | copy hflag' hoffset' hlength' => exact ⟨by rw [← hlength, ← hlength'], rfl⟩

/-- A fault that a stream can cause. -/
def Fault.OfStream (f : Fault) : Prop := f = .input ∨ f = .back

/-- The literal part of a turn. -/
theorem item_literal (hs : s.Fits dataLength)
    (hfit : s.cursor.position + 1 ≤ 8 * input.length) (hflag : field input s.cursor.position 1 = 0) :
    (∃ s' i' p', item input matchDataLength dataLength s = .ok s' ∧
        ItemAt input matchDataLength dataLength s.i s.cursor.position i' p' ∧ s'.Behind dataLength i' p') ∨
      (∃ f, item input matchDataLength dataLength s = .error f ∧ f.OfStream ∧
        ∀ i' p', ¬ ItemAt input matchDataLength dataLength s.i s.cursor.position i' p') := by
  obtain ⟨c₁, hread₁, hc₁, hposition₁⟩ := readPacked_spec input hs.avail (by decide) (by decide) hfit
  have hitem : item input matchDataLength dataLength s = literalLoop input dataLength 3 { s with cursor := c₁ } := by
    unfold item
    rw [hread₁]
    exact if_pos hflag
  rw [hitem]
  obtain ⟨hok, herror⟩ := literalLoop_spec input (n := 3) (s := { s with cursor := c₁ })
    ⟨hc₁, hs.length⟩
  dsimp only at hok herror
  rw [hposition₁] at hok herror
  by_cases hall : s.cursor.position + 1 + 8 * min 3 (dataLength - s.i) ≤ 8 * input.length
  · obtain ⟨s', hs', hbehind⟩ := hok hall
    exact .inl ⟨s', _, _, hs', .literal hflag hall, hbehind⟩
  · refine .inr ⟨.input, herror (not_le.mp hall) hfit, .inl rfl, fun i' p' h => ?_⟩
    cases h with
    | literal _ hfit' => exact hall hfit'
    | copy hflag' => exact hflag' hflag

/-- The back reference of a turn. -/
theorem item_copy (hs : s.Fits dataLength) (hlt : s.i < dataLength) (hwindow : matchDataLength ≤ 8192)
    (hfit : s.cursor.position + 1 ≤ 8 * input.length) (hflag : field input s.cursor.position 1 ≠ 0) :
    (∃ s' i' p', item input matchDataLength dataLength s = .ok s' ∧
        ItemAt input matchDataLength dataLength s.i s.cursor.position i' p' ∧ s'.Behind dataLength i' p') ∨
      (∃ f, item input matchDataLength dataLength s = .error f ∧ f.OfStream ∧
        ∀ i' p', ¬ ItemAt input matchDataLength dataLength s.i s.cursor.position i' p') := by
  obtain ⟨c₁, hread₁, hc₁, hposition₁⟩ := readPacked_spec input hs.avail (by decide) (by decide) hfit
  obtain ⟨hwidth, hwidth'⟩ := offsetBits_bounds hwindow s.i
  have hwidthEq : offsetWidth matchDataLength s.i = offsetBits matchDataLength s.i := (offsetBits_eq hwindow s.i).symm
  by_cases hall : s.cursor.position + 1 + offsetBits matchDataLength s.i + 8 ≤ 8 * input.length
  · obtain ⟨c₂, hread₂, hc₂, hposition₂⟩ := readPacked_spec input hc₁ hwidth hwidth' (by omega)
    obtain ⟨c₃, hread₃, hc₃, hposition₃⟩ := readPacked_spec input hc₂ (by decide : 1 ≤ 8) (by decide)
      (by omega)
    rw [hposition₁] at hread₂
    rw [hposition₂, hposition₁] at hread₃
    generalize hoffset : field input (s.cursor.position + 1) (offsetBits matchDataLength s.i) = offset at hread₂
    generalize hlength : field input (s.cursor.position + 1 + offsetBits matchDataLength s.i) 8 = length at hread₃
    have hitem : item input matchDataLength dataLength s =
        copyLoop dataLength offset length { s with cursor := c₃ } := by
      unfold item
      rw [hread₁]
      refine (if_neg hflag).trans ?_
      rw [hread₂]
      change (alteraReadPacked input 8 c₂ >>= _) = _
      rw [hread₃]
      rfl
    rw [hitem]
    obtain ⟨hok, herror⟩ := copyLoop_spec offset length (s := { s with cursor := c₃ })
      ⟨hc₃, hs.length⟩
    dsimp only at hok herror
    rw [← hwidthEq] at hoffset hlength hall hposition₂
    by_cases hback : length = 0 ∨ offset ≤ s.i
    · obtain ⟨s', hs', hbehind⟩ := hok (by omega)
      rw [hposition₃, hposition₂, hposition₁] at hbehind
      exact .inl ⟨s', _, _, hs', .copy hflag hoffset hlength hall hback, hbehind⟩
    · refine .inr ⟨.back, herror (by omega) (by omega), .inr rfl, fun i' p' h => ?_⟩
      cases h with
      | literal hflag' => exact hflag hflag'
      | copy _ hoffset' hlength' _ hback' =>
        rw [← hoffset', ← hlength', hoffset, hlength] at hback'
        exact hback hback'
  · refine .inr ⟨.input, ?_, .inl rfl, fun i' p' h => ?_⟩
    · unfold item
      rw [hread₁]
      refine (if_neg hflag).trans ?_
      by_cases hoffset : c₁.position + offsetBits matchDataLength s.i ≤ 8 * input.length
      · obtain ⟨c₂, hread₂, hc₂, hposition₂⟩ := readPacked_spec input hc₁ hwidth hwidth' hoffset
        rw [hread₂]
        change (alteraReadPacked input 8 c₂ >>= _) = _
        rw [readPacked_error hc₂ (by decide) (by decide) (by omega)]
        rfl
      · rw [readPacked_error hc₁ hwidth hwidth' (not_le.mp hoffset)]
        rfl
    · rw [← hwidthEq] at hall
      cases h with
      | literal hflag' => exact hflag hflag'
      | copy _ _ _ hfit' => exact hall hfit'

/-- **A turn** unpacks the item that is there, or fails because there is none. -/
theorem item_spec (input : List UInt8) (hs : s.Fits dataLength) (hlt : s.i < dataLength)
    (hwindow : matchDataLength ≤ 8192) :
    (∃ s' i' p', item input matchDataLength dataLength s = .ok s' ∧
        ItemAt input matchDataLength dataLength s.i s.cursor.position i' p' ∧ s'.Behind dataLength i' p') ∨
      (∃ f, item input matchDataLength dataLength s = .error f ∧ f.OfStream ∧
        ∀ i' p', ¬ ItemAt input matchDataLength dataLength s.i s.cursor.position i' p') := by
  by_cases hfit : s.cursor.position + 1 ≤ 8 * input.length
  · by_cases hflag : field input s.cursor.position 1 = 0
    · exact item_literal hs hfit hflag
    · exact item_copy hs hlt hwindow hfit hflag
  · refine .inr ⟨.input, ?_, .inl rfl, fun i' p' h => ?_⟩
    · unfold item
      rw [readPacked_error hs.avail (by decide) (by decide) (not_le.mp hfit)]
      rfl
    · have := h.bounds
      omega

/-! ## The runs -/

/-- The main loop ends, and does so without a fault exactly when items follow. -/
theorem shrinkLoop_spec (input : List UInt8) (dataLength : ℕ) (hwindow : matchDataLength ≤ 8192) {k : ℕ} (hk : 8 * input.length - s.cursor.position = k)
    (hs : s.Fits dataLength) :
    (Items input matchDataLength dataLength s.i s.cursor.position ∧ ∃ s', ∀ fuel > k,
        shrinkLoop input matchDataLength dataLength fuel s = .ok s') ∨
      (¬ Items input matchDataLength dataLength s.i s.cursor.position ∧ ∃ f : Fault, f.OfStream ∧ ∀ fuel > k,
        shrinkLoop input matchDataLength dataLength fuel s = .error f) := by
  induction k using Nat.strong_induction_on generalizing s with
  | _ k ih =>
    by_cases hlt : s.i < dataLength
    · have hturn : ∀ fuel, shrinkLoop input matchDataLength dataLength (fuel + 1) s =
          (item input matchDataLength dataLength s >>= shrinkLoop input matchDataLength dataLength fuel) :=
        fun fuel => if_pos hlt
      rcases item_spec input hs hlt hwindow with ⟨s', i', p', hitem, hat, hbehind⟩ | ⟨f, hitem, hf, hnone⟩
      · obtain ⟨hlt', hle'⟩ := hat.bounds
        obtain ⟨hfits, rfl, rfl⟩ := hbehind
        have hrun : ∀ fuel > k, ∃ fuel' > 8 * input.length - s'.cursor.position,
            shrinkLoop input matchDataLength dataLength fuel s =
              shrinkLoop input matchDataLength dataLength fuel' s' := by
          intro fuel hfuel
          obtain ⟨fuel, rfl⟩ : ∃ n, fuel = n + 1 := ⟨fuel - 1, by omega⟩
          refine ⟨fuel, by omega, ?_⟩
          rw [hturn, hitem]
          rfl
        rcases ih (8 * input.length - s'.cursor.position) (by omega) rfl hfits with ⟨hitems, r, hr⟩ | ⟨hnot, f, hf, hr⟩
        · refine .inl ⟨.more hlt hat hitems, r, fun fuel hfuel => ?_⟩
          obtain ⟨fuel', hfuel', heq⟩ := hrun fuel hfuel
          rw [heq]
          exact hr fuel' hfuel'
        · refine .inr ⟨fun h => ?_, f, hf, fun fuel hfuel => ?_⟩
          · cases h with
            | done hle => exact absurd hlt (not_lt.mpr hle)
            | more _ hat' hrest =>
              obtain ⟨rfl, rfl⟩ := hat.unique hat'
              exact hnot hrest
          · obtain ⟨fuel', hfuel', heq⟩ := hrun fuel hfuel
            rw [heq]
            exact hr fuel' hfuel'
      · refine .inr ⟨fun h => ?_, f, hf, fun fuel hfuel => ?_⟩
        · cases h with
          | done hle => exact absurd hlt (not_lt.mpr hle)
          | more _ hat _ => exact hnone _ _ hat
        · obtain ⟨fuel, rfl⟩ : ∃ n, fuel = n + 1 := ⟨fuel - 1, by omega⟩
          rw [hturn, hitem]
          rfl
    · refine .inl ⟨.done (not_lt.mp hlt), s, fun fuel hfuel => ?_⟩
      obtain ⟨fuel, rfl⟩ : ∃ n, fuel = n + 1 := ⟨fuel - 1, by omega⟩
      exact if_neg hlt

theorem windowOf_le (version : ℤ) : windowOf version ≤ 8192 := by
  unfold windowOf
  split <;> decide

/-- A run on any input ends: in its buffers for a complete stream, and else with a read outside the input or a copy
from outside the output. -/
theorem shrink_spec (input out : List UInt8) (version : ℤ) :
    (Complete input out.length version ∧ ∃ r, ∀ fuel > 8 * input.length, alteraShrink fuel input out version = .ok r) ∨
      (¬ Complete input out.length version ∧ ∃ f : Fault, f.OfStream ∧ ∀ fuel > 8 * input.length,
        alteraShrink fuel input out version = .error f) := by
  have hwindow : (if version > 0 then 8192 - 1 else 8192) = windowOf version := rfl
  obtain ⟨hok, herror⟩ := lengthLoop_spec input (c := ⟨0, 8⟩) (n := 4) (i := 0) le_rfl rfl
  unfold alteraShrink
  dsimp only
  rw [hwindow]
  by_cases hhead : 4 ≤ input.length
  · obtain ⟨c, hread, hc, hposition⟩ := hok (by omega)
    have hread' : lengthLoop input 4 0 0 ⟨0, 8⟩ = .ok (field input 0 32, c) := hread
    rw [hread']
    by_cases hlong : field input 0 32 > out.length
    · refine .inl ⟨⟨hhead, .inl hlong⟩, (List.replicate out.length 0, 0), fun fuel _ => if_pos ?_⟩
      rwa [List.length_replicate]
    · have hrun : ∀ fuel, (if field input 0 32 > (List.replicate out.length (0 : UInt8)).length
          then (return (List.replicate out.length 0, 0) : Except Fault (List UInt8 × ℕ))
          else shrinkLoop input (windowOf version) (field input 0 32) fuel ⟨List.replicate out.length 0, 0, c⟩ >>=
            fun s => return (s.out, field input 0 32)) =
          (shrinkLoop input (windowOf version) (field input 0 32) fuel ⟨List.replicate out.length 0, 0, c⟩ >>=
            fun s => return (s.out, field input 0 32)) := fun fuel =>
        if_neg (by rwa [List.length_replicate])
      rcases shrinkLoop_spec input (s := ⟨List.replicate out.length 0, 0, c⟩)
        (field input 0 32) (windowOf_le version) rfl
        ⟨hc, by rw [List.length_replicate]; exact not_lt.mp hlong⟩ with ⟨hitems, s', hr⟩ | ⟨hnot, f, hf, hr⟩
      · dsimp only at hitems
        rw [hposition] at hitems
        refine .inl ⟨⟨hhead, .inr hitems⟩, (s'.out, field input 0 32), fun fuel hfuel => (hrun fuel).trans ?_⟩
        rw [hr fuel (by omega)]
        rfl
      · dsimp only at hnot
        rw [hposition] at hnot
        refine .inr ⟨fun h => h.2.elim hlong hnot, f, hf, fun fuel hfuel => (hrun fuel).trans ?_⟩
        rw [hr fuel (by omega)]
        rfl
  · have hread' : lengthLoop input 4 0 0 ⟨0, 8⟩ = .error .input := herror (by decide) (by omega)
    rw [hread']
    exact .inr ⟨fun h => hhead h.1, .input, .inl rfl, fun _ _ => rfl⟩

/-- **Exactly the complete streams are unpacked safely.** -/
theorem isSafe_iff (input out : List UInt8) (version : ℤ) :
    IsSafe input out version ↔ Complete input out.length version := by
  unfold IsSafe
  rcases shrink_spec input out version with ⟨hcomplete, hr⟩ | ⟨hnot, f, -, hf⟩
  · exact iff_of_true hr hcomplete
  · refine iff_of_false (fun ⟨r, hr⟩ => ?_) hnot
    have hrun := hr (8 * input.length + 1) (by omega)
    rw [hf (8 * input.length + 1) (by omega)] at hrun
    cases hrun

/-- One byte is announced, and copied from behind the start of the output. -/
theorem not_isSafe_back : alteraShrink 49 [1, 0, 0, 0, 7, 0] [0] 0 = .error .back ∧
    ¬ IsSafe [1, 0, 0, 0, 7, 0] [0] 0 := by
  have hrun : alteraShrink 49 [1, 0, 0, 0, 7, 0] [0] 0 = .error .back := by decide +kernel
  refine ⟨hrun, fun ⟨r, hr⟩ => ?_⟩
  have hok := hr 49 (by decide)
  rw [hrun] at hok
  cases hok

end Altera
end TbsMedia
