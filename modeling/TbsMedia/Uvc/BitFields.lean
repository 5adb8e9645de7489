import Mathlib
import TbsMedia.Lib.ByteBits

/-!
# The bit fields of UVC controls

A mapping describes a field of bits in the little-endian data of a control.  `uvc_get_le_value` and `uvc_set_le_value`
walk the bytes of the field, each in a loop of its own.

* `uvcGetLeValue`, `uvcSetLeValue`: the two functions, with the number of bytes they touch.
* `getLsbD_get`, `bitAt_set`: what is read, and what is written.
* `leValue_comesBack_iff`: a value comes back exactly when shifting it by the offset in the first byte is as good as
  shifting it by the bits that this byte has taken.
-/

namespace TbsMedia
namespace Uvc

open Lib.ByteBits

/-! ## The code -/

/-- `UVC_CTRL_DATA_TYPE_…`. -/
inductive UvcDataType where
  | raw
  | signed
  | unsigned
  | boolean
  | enum
  | bitmask
  deriving DecidableEq

/-- The members of `struct uvc_control_mapping` that the accessors read. -/
structure UvcControlMapping where
  size : ℕ
  offset : ℕ
  dataType : UvcDataType
  isButton : Bool

/-- `((1LL << bits) - 1) << offset` in a byte. -/
def maskByte (bits offset : ℕ) : UInt8 := UInt8.ofNat ((2 ^ bits - 1) <<< offset)

/-- The loop that reads, over the data that are left; a read behind them gives no result. -/
def getLoop (bits : ℕ) (offset : ℤ) (mask : UInt8) (value : BitVec 32) : List UInt8 → Option (BitVec 32 × ℕ)
  | [] => if bits = 0 then some (value, 0) else none
  | d :: data =>
    if bits = 0 then some (value, 0)
    else
      let byte := (d &&& mask).toBitVec.setWidth 32
      let value := value ||| if 0 < offset then byte >>> offset.toNat else byte <<< (-offset).toNat
      let bits := bits - (8 - if 0 < offset then offset.toNat else 0)
      (getLoop bits (offset - 8) (maskByte bits 0) value data).map fun r => (r.1, r.2 + 1)

/-- `uvc_get_le_value`. -/
def uvcGetLeValue (mapping : UvcControlMapping) (data : List UInt8) : Option (BitVec 32 × ℕ) :=
  let offset := mapping.offset % 8
  (getLoop mapping.size offset (maskByte mapping.size offset) 0 (data.drop (mapping.offset / 8))).map fun r =>
    if mapping.dataType = .signed then (r.1 ||| -(r.1 &&& (1 : BitVec 32) <<< (mapping.size - 1)), r.2) else r

/-- `(*data & ~mask) | ((value << offset) & mask)`. -/
def writeByte (bits offset : ℕ) (value : BitVec 32) (d : UInt8) : UInt8 :=
  let mask := maskByte bits offset
  (d &&& ~~~mask) ||| (UInt8.ofBitVec ((value <<< offset).setWidth 8) &&& mask)

/-- The loop that writes. -/
def setLoop (bits offset : ℕ) (value : BitVec 32) : List UInt8 → Option (List UInt8 × ℕ)
  | [] => if bits = 0 then some ([], 0) else none
  | d :: data =>
    if bits = 0 then some (d :: data, 0)
    else
      (setLoop (bits - (8 - offset)) 0 (value.sshiftRight (if offset ≠ 0 then offset else 8)) data).map fun r =>
        (writeByte bits offset value d :: r.1, r.2 + 1)

/-- `uvc_set_le_value`. -/
def uvcSetLeValue (mapping : UvcControlMapping) (value : BitVec 32) (data : List UInt8) : Option (List UInt8 × ℕ) :=
  let value := if mapping.isButton then -1 else value
  (setLoop mapping.size (mapping.offset % 8) value (data.drop (mapping.offset / 8))).map fun r =>
    (data.take (mapping.offset / 8) ++ r.1, r.2)

/-! ## The mask -/

theorem getLsbD_maskByte (bits offset : ℕ) {j : ℕ} (h : j < 8) :
    (maskByte bits offset).toBitVec.getLsbD j = (decide (offset ≤ j) && decide (j - offset < bits)) := by
  unfold maskByte
  rw [UInt8.toBitVec_ofNat', BitVec.getLsbD_ofNat, Nat.testBit_shiftLeft, Nat.testBit_two_pow_sub_one]
  simp [h]

/-! ## Reading -/

/-- The bits of a byte that the mask leaves. -/
theorem getLsbD_masked (d : UInt8) (bits offset j : ℕ) :
    ((d &&& maskByte bits offset).toBitVec.setWidth 32).getLsbD j =
      (decide (offset ≤ j ∧ j < offset + bits ∧ j < 8) && d.toBitVec.getLsbD j) := by
  rw [BitVec.getLsbD_setWidth, UInt8.toBitVec_and, BitVec.getLsbD_and]
  by_cases hj : j < 8
  · rw [getLsbD_maskByte bits offset hj]
    have h32 : j < 32 := by omega
    by_cases hle : offset ≤ j
    · have hiff : (j - offset < bits) ↔ j < offset + bits := by omega
      simp [h32, hj, hle, hiff, Bool.and_comm]
    · simp [hle]
  · have hnone : d.toBitVec.getLsbD j = false := BitVec.getLsbD_of_ge _ _ (by omega)
    rw [hnone]
    simp

/-- The loop behind the first byte, which has read `c` bits. -/
theorem getLoop_tail (data : List UInt8) (bits c : ℕ) (value : BitVec 32) (hbits : bits ≤ 8 * data.length) :
    ∃ r, getLoop bits (-c) (maskByte bits 0) value data = some r ∧ r.2 = (bits + 7) / 8 ∧
      ∀ t < 32, r.1.getLsbD t = (value.getLsbD t || (decide (c ≤ t ∧ t < c + bits) && bitAt data (t - c))) := by
  induction data generalizing bits c value with
  | nil =>
    obtain rfl : bits = 0 := by simpa using hbits
    refine ⟨(value, 0), if_pos rfl, rfl, fun t _ => ?_⟩
    simp
  | cons d data ih =>
    by_cases hzero : bits = 0
    · subst hzero
      refine ⟨(value, 0), if_pos rfl, rfl, fun t _ => ?_⟩
      simp
    · rw [List.length_cons] at hbits
      have hneg : ¬ (0 : ℤ) < -c := by omega
      obtain ⟨r, hr, hcount, hread⟩ := ih (bits - 8) (c + 8)
        (value ||| (d &&& maskByte bits 0).toBitVec.setWidth 32 <<< c) (by omega)
      refine ⟨(r.1, r.2 + 1), ?_, by omega, fun t ht => ?_⟩
      · unfold getLoop
        rw [if_neg hzero]
        dsimp only
        rw [if_neg hneg, if_neg hneg]
        have hshift : (- -(c : ℤ)).toNat = c := by omega
        have hoffset : (-(c : ℤ) - 8) = -((c + 8 : ℕ) : ℤ) := by omega
        rw [hshift, hoffset, Nat.sub_zero, hr]
        rfl
      · rw [hread t ht, BitVec.getLsbD_or, BitVec.getLsbD_shiftLeft, getLsbD_masked, Bool.or_assoc]
        congr 1
        by_cases hct : c ≤ t
        · obtain ⟨j, rfl⟩ := Nat.exists_eq_add_of_le hct
          rw [Nat.add_sub_cancel_left]
          by_cases hj : j < 8
          · rw [bitAt_cons_of_lt hj]
            simp [ht, hj]
          · obtain ⟨k, rfl⟩ : ∃ k, j = k + 8 := ⟨j - 8, by omega⟩
            have hsub : c + (k + 8) - (c + 8) = k := by omega
            have hiff : c + (k + 8) < c + 8 + (bits - 8) ↔ k + 8 < bits := by omega
            have hle : c + 8 ≤ c + (k + 8) := by omega
            rw [bitAt_cons_add, hsub]
            simp [hiff, hle]
        · have hnot : ¬ (c + 8 ≤ t ∧ t < c + 8 + (bits - 8)) := by omega
          simp [hct, hnot, not_le.mp hct]

/-- **What the loop reads**: the bits of the field, from the bytes that it covers. -/
theorem getLoop_field (data : List UInt8) {size o : ℕ} (ho : o < 8) (hsize : 0 < size)
    (hfit : o + size ≤ 8 * data.length) :
    ∃ r, getLoop size o (maskByte size o) 0 data = some r ∧ r.2 = (o + size + 7) / 8 ∧
      ∀ t < 32, r.1.getLsbD t = (decide (t < size) && bitAt data (o + t)) := by
  obtain _ | ⟨d, data⟩ := data
  · simp only [List.length_nil] at hfit
    omega
  · rw [List.length_cons] at hfit
    obtain ⟨r, hr, hcount, hread⟩ := getLoop_tail data (size - (8 - o)) (8 - o)
      ((d &&& maskByte size o).toBitVec.setWidth 32 >>> o) (by omega)
    refine ⟨(r.1, r.2 + 1), ?_, by omega, fun t ht => ?_⟩
    · have hfirst : (if (0 : ℤ) < (o : ℤ) then (d &&& maskByte size o).toBitVec.setWidth 32 >>> (o : ℤ).toNat
          else (d &&& maskByte size o).toBitVec.setWidth 32 <<< (-(o : ℤ)).toNat) =
          (d &&& maskByte size o).toBitVec.setWidth 32 >>> o := by
        by_cases hpos : (0 : ℤ) < o
        · rw [if_pos hpos, Int.toNat_natCast]
        · obtain rfl : o = 0 := by omega
          simp
      have hbits : (8 - if (0 : ℤ) < (o : ℤ) then (o : ℤ).toNat else 0) = 8 - o := by
        split <;> omega
      have hoffset : (o : ℤ) - 8 = -((8 - o : ℕ) : ℤ) := by omega
      unfold getLoop
      rw [if_neg hsize.ne']
      dsimp only
      have hzero : 0 ||| (d &&& maskByte size o).toBitVec.setWidth 32 >>> o =
          (d &&& maskByte size o).toBitVec.setWidth 32 >>> o := BitVec.zero_or
      rw [hfirst, hbits, hoffset, hzero, hr]
      rfl
    · rw [hread t ht, BitVec.getLsbD_ushiftRight, getLsbD_masked]
      by_cases hj : o + t < 8
      · have hbehind : ¬ (8 - o ≤ t ∧ t < 8 - o + (size - (8 - o))) := by omega
        rw [bitAt_cons_of_lt hj, decide_eq_false hbehind]
        simp [hj]
      · obtain ⟨k, hk⟩ : ∃ k, o + t = k + 8 := ⟨o + t - 8, by omega⟩
        have hsub : t - (8 - o) = k := by omega
        have hiff : t < 8 - o + (size - (8 - o)) ↔ t < size := by omega
        have hle : 8 - o ≤ t := by omega
        rw [hk, bitAt_cons_add, hsub]
        simp [hiff, hle]

/-- What a field holds: its bits, and above them copies of the sign bit of a signed mapping. -/
def fieldBit (mapping : UvcControlMapping) (data : List UInt8) (t : ℕ) : Bool :=
  if t < mapping.size then bitAt data (mapping.offset + t)
  else decide (mapping.dataType = .signed) && bitAt data (mapping.offset + (mapping.size - 1))

/-- `value |= -(value & (1 << (size - 1)))` copies the highest bit of the field upwards. -/
theorem getLsbD_signExtended {value : BitVec 32} {size t : ℕ} (hsize : 0 < size) (hle : size ≤ 32) (ht : t < 32) :
    (value ||| -(value &&& (1 : BitVec 32) <<< (size - 1))).getLsbD t =
      (value.getLsbD t || (decide (size ≤ t + 1) && value.getLsbD (size - 1))) := by
  have hmask : ∀ j < 32, (value &&& (1 : BitVec 32) <<< (size - 1)).getLsbD j =
      (decide (j = size - 1) && value.getLsbD (size - 1)) := by
    intro j hj
    have hone : (1 : BitVec 32) <<< (size - 1) = BitVec.twoPow 32 (size - 1) := rfl
    rw [BitVec.getLsbD_and, hone, BitVec.getLsbD_twoPow]
    by_cases heq : j = size - 1
    · subst heq
      simp [hj]
    · simp [heq, Ne.symm heq]
  rw [BitVec.getLsbD_or, BitVec.getLsbD_neg]
  have hexists : (∃ j < t, (value &&& (1 : BitVec 32) <<< (size - 1)).getLsbD j = true) ↔
      (decide (size ≤ t) && value.getLsbD (size - 1)) = true := by
    rw [Bool.and_eq_true, decide_eq_true_eq]
    constructor
    · rintro ⟨j, hj, hbit⟩
      rw [hmask j (by omega), Bool.and_eq_true, decide_eq_true_eq] at hbit
      exact ⟨by omega, hbit.2⟩
    · rintro ⟨hlt, hbit⟩
      refine ⟨size - 1, by omega, ?_⟩
      rw [hmask _ (by omega), hbit]
      simp
  simp only [hmask t ht, hexists, Bool.decide_eq_true]
  by_cases heq : t = size - 1
  · have hnot : ¬ size ≤ size - 1 := by omega
    have hself : size ≤ size - 1 + 1 := by omega
    simp [heq, hnot, hself]
  · have hiff : size ≤ t + 1 ↔ size ≤ t := by omega
    simp [heq, hiff, ht]

/-- **What is read**: the value of the field. -/
theorem getLsbD_get {mapping : UvcControlMapping} (data : List UInt8) (hsize : 0 < mapping.size)
    (hle : mapping.size ≤ 32) (hfit : mapping.offset + mapping.size ≤ 8 * data.length) :
    ∃ r, uvcGetLeValue mapping data = some r ∧ r.2 = (mapping.offset % 8 + mapping.size + 7) / 8 ∧
      ∀ t < 32, r.1.getLsbD t = fieldBit mapping data t := by
  obtain ⟨r, hr, hcount, hread⟩ := getLoop_field (data.drop (mapping.offset / 8)) (o := mapping.offset % 8)
    (by omega) hsize (by rw [List.length_drop]; omega)
  have hbits : ∀ t < 32, r.1.getLsbD t = (decide (t < mapping.size) && bitAt data (mapping.offset + t)) := by
    intro t ht
    rw [hread t ht, bitAt_drop, ← Nat.add_assoc, Nat.div_add_mod]
  have hhigh : r.1.getLsbD (mapping.size - 1) = bitAt data (mapping.offset + (mapping.size - 1)) := by
    have hlt : mapping.size - 1 < mapping.size := by omega
    rw [hbits _ (by omega), decide_eq_true hlt, Bool.true_and]
  refine ⟨if mapping.dataType = .signed then (r.1 ||| -(r.1 &&& (1 : BitVec 32) <<< (mapping.size - 1)), r.2) else r,
    ?_, ?_, ?_⟩
  · unfold uvcGetLeValue
    dsimp only
    rw [hr]
    rfl
  · split <;> exact hcount
  · intro t ht
    unfold fieldBit
    by_cases hsigned : mapping.dataType = .signed
    · rw [if_pos hsigned, decide_eq_true hsigned, Bool.true_and]
      dsimp only
      rw [getLsbD_signExtended hsize hle ht, hhigh, hbits t ht]
      by_cases hlt : t < mapping.size
      · rw [if_pos hlt, decide_eq_true hlt, Bool.true_and]
        by_cases heq : t = mapping.size - 1
        · rw [heq, Bool.or_eq_left_iff_imp]
          simp
        · have hnot : ¬ mapping.size ≤ t + 1 := by omega
          simp [hnot]
      · have hself : mapping.size ≤ t + 1 := by omega
        simp [hlt, hself]
    · rw [if_neg hsigned, decide_eq_false hsigned, hbits t ht]
      by_cases hlt : t < mapping.size
      · simp [hlt]
      · simp [hlt]

/-! ## Writing -/

/-- The bits of a byte that the setter has written. -/
theorem getLsbD_writeByte (d : UInt8) (value : BitVec 32) (bits offset : ℕ) {j : ℕ} (hj : j < 8) :
    (writeByte bits offset value d).toBitVec.getLsbD j =
      if offset ≤ j ∧ j < offset + bits then value.getLsbD (j - offset) else d.toBitVec.getLsbD j := by
  unfold writeByte
  dsimp only
  rw [UInt8.toBitVec_or, UInt8.toBitVec_and, UInt8.toBitVec_and, UInt8.toBitVec_not, BitVec.getLsbD_or,
    BitVec.getLsbD_and, BitVec.getLsbD_and, BitVec.getLsbD_not, getLsbD_maskByte bits offset hj,
    UInt8.toBitVec_ofBitVec, BitVec.getLsbD_setWidth, BitVec.getLsbD_shiftLeft]
  have h32 : j < 32 := by omega
  by_cases hle : offset ≤ j
  · by_cases hlt : j < offset + bits
    · have hin : j - offset < bits := by omega
      simp [hj, h32, hle, hlt, hin]
    · have hout : ¬ j - offset < bits := by omega
      simp [hj, hlt, hout]
  · simp [hj, hle]

/-- The loop behind the first byte writes the lowest bits of its value and leaves the rest of the data. -/
theorem setLoop_tail (data : List UInt8) (bits : ℕ) (value : BitVec 32) (hle : bits ≤ 32)
    (hbits : bits ≤ 8 * data.length) :
    ∃ r, setLoop bits 0 value data = some r ∧ r.2 = (bits + 7) / 8 ∧ r.1.length = data.length ∧
      ∀ j < 8 * data.length, bitAt r.1 j = if j < bits then value.getLsbD j else bitAt data j := by
  induction data generalizing bits value with
  | nil =>
    obtain rfl : bits = 0 := by simpa using hbits
    exact ⟨([], 0), if_pos rfl, rfl, rfl, fun j _ => rfl⟩
  | cons d data ih =>
    by_cases hzero : bits = 0
    · subst hzero
      exact ⟨(d :: data, 0), if_pos rfl, rfl, rfl, fun j _ => rfl⟩
    · rw [List.length_cons] at hbits
      obtain ⟨r, hr, hcount, hlength, hwritten⟩ := ih (bits - 8) (value.sshiftRight 8) (by omega)
        (by omega)
      refine ⟨(writeByte bits 0 value d :: r.1, r.2 + 1), ?_, by omega, by
        rw [List.length_cons, hlength, List.length_cons], fun j hj => ?_⟩
      · unfold setLoop
        rw [if_neg hzero, if_neg (by decide : ¬ (0 : ℕ) ≠ 0), Nat.sub_zero, hr]
        rfl
      · rw [List.length_cons] at hj
        by_cases hbyte : j < 8
        · rw [bitAt_cons_of_lt hbyte, bitAt_cons_of_lt hbyte, getLsbD_writeByte d value bits 0 hbyte]
          simp
        · obtain ⟨k, rfl⟩ : ∃ k, j = k + 8 := ⟨j - 8, by omega⟩
          rw [bitAt_cons_add, bitAt_cons_add, hwritten k (by omega), BitVec.getLsbD_sshiftRight]
          by_cases hlt : k + 8 < bits
          · have hrest : k < bits - 8 := by omega
            have hin : 8 + k < 32 := by omega
            have hk : ¬ 32 ≤ k := by omega
            rw [if_pos hrest, if_pos hlt, if_pos hin, decide_eq_false hk, Nat.add_comm 8 k]
            rfl
          · have hrest : ¬ k < bits - 8 := by omega
            rw [if_neg hrest, if_neg hlt]

/-- The bit of the field that the setter writes: behind the first byte it shifts the value by the offset there. -/
def writtenBit (o : ℕ) (value : BitVec 32) (t : ℕ) : Bool :=
  if t < 8 - o then value.getLsbD t
  else (value.sshiftRight (if o ≠ 0 then o else 8)).getLsbD (t - (8 - o))

/-- **What the loop writes**: the field, and nothing else. -/
theorem setLoop_field (data : List UInt8) (value : BitVec 32) {size o : ℕ} (ho : o < 8) (hsize : 0 < size)
    (hle : size ≤ 32) (hfit : o + size ≤ 8 * data.length) :
    ∃ r, setLoop size o value data = some r ∧ r.2 = (o + size + 7) / 8 ∧ r.1.length = data.length ∧
      ∀ j < 8 * data.length,
        bitAt r.1 j = if o ≤ j ∧ j < o + size then writtenBit o value (j - o) else bitAt data j := by
  obtain _ | ⟨d, data⟩ := data
  · simp only [List.length_nil] at hfit
    omega
  · rw [List.length_cons] at hfit
    obtain ⟨r, hr, hcount, hlength, hwritten⟩ := setLoop_tail data (size - (8 - o))
      (value.sshiftRight (if o ≠ 0 then o else 8)) (by omega) (by omega)
    refine ⟨(writeByte size o value d :: r.1, r.2 + 1), ?_, by omega, by
      rw [List.length_cons, hlength, List.length_cons], fun j hj => ?_⟩
    · unfold setLoop
      rw [if_neg hsize.ne', hr]
      rfl
    · rw [List.length_cons] at hj
      by_cases hbyte : j < 8
      · rw [bitAt_cons_of_lt hbyte, bitAt_cons_of_lt hbyte, getLsbD_writeByte d value size o hbyte]
        unfold writtenBit
        by_cases hin : o ≤ j ∧ j < o + size
        · rw [if_pos hin, if_pos hin, if_pos (by omega)]
        · rw [if_neg hin, if_neg hin]
      · obtain ⟨k, rfl⟩ : ∃ k, j = k + 8 := ⟨j - 8, by omega⟩
        rw [bitAt_cons_add, bitAt_cons_add, hwritten k (by omega)]
        unfold writtenBit
        by_cases hin : k < size - (8 - o)
        · have hfield : o ≤ k + 8 ∧ k + 8 < o + size := by omega
          have hbehind : ¬ k + 8 - o < 8 - o := by omega
          have hsub : k + 8 - o - (8 - o) = k := by omega
          rw [if_pos hin, if_pos hfield, if_neg hbehind, hsub]
        · have hfield : ¬ (o ≤ k + 8 ∧ k + 8 < o + size) := by omega
          rw [if_neg hin, if_neg hfield]

/-- **What is written**: the field gets `writtenBit`, every other bit stays. -/
theorem bitAt_set {mapping : UvcControlMapping} {data : List UInt8} (value : BitVec 32) (hsize : 0 < mapping.size)
    (hle : mapping.size ≤ 32) (hfit : mapping.offset + mapping.size ≤ 8 * data.length)
    (hbutton : mapping.isButton = false) :
    ∃ r, uvcSetLeValue mapping value data = some r ∧ r.2 = (mapping.offset % 8 + mapping.size + 7) / 8 ∧
      r.1.length = data.length ∧ ∀ j < 8 * data.length,
        bitAt r.1 j = if mapping.offset ≤ j ∧ j < mapping.offset + mapping.size
          then writtenBit (mapping.offset % 8) value (j - mapping.offset) else bitAt data j := by
  have hin : mapping.offset / 8 < data.length := by omega
  obtain ⟨r, hr, hcount, hlength, hwritten⟩ := setLoop_field (data.drop (mapping.offset / 8)) value
    (o := mapping.offset % 8) (by omega) hsize hle
    (by rw [List.length_drop]; omega)
  rw [List.length_drop] at hlength hwritten
  refine ⟨(data.take (mapping.offset / 8) ++ r.1, r.2), ?_, hcount, ?_, fun j hj => ?_⟩
  · unfold uvcSetLeValue
    rw [hbutton]
    dsimp only
    rw [if_neg (by decide), hr]
    rfl
  · rw [List.length_append, List.length_take, hlength]
    omega
  · have htake : (data.take (mapping.offset / 8)).length = mapping.offset / 8 := by
      rw [List.length_take]
      omega
    by_cases hbefore : j < 8 * (mapping.offset / 8)
    · rw [if_neg (by omega)]
      unfold bitAt
      rw [List.getD_eq_getElem?_getD, List.getElem?_append_left (by omega), List.getElem?_take_of_lt (by omega),
        ← List.getD_eq_getElem?_getD]
    · obtain ⟨k, rfl⟩ : ∃ k, j = 8 * (mapping.offset / 8) + k := ⟨j - 8 * (mapping.offset / 8), by omega⟩
      have hdrop : bitAt (data.take (mapping.offset / 8) ++ r.1) (8 * (mapping.offset / 8) + k) = bitAt r.1 k := by
        rw [← bitAt_drop, List.drop_left' htake]
      have hsub : 8 * (mapping.offset / 8) + k - mapping.offset = k - mapping.offset % 8 := by omega
      rw [hdrop, hwritten k (by omega), bitAt_drop, hsub]
      by_cases hfield : mapping.offset % 8 ≤ k ∧ k < mapping.offset % 8 + mapping.size
      · rw [if_pos hfield, if_pos (by omega)]
      · rw [if_neg hfield, if_neg (by omega)]

/-! ## The round trip -/

/-- A value reduced to the field. -/
def reduced (mapping : UvcControlMapping) (value : BitVec 32) : BitVec 32 :=
  if mapping.dataType = .signed then (value.setWidth mapping.size).signExtend 32
  else (value.setWidth mapping.size).setWidth 32

/-- The bytes from the one at `offset / 8` on are those that hold a bit of the field. -/
def Covers (mapping : UvcControlMapping) (bytes : ℕ) : Prop :=
  ∀ k, (mapping.offset / 8 ≤ k ∧ k < mapping.offset / 8 + bytes) ↔
    ∃ t < mapping.size, (mapping.offset + t) / 8 = k

/-- The value comes back from the data it was stored in, reduced to the field; the rest of the data stays, and only
the bytes of the field are touched. -/
def RoundTrips (mapping : UvcControlMapping) (value : BitVec 32) (data : List UInt8) : Prop :=
  ∃ written bytes, uvcSetLeValue mapping value data = some (written, bytes) ∧ Covers mapping bytes ∧
    written.length = data.length ∧
    (∀ j < 8 * data.length, ¬ (mapping.offset ≤ j ∧ j < mapping.offset + mapping.size) →
      bitAt written j = bitAt data j) ∧
    ∃ bytes, uvcGetLeValue mapping written = some (reduced mapping value, bytes) ∧ Covers mapping bytes

/-- Behind the first byte of the field, shifting the value by the offset in that byte gives the bits that shifting it
by the bits taken there would give. -/
def ShiftsAgree (mapping : UvcControlMapping) (value : BitVec 32) : Prop :=
  mapping.offset % 8 = 0 ∨ ∀ s, s + (8 - mapping.offset % 8) < mapping.size →
    (value.sshiftRight (mapping.offset % 8)).getLsbD s = (value.sshiftRight (8 - mapping.offset % 8)).getLsbD s

theorem covers_of_count {mapping : UvcControlMapping} (hsize : 0 < mapping.size) :
    Covers mapping ((mapping.offset % 8 + mapping.size + 7) / 8) := by
  intro k
  constructor
  · rintro ⟨hfirst, hlast⟩
    by_cases hk : k = mapping.offset / 8
    · exact ⟨0, hsize, by omega⟩
    · exact ⟨8 * k - mapping.offset, by omega, by omega⟩
  · rintro ⟨t, ht, rfl⟩
    omega

theorem getLsbD_reduced {mapping : UvcControlMapping} {value : BitVec 32} (hsize : 0 < mapping.size) {t : ℕ}
    (ht : t < 32) :
    (reduced mapping value).getLsbD t = if t < mapping.size then value.getLsbD t
      else decide (mapping.dataType = .signed) && value.getLsbD (mapping.size - 1) := by
  unfold reduced
  have hlast : mapping.size - 1 < mapping.size := by omega
  by_cases hsigned : mapping.dataType = .signed
  · rw [if_pos hsigned, BitVec.getLsbD_signExtend, decide_eq_true hsigned]
    by_cases hlt : t < mapping.size
    · simp [hlt, ht]
    · rw [BitVec.msb_eq_getLsbD_last]
      simp [hlt, ht, hlast]
  · rw [if_neg hsigned, BitVec.getLsbD_setWidth, BitVec.getLsbD_setWidth, decide_eq_false hsigned]
    by_cases hlt : t < mapping.size
    · simp [hlt, ht]
    · simp [hlt]

/-- The written bits are those of the value when the two shifts agree. -/
theorem writtenBit_eq_iff {o size : ℕ} {value : BitVec 32} (ho : o < 8) (hle : size ≤ 32) :
    (∀ t < size, writtenBit o value t = value.getLsbD t) ↔ (o = 0 ∨ ∀ s, s + (8 - o) < size →
      (value.sshiftRight o).getLsbD s = (value.sshiftRight (8 - o)).getLsbD s) := by
  have hright : ∀ s, s + (8 - o) < size → (value.sshiftRight (8 - o)).getLsbD s = value.getLsbD (s + (8 - o)) := by
    intro s hs
    have hin : 8 - o + s < 32 := by omega
    have hk : ¬ 32 ≤ s := by omega
    rw [BitVec.getLsbD_sshiftRight, if_pos hin, decide_eq_false hk, Nat.add_comm s]
    rfl
  have hbehind : ∀ s, ¬ s + (8 - o) < 8 - o := fun s => by omega
  constructor
  · intro h
    by_cases hzero : o = 0
    · exact Or.inl hzero
    · refine Or.inr fun s hs => ?_
      have hbit := h (s + (8 - o)) hs
      unfold writtenBit at hbit
      rw [if_neg (hbehind s), if_pos hzero, Nat.add_sub_cancel] at hbit
      rw [hbit, hright s hs]
  · intro h t ht
    unfold writtenBit
    by_cases hfirst : t < 8 - o
    · rw [if_pos hfirst]
    · obtain ⟨s, rfl⟩ : ∃ s, t = s + (8 - o) := ⟨t - (8 - o), by omega⟩
      rw [if_neg hfirst, Nat.add_sub_cancel]
      rcases h with rfl | h
      · rw [if_neg (by decide)]
        exact hright s ht
      · by_cases hzero : o = 0
        · subst hzero
          rw [if_neg (by decide)]
          exact hright s ht
        · rw [if_pos hzero, h s ht]
          exact hright s ht

/-- **Exactly when a value comes back**: the field starts on a byte, or the two shifts agree on the bits of the field
behind its first byte. -/
theorem leValue_comesBack_iff (mapping : UvcControlMapping) (value : BitVec 32) (data : List UInt8)
    (hsize : 1 ≤ mapping.size) (hle : mapping.size ≤ 32)
    (hfit : mapping.offset + mapping.size ≤ 8 * data.length) (hbutton : mapping.isButton = false) :
    RoundTrips mapping value data ↔ ShiftsAgree mapping value := by
  obtain ⟨w, hw, hbytes, hlength, hwritten⟩ := bitAt_set value hsize hle hfit hbutton
  obtain ⟨r, hr, hcount, hread⟩ := getLsbD_get w.1 hsize hle (by rw [hlength]; exact hfit)
  have hfield : ∀ t < mapping.size, bitAt w.1 (mapping.offset + t) = writtenBit (mapping.offset % 8) value t := by
    intro t ht
    rw [hwritten _ (by omega), if_pos (by omega), Nat.add_sub_cancel_left]
  unfold ShiftsAgree
  rw [← writtenBit_eq_iff (Nat.mod_lt _ (by decide)) hle]
  constructor
  · rintro ⟨written, bytes, hset, -, -, -, bytes', hget, -⟩ t ht
    obtain rfl : w = (written, bytes) := Option.some.inj (hw.symm.trans hset)
    obtain rfl : r = (reduced mapping value, bytes') := Option.some.inj (hr.symm.trans hget)
    have hbit := hread t (by omega)
    unfold fieldBit at hbit
    rw [getLsbD_reduced hsize (by omega), if_pos ht, if_pos ht, hfield t ht] at hbit
    exact hbit.symm
  · intro h
    refine ⟨w.1, w.2, hw, ?_, hlength, fun j hj hout => ?_, r.2, ?_, ?_⟩
    · rw [hbytes]
      exact covers_of_count hsize
    · rw [hwritten j hj, if_neg hout]
    · have hvalue : r.1 = reduced mapping value := by
        refine BitVec.eq_of_getLsbD_eq fun t ht => ?_
        rw [hread t ht, getLsbD_reduced hsize ht]
        unfold fieldBit
        by_cases hlt : t < mapping.size
        · rw [if_pos hlt, if_pos hlt, hfield t hlt, h t hlt]
        · have hlast : mapping.size - 1 < mapping.size := by omega
          rw [if_neg hlt, if_neg hlt, hfield _ hlast, h _ hlast]
      rw [hr, ← hvalue]
    · rw [hcount]
      exact covers_of_count hsize

/-- A signed field of ten bits in the middle of a byte keeps its value. -/
theorem roundTrips_nibble : RoundTrips ⟨10, 12, .signed, false⟩ (-3) [1, 2, 3] :=
  (leValue_comesBack_iff ⟨10, 12, .signed, false⟩ (-3) [1, 2, 3] (by decide) (by decide) (by decide) rfl).mpr
    (Or.inr fun _ _ => rfl)

/-- Ten bits from bit 3 on: 32 is stored, and 128 is read. -/
theorem not_roundTrips_three : ¬ RoundTrips ⟨10, 3, .unsigned, false⟩ 32 [0, 0] := by
  rintro ⟨written, bytes, hset, -, -, -, bytes', hget, -⟩
  have hstored : uvcSetLeValue ⟨10, 3, .unsigned, false⟩ 32 [0, 0] = some ([0, 4], 2) := by decide +kernel
  obtain ⟨rfl, rfl⟩ : [0, 4] = written ∧ 2 = bytes := Prod.mk.inj (Option.some.inj (hstored.symm.trans hset))
  have hread : uvcGetLeValue ⟨10, 3, .unsigned, false⟩ [0, 4] = some (128, 2) := by decide +kernel
  have hvalue := (Prod.mk.inj (Option.some.inj (hread.symm.trans hget))).1
  exact absurd hvalue (by decide +kernel)

end Uvc
end TbsMedia
