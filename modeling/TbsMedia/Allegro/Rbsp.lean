import Mathlib

/-!
# Raw byte sequence payloads

A raw byte sequence payload is written and read bit by bit.  Where two zero bytes would be followed by a byte whose
upper six bits are zero, a byte 3 is put between.  It is put there when the next bit after 22 zeros is written: two
one bits complete the byte, and the six zero bits that it had come again.

* `rbspReadBit`, `rbspWriteBit`, `rbspReadBits`, `rbspWriteBits`: the primitives.
* `addEmulationPreventionThreeByte_eq`, `discardEmulationPreventionThreeByte_eq`: the recursion of the source.
* `plainReadBit_eq`, `plainWriteBit_ok`: one bit of the buffer.
-/

namespace TbsMedia
namespace Allegro

def EINVAL : ℤ := 22

/-- The position and the counter are `unsigned int`s. -/
def POS_LIMIT : ℕ := 2 ^ 32

def EMULATION_PREVENTION_THREE_BYTE : ℕ := 0x3 <<< 6

/-! ## State -/

/-- A `struct rbsp`, but for its operations and its error. -/
structure Rbsp where
  data : ℕ → UInt8
  size : ℕ
  pos : ℕ
  numConsecutiveZeros : ℕ
  /-- The bytes that were completed to an inserted 3. -/
  inserted : List ℕ

/-- `(b >> shift) & 1`. -/
def getBit (b : UInt8) (shift : ℕ) : Bool :=
  decide ((b >>> UInt8.ofNat shift) &&& 1 = 1)

/-- `b & ~(1 << shift) | value << shift`. -/
def putBit (b : UInt8) (shift : ℕ) (value : Bool) : UInt8 :=
  (b &&& ~~~(1 <<< UInt8.ofNat shift)) ||| ((if value then 1 else 0) <<< UInt8.ofNat shift)

/-- The number of zeros after a bit; `pos` is the position behind it. -/
def nextZeros (zeros pos : ℕ) (bit : Bool) : ℕ :=
  if bit = true ∨ zeros < 7 ∧ pos % 8 = 0 then 0 else (zeros + 1) % POS_LIMIT

/-! ## Reading -/

/-- `rbsp_read_bit`, where nothing has to be discarded. -/
def plainReadBit (r : Rbsp) : Rbsp × Except ℤ Bool :=
  if r.size ≤ r.pos / 8 then (r, .error (-EINVAL))
  else
    let bit := getBit (r.data (r.pos / 8)) (7 - r.pos % 8)
    let pos := (r.pos + 1) % POS_LIMIT
    ({ r with pos := pos, numConsecutiveZeros := nextZeros r.numConsecutiveZeros pos bit }, .ok bit)

/-- The loop of `rbsp_read_bits`. -/
def readBitsWith (readBit : Rbsp → Rbsp × Except ℤ Bool) : ℕ → ℕ → Rbsp → Rbsp × Except ℤ ℕ
  | 0, tmp, r => (r, .ok tmp)
  | i + 1, tmp, r =>
    match readBit r with
    | (r, .error e) => (r, .error e)
    | (r, .ok bit) => readBitsWith readBit i (tmp ||| bit.toNat <<< i) r

/-- `discard_emulation_prevention_three_byte`.  Eight bits after the counter was reset, nothing is discarded. -/
def discardEmulationPreventionThreeByte (r : Rbsp) : Rbsp × Except ℤ Unit :=
  match readBitsWith plainReadBit 8 0 { r with numConsecutiveZeros := 0 } with
  | (r, .error _) => (r, .error (-EINVAL))
  | (r, .ok tmp) => (r, if tmp ≠ EMULATION_PREVENTION_THREE_BYTE then .error (-EINVAL) else .ok ())

/-- `rbsp_read_bit`. -/
def rbspReadBit (r : Rbsp) : Rbsp × Except ℤ Bool :=
  if r.numConsecutiveZeros = 22 then
    match discardEmulationPreventionThreeByte r with
    | (r, .error e) => (r, .error e)
    | (r, .ok ()) => plainReadBit r
  else plainReadBit r

/-- `rbsp_read_bits`. -/
def rbspReadBits (r : Rbsp) (n : ℕ) : Rbsp × Except ℤ ℕ :=
  if 32 < n then (r, .error (-EINVAL)) else readBitsWith rbspReadBit n 0 r

/-! ## Writing -/

/-- `rbsp_write_bit`, where nothing has to be inserted. -/
def plainWriteBit (r : Rbsp) (value : Bool) : Rbsp × ℤ :=
  if r.size ≤ r.pos / 8 then (r, -EINVAL)
  else
    let pos := (r.pos + 1) % POS_LIMIT
    ({ r with
        data := Function.update r.data (r.pos / 8) (putBit (r.data (r.pos / 8)) (7 - r.pos % 8) value)
        pos := pos
        numConsecutiveZeros := nextZeros r.numConsecutiveZeros pos value }, 0)

/-- The loop of `rbsp_write_bits`. -/
def writeBitsWith (writeBit : Rbsp → Bool → Rbsp × ℤ) : ℕ → ℕ → Rbsp → Rbsp × ℤ
  | 0, _, r => (r, 0)
  | n + 1, value, r =>
    let w := writeBit r (decide ((value >>> n) &&& 1 = 1))
    if w.2 ≠ 0 then w else writeBitsWith writeBit n value w.1

/-- `add_emulation_prevention_three_byte`.  Eight bits after the counter was reset, nothing is inserted. -/
def addEmulationPreventionThreeByte (r : Rbsp) : Rbsp :=
  (writeBitsWith plainWriteBit 8 EMULATION_PREVENTION_THREE_BYTE
    { r with numConsecutiveZeros := 0, inserted := r.pos / 8 :: r.inserted }).1

/-- `rbsp_write_bit`. -/
def rbspWriteBit (r : Rbsp) (value : Bool) : Rbsp × ℤ :=
  plainWriteBit (if r.numConsecutiveZeros = 22 then addEmulationPreventionThreeByte r else r) value

/-- `rbsp_write_bits`. -/
def rbspWriteBits (r : Rbsp) (n value : ℕ) : Rbsp × ℤ :=
  if 32 < n then (r, -EINVAL) else writeBitsWith rbspWriteBit n value r

/-- `nal_h264_rbsp_trailing_bits`, where bits are written. -/
def writeTrailingBits (r : Rbsp) : Rbsp × ℤ :=
  let w := rbspWriteBit r true
  if w.2 ≠ 0 then w else rbspWriteBits w.1 ((w.1.pos + 7) / 8 * 8 - w.1.pos) 0

/-! ## The counter does not get to 22 while a byte is inserted or discarded -/

theorem nextZeros_le (zeros pos : ℕ) (bit : Bool) : nextZeros zeros pos bit ≤ zeros + 1 := by
  unfold nextZeros
  split
  · exact Nat.zero_le _
  · exact Nat.mod_le _ _

theorem plainReadBit_zeros (r : Rbsp) : (plainReadBit r).1.numConsecutiveZeros ≤ r.numConsecutiveZeros + 1 := by
  unfold plainReadBit
  split
  · exact Nat.le_succ _
  · exact nextZeros_le _ _ _

theorem plainWriteBit_zeros (r : Rbsp) (value : Bool) :
    (plainWriteBit r value).1.numConsecutiveZeros ≤ r.numConsecutiveZeros + 1 := by
  unfold plainWriteBit
  split
  · exact Nat.le_succ _
  · exact nextZeros_le _ _ _

theorem rbspReadBit_of_ne {r : Rbsp} (h : r.numConsecutiveZeros ≠ 22) : rbspReadBit r = plainReadBit r :=
  if_neg h

theorem rbspWriteBit_of_ne {r : Rbsp} (h : r.numConsecutiveZeros ≠ 22) (value : Bool) :
    rbspWriteBit r value = plainWriteBit r value := by
  unfold rbspWriteBit
  rw [if_neg h]

theorem readBitsWith_plain (n tmp : ℕ) (r : Rbsp) (h : r.numConsecutiveZeros + n ≤ 22) :
    readBitsWith rbspReadBit n tmp r = readBitsWith plainReadBit n tmp r := by
  induction n generalizing tmp r with
  | zero => rfl
  | succ n ih =>
    have hz := plainReadBit_zeros r
    unfold readBitsWith
    rw [rbspReadBit_of_ne (by omega)]
    rcases hr : plainReadBit r with ⟨r', _ | bit⟩
    · rfl
    · rw [hr] at hz
      exact ih _ r' (by dsimp only at hz; omega)

theorem writeBitsWith_plain (n value : ℕ) (r : Rbsp) (h : r.numConsecutiveZeros + n ≤ 22) :
    writeBitsWith rbspWriteBit n value r = writeBitsWith plainWriteBit n value r := by
  induction n generalizing r with
  | zero => rfl
  | succ n ih =>
    have hz := plainWriteBit_zeros r (decide ((value >>> n) &&& 1 = 1))
    unfold writeBitsWith
    rw [rbspWriteBit_of_ne (by omega)]
    dsimp only
    rw [ih _ (by omega)]

/-- The recursion of the source: the bits that are discarded are read as all others are. -/
theorem discardEmulationPreventionThreeByte_eq (r : Rbsp) : discardEmulationPreventionThreeByte r =
    match rbspReadBits { r with numConsecutiveZeros := 0 } 8 with
    | (r, .error _) => (r, .error (-EINVAL))
    | (r, .ok tmp) => (r, if tmp ≠ EMULATION_PREVENTION_THREE_BYTE then .error (-EINVAL) else .ok ()) := by
  unfold rbspReadBits
  rw [if_neg (by omega), readBitsWith_plain 8 0 _ (by show 0 + 8 ≤ 22; omega)]
  rfl

/-- The recursion of the source: the bits that are inserted are written as all others are. -/
theorem addEmulationPreventionThreeByte_eq (r : Rbsp) : addEmulationPreventionThreeByte r =
    (rbspWriteBits { r with numConsecutiveZeros := 0, inserted := r.pos / 8 :: r.inserted } 8
      EMULATION_PREVENTION_THREE_BYTE).1 := by
  unfold rbspWriteBits
  rw [if_neg (by omega), writeBitsWith_plain 8 _ _ (by show 0 + 8 ≤ 22; omega)]
  rfl

/-! ## The bits of the buffer -/

/-- The bits of a buffer, the highest bit of a byte first. -/
def bitAt (data : ℕ → UInt8) (i : ℕ) : Bool := getBit (data (i / 8)) (7 - i % 8)

theorem getBit_eq (b : UInt8) {s : ℕ} (h : s < 8) : getBit b s = b.toBitVec.getLsbD s := by
  have hs : (b >>> UInt8.ofNat s).toBitVec = b.toBitVec >>> s := by
    interval_cases s <;> simp
  unfold getBit
  rw [Bool.eq_iff_iff, decide_eq_true_iff, ← UInt8.toBitVec_inj, UInt8.toBitVec_and, hs,
    show (1 : UInt8).toBitVec = 1#8 from rfl, BitVec.and_one_eq_setWidth_ofBool_getLsbD, BitVec.getLsbD_ushiftRight,
    Nat.add_zero]
  cases b.toBitVec.getLsbD s <;> decide

theorem getBit_putBit (b : UInt8) (v : Bool) {s t : ℕ} (hs : s < 8) (ht : t < 8) :
    getBit (putBit b s v) t = if t = s then v else getBit b t := by
  rw [getBit_eq _ ht, getBit_eq _ ht]
  unfold putBit
  interval_cases s <;> interval_cases t <;> cases v <;> simp

/-- A bit that is written is the only one that changes. -/
theorem bitAt_update (data : ℕ → UInt8) (p : ℕ) (v : Bool) (i : ℕ) :
    bitAt (Function.update data (p / 8) (putBit (data (p / 8)) (7 - p % 8) v)) i = if i = p then v else bitAt data i := by
  unfold bitAt
  by_cases hb : i / 8 = p / 8
  · rw [hb, Function.update_self, getBit_putBit _ _ (by omega) (by omega)]
    by_cases hi : i = p
    · rw [hi, if_pos rfl, if_pos rfl]
    · rw [if_neg (by omega), if_neg hi]
  · rw [Function.update_of_ne hb, if_neg fun h => hb (congrArg (· / 8) h)]

/-- A bit that was written is in the buffer, and the position did not go over its limit. -/
theorem plainWriteBit_ok {r r' : Rbsp} {v : Bool} (h : plainWriteBit r v = (r', 0)) (hp : r.pos + 1 < POS_LIMIT ∨
    8 * r.size < POS_LIMIT) : r.pos / 8 < r.size ∧ r'.size = r.size ∧ r'.pos = r.pos + 1 ∧
      r'.numConsecutiveZeros = nextZeros r.numConsecutiveZeros (r.pos + 1) v ∧ r'.inserted = r.inserted ∧
      ∀ i, bitAt r'.data i = if i = r.pos then v else bitAt r.data i := by
  unfold plainWriteBit at h
  by_cases hs : r.size ≤ r.pos / 8
  · rw [if_pos hs] at h
    exact absurd (congrArg Prod.snd h) (show ¬-EINVAL = 0 by decide)
  · rw [if_neg hs] at h
    have hmod : (r.pos + 1) % POS_LIMIT = r.pos + 1 := Nat.mod_eq_of_lt (by omega)
    obtain rfl := congrArg Prod.fst h
    rw [hmod]
    exact ⟨by omega, rfl, rfl, rfl, rfl, bitAt_update r.data r.pos v⟩

theorem plainWriteBit_error {r : Rbsp} {v : Bool} (h : (plainWriteBit r v).2 ≠ 0) :
    (plainWriteBit r v).1 = r ∧ r.size ≤ r.pos / 8 := by
  unfold plainWriteBit at h ⊢
  by_cases hs : r.size ≤ r.pos / 8
  · rw [if_pos hs]
    exact ⟨rfl, hs⟩
  · rw [if_neg hs] at h
    exact absurd rfl h

end Allegro
end TbsMedia
