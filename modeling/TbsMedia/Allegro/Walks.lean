import Mathlib
import TbsMedia.Allegro.Rbsp
import TbsMedia.Lib.ShiftRegister

/-!
# Writing and reading take the same walk

The bits that are written, with those that are inserted between them, are a walk along the bits of the buffer.
Reading takes the same walk: it starts with the same counter, and both count the same bits.  So the writer and the
reader never have to be compared with each other, and what the bytes look like is a property of the walk.

* `Cursor`, `Walks`: a position with its counter, and the bits on the way from one to another.
* `Writes`: what a writer did, as a walk along every buffer that has the bits that were written.
* `rbspWriteBit_writes`, `rbspWriteBits_writes`, `writeTrailingBits_writes`: the writers.
* `rbspReadBit_eq`, `rbspReadBits_eq`: the readers take the walk.
-/

namespace TbsMedia
namespace Allegro

open Lib (msbBits length_msbBits)

/-! ## Walks -/

/-- A position, the zeros that were counted there, and the bytes that were inserted before it. -/
structure Cursor where
  pos : ℕ
  zeros : ℕ
  inserted : List ℕ

def Cursor.put (c : Cursor) (bit : Bool) : Cursor :=
  { c with pos := c.pos + 1, zeros := nextZeros c.zeros (c.pos + 1) bit }

def Cursor.puts (c : Cursor) : List Bool → Cursor
  | [] => c
  | bit :: bits => (c.put bit).puts bits

/-- The bits that are inserted. -/
def escape : List Bool := msbBits EMULATION_PREVENTION_THREE_BYTE 8

/-- A byte is completed to an inserted one. -/
def Cursor.reset (c : Cursor) : Cursor := { c with zeros := 0, inserted := c.pos / 8 :: c.inserted }

/-- Where the next bit is: behind what has to be inserted. -/
def Cursor.next (c : Cursor) : Cursor := if c.zeros = 22 then c.reset.puts escape else c

/-- The bits from a position on. -/
def Spells (D : ℕ → Bool) : ℕ → List Bool → Prop
  | _, [] => True
  | i, bit :: bits => D i = bit ∧ Spells D (i + 1) bits

/-- The bits from one cursor to another, without those that were inserted. -/
def Walks (D : ℕ → Bool) : Cursor → List Bool → Cursor → Prop
  | c, [], c' => c' = c
  | c, bit :: bits, c' =>
    (c.zeros = 22 → Spells D c.pos escape) ∧ D c.next.pos = bit ∧ Walks D (c.next.put bit) bits c'

@[simp] theorem Cursor.puts_pos (c : Cursor) (bits : List Bool) : (c.puts bits).pos = c.pos + bits.length := by
  induction bits generalizing c with
  | nil => rfl
  | cons bit bits ih =>
    unfold puts
    rw [ih]
    simp only [put, List.length_cons]
    omega

theorem Cursor.puts_append (c : Cursor) (bits bits' : List Bool) :
    c.puts (bits ++ bits') = (c.puts bits).puts bits' := by
  induction bits generalizing c with
  | nil => rfl
  | cons bit bits ih => exact ih (c.put bit)

theorem Cursor.puts_zeros_le (c : Cursor) (bits : List Bool) : (c.puts bits).zeros ≤ c.zeros + bits.length := by
  induction bits generalizing c with
  | nil => exact le_rfl
  | cons bit bits ih =>
    have hput := nextZeros_le c.zeros (c.pos + 1) bit
    have hrec := ih (c.put bit)
    change (c.puts (bit :: bits)).zeros ≤ nextZeros c.zeros (c.pos + 1) bit + bits.length at hrec
    rw [List.length_cons]
    omega

theorem Cursor.next_pos (c : Cursor) : c.next.pos = if c.zeros = 22 then c.pos + 8 else c.pos := by
  unfold next
  split
  · exact puts_pos c.reset escape
  · rfl

theorem Spells.append {D : ℕ → Bool} {i : ℕ} {bits bits' : List Bool} (h : Spells D i bits)
    (h' : Spells D (i + bits.length) bits') : Spells D i (bits ++ bits') := by
  induction bits generalizing i with
  | nil => exact h'
  | cons bit bits ih =>
    refine ⟨h.1, ih h.2 ?_⟩
    rwa [Nat.add_assoc, Nat.add_comm 1]

theorem walks_append {D : ℕ → Bool} {c c' : Cursor} {bits bits' : List Bool} :
    Walks D c (bits ++ bits') c' ↔ ∃ d, Walks D c bits d ∧ Walks D d bits' c' := by
  induction bits generalizing c with
  | nil => exact ⟨fun h => ⟨c, rfl, h⟩, fun ⟨_, hd, h⟩ => hd ▸ h⟩
  | cons bit bits ih =>
    constructor
    · rintro ⟨h1, h2, h3⟩
      obtain ⟨d, hd, h⟩ := ih.mp h3
      exact ⟨d, ⟨h1, h2, hd⟩, h⟩
    · rintro ⟨d, ⟨h1, h2, hd⟩, h⟩
      exact ⟨h1, h2, ih.mpr ⟨d, hd, h⟩⟩

/-- With every bit, at most eight are inserted. -/
theorem Walks.pos_le {D : ℕ → Bool} {c c' : Cursor} {bits : List Bool} (h : Walks D c bits c') :
    c.pos + bits.length ≤ c'.pos ∧ c'.pos ≤ c.pos + 9 * bits.length := by
  induction bits generalizing c with
  | nil =>
    obtain rfl := h
    exact ⟨le_rfl, le_rfl⟩
  | cons bit bits ih =>
    have hrec := ih h.2.2
    have hnext := c.next_pos
    simp only [Cursor.put] at hrec
    rw [List.length_cons]
    split at hnext <;> omega

/-- Few bits after the counter was low, nothing is inserted. -/
theorem Walks.eq_puts {D : ℕ → Bool} {c c' : Cursor} {bits : List Bool} (h : Walks D c bits c')
    (hz : c.zeros + bits.length ≤ 22) : c' = c.puts bits := by
  induction bits generalizing c with
  | nil => exact h
  | cons bit bits ih =>
    rw [List.length_cons] at hz
    have hnext : c.next = c := if_neg (by omega)
    have hzeros := nextZeros_le c.zeros (c.pos + 1) bit
    have h3 := h.2.2
    rw [hnext] at h3
    exact ih h3 (by show nextZeros c.zeros (c.pos + 1) bit + bits.length ≤ 22; omega)

/-! ## Writing is a walk -/

def Rbsp.cursor (r : Rbsp) : Cursor := ⟨r.pos, r.numConsecutiveZeros, r.inserted⟩

/-- The position does not go over its limit with `n` more bits, whatever is inserted between them. -/
def Rbsp.Fits (r : Rbsp) (n : ℕ) : Prop := r.pos + 9 * n < POS_LIMIT ∨ 8 * r.size < POS_LIMIT

/-- The bits that were written so far. -/
def Agrees (D : ℕ → Bool) (r : Rbsp) : Prop := ∀ i < r.pos, D i = bitAt r.data i

/-- Bits were written one behind the other. -/
structure Puts (r : Rbsp) (bits : List Bool) (r' : Rbsp) : Prop where
  size : r'.size = r.size
  inside : r'.pos = r.pos ∨ r'.pos ≤ 8 * r.size
  cursor : r'.cursor = r.cursor.puts bits
  spells : ∀ D, Agrees D r' → Agrees D r ∧ Spells D r.pos bits

/-- Bits were written, with what has to be inserted between them. -/
structure Writes (r : Rbsp) (bits : List Bool) (r' : Rbsp) : Prop where
  size : r'.size = r.size
  inside : r'.pos = r.pos ∨ r'.pos ≤ 8 * r.size
  walks : ∀ D, Agrees D r' → Agrees D r ∧ Walks D r.cursor bits r'.cursor

theorem Puts.pos {r r' : Rbsp} {bits : List Bool} (h : Puts r bits r') : r'.pos = r.pos + bits.length :=
  (congrArg Cursor.pos h.cursor).trans (Cursor.puts_pos r.cursor bits)

theorem Puts.refl (r : Rbsp) : Puts r [] r := ⟨rfl, .inl rfl, rfl, fun _ hD => ⟨hD, trivial⟩⟩

theorem Puts.trans {r s t : Rbsp} {bits bits' : List Bool} (h : Puts r bits s) (h' : Puts s bits' t) :
    Puts r (bits ++ bits') t := by
  refine ⟨h'.size.trans h.size, ?_, ?_, fun D hD => ?_⟩
  · have := h.inside
    have := h'.inside
    rw [h.size] at this
    omega
  · rw [h'.cursor, h.cursor, Cursor.puts_append]
  · obtain ⟨hs, hs'⟩ := h'.spells D hD
    obtain ⟨hr, hr'⟩ := h.spells D hs
    rw [h.pos] at hs'
    exact ⟨hr, hr'.append hs'⟩

theorem Writes.refl (r : Rbsp) : Writes r [] r := ⟨rfl, .inl rfl, fun _ hD => ⟨hD, rfl⟩⟩

theorem Writes.trans {r s t : Rbsp} {bits bits' : List Bool} (h : Writes r bits s) (h' : Writes s bits' t) :
    Writes r (bits ++ bits') t := by
  refine ⟨h'.size.trans h.size, ?_, fun D hD => ?_⟩
  · have := h.inside
    have := h'.inside
    rw [h.size] at this
    omega
  · obtain ⟨hs, hs'⟩ := h'.walks D hD
    obtain ⟨hr, hr'⟩ := h.walks D hs
    exact ⟨hr, walks_append.mpr ⟨_, hr', hs'⟩⟩

/-- What was written is in the buffer. -/
theorem Writes.walks_self {r r' : Rbsp} {bits : List Bool} (h : Writes r bits r') :
    Walks (bitAt r'.data) r.cursor bits r'.cursor :=
  (h.walks _ fun _ _ => rfl).2

theorem Rbsp.Fits.of_le {r : Rbsp} {m n : ℕ} (h : r.Fits n) (hmn : m ≤ n) : r.Fits m := by
  unfold Fits at h ⊢
  omega

theorem Rbsp.Fits.after {r r' : Rbsp} {bits : List Bool} {n : ℕ} (h : r.Fits (bits.length + n))
    (hw : Writes r bits r') : r'.Fits n := by
  have hpos := hw.walks_self.pos_le
  have hsize := hw.size
  unfold Fits at h ⊢
  simp only [Rbsp.cursor] at hpos
  omega

theorem plainWriteBit_puts {r r' : Rbsp} {v : Bool} (h : plainWriteBit r v = (r', 0))
    (hp : r.pos + 1 < POS_LIMIT ∨ 8 * r.size < POS_LIMIT) : Puts r [v] r' := by
  obtain ⟨hin, hsize, hpos, hzeros, hins, hbit⟩ := plainWriteBit_ok h hp
  refine ⟨hsize, .inr (by omega), ?_, fun D hD => ⟨fun i hi => ?_, ?_, trivial⟩⟩
  · unfold Rbsp.cursor
    rw [hpos, hzeros, hins]
    rfl
  · rw [hD i (by omega), hbit, if_neg (by omega)]
  · rw [hD r.pos (by omega), hbit, if_pos rfl]

theorem decide_shiftRight (value n : ℕ) : decide ((value >>> n) &&& 1 = 1) = value.testBit n := by
  rw [Nat.testBit, Nat.and_comm]
  rcases Nat.mod_two_eq_zero_or_one (value >>> n) with h | h <;> simp [h, Nat.one_and_eq_mod_two]

theorem writeBitsWith_plain_puts {n value : ℕ} {r r' : Rbsp} (h : writeBitsWith plainWriteBit n value r = (r', 0))
    (hp : r.pos + n < POS_LIMIT ∨ 8 * r.size < POS_LIMIT) : Puts r (msbBits value n) r' := by
  induction n generalizing r with
  | zero =>
    obtain rfl := congrArg Prod.fst h
    exact Puts.refl r
  | succ n ih =>
    unfold writeBitsWith at h
    rw [decide_shiftRight] at h
    rcases hw : plainWriteBit r (value.testBit n) with ⟨s, e⟩
    rw [hw] at h
    by_cases he : e = 0
    · subst he
      have hs := plainWriteBit_puts hw (by omega)
      have hspos := hs.pos
      have hsize := hs.size
      exact hs.trans (ih h (by simp only [List.length_singleton] at hspos; omega))
    · rw [if_pos he] at h
      exact absurd (congrArg Prod.snd h) he

/-- When a bit could not be inserted, the next one cannot be written. -/
theorem writeBitsWith_plain_error {n value : ℕ} {r : Rbsp} (h : (writeBitsWith plainWriteBit n value r).2 ≠ 0) :
    (writeBitsWith plainWriteBit n value r).1.size ≤ (writeBitsWith plainWriteBit n value r).1.pos / 8 := by
  induction n generalizing r with
  | zero => exact absurd rfl h
  | succ n ih =>
    unfold writeBitsWith at h ⊢
    dsimp only at h ⊢
    by_cases he : (plainWriteBit r (decide ((value >>> n) &&& 1 = 1))).2 = 0
    · rw [if_neg (not_not_intro he)] at h ⊢
      exact ih h
    · rw [if_pos he]
      obtain ⟨hr, hsize⟩ := plainWriteBit_error he
      rwa [hr]

theorem rbspWriteBit_writes {r r' : Rbsp} {v : Bool} (h : rbspWriteBit r v = (r', 0)) (hf : r.Fits 1) :
    Writes r [v] r' := by
  unfold Rbsp.Fits at hf
  unfold rbspWriteBit at h
  by_cases hz : r.numConsecutiveZeros = 22
  · rw [if_pos hz] at h
    unfold addEmulationPreventionThreeByte at h
    generalize hr0 : ({ r with numConsecutiveZeros := 0, inserted := r.pos / 8 :: r.inserted } : Rbsp) = r0 at h
    have hpos0 : r0.pos = r.pos := by rw [← hr0]
    have hsize0 : r0.size = r.size := by rw [← hr0]
    have hcur0 : r0.cursor = r.cursor.reset := by rw [← hr0]; rfl
    have hdata0 : r0.data = r.data := by rw [← hr0]
    rcases hw : writeBitsWith plainWriteBit 8 EMULATION_PREVENTION_THREE_BYTE r0 with ⟨s, e⟩
    have he : e = 0 := by
      by_contra hne
      have herr := writeBitsWith_plain_error (n := 8) (r := r0) (by rw [hw]; exact hne)
      rw [hw] at h herr
      unfold plainWriteBit at h
      rw [if_pos herr] at h
      exact absurd (congrArg Prod.snd h) (show ¬-EINVAL = 0 by decide)
    rw [hw] at h
    change plainWriteBit s v = (r', 0) at h
    subst he
    have hs := writeBitsWith_plain_puts hw (by omega)
    have hspos := hs.pos
    have hssize := hs.size
    rw [length_msbBits] at hspos
    have ht := plainWriteBit_puts h (by omega)
    have htpos := ht.pos
    have htsize := ht.size
    have hcs : s.cursor = r.cursor.next := by
      rw [hs.cursor, hcur0]
      exact (if_pos hz).symm
    refine ⟨by omega, ?_, fun D hD => ?_⟩
    · have hin := ht.inside
      simp only [List.length_singleton] at htpos hin
      omega
    · obtain ⟨hDs, hv⟩ := ht.spells D hD
      obtain ⟨hDr, hesc⟩ := hs.spells D hDs
      rw [hpos0] at hesc
      refine ⟨fun i hi => ?_, fun _ => hesc, ?_, ?_⟩
      · rw [hDr i (by omega), hdata0]
      · rw [← hcs]
        exact hv.1
      · rw [← hcs]
        exact ht.cursor
  · rw [if_neg hz] at h
    have ht := plainWriteBit_puts h (by omega)
    refine ⟨ht.size, ht.inside, fun D hD => ?_⟩
    obtain ⟨hDr, hv⟩ := ht.spells D hD
    have hnext : r.cursor.next = r.cursor := if_neg hz
    refine ⟨hDr, fun h22 => absurd h22 hz, ?_, ?_⟩
    · rw [hnext]
      exact hv.1
    · rw [hnext]
      exact ht.cursor

theorem writeBitsWith_writes {n value : ℕ} {r r' : Rbsp} (h : writeBitsWith rbspWriteBit n value r = (r', 0))
    (hf : r.Fits n) : Writes r (msbBits value n) r' := by
  induction n generalizing r with
  | zero =>
    obtain rfl := congrArg Prod.fst h
    exact Writes.refl r
  | succ n ih =>
    unfold writeBitsWith at h
    rw [decide_shiftRight] at h
    rcases hw : rbspWriteBit r (value.testBit n) with ⟨s, e⟩
    rw [hw] at h
    by_cases he : e = 0
    · subst he
      have hs := rbspWriteBit_writes hw (hf.of_le (by omega))
      have hf' : r.Fits ([value.testBit n].length + n) := hf.of_le (by rw [List.length_singleton]; omega)
      exact hs.trans (ih h (hf'.after hs))
    · rw [if_pos he] at h
      exact absurd (congrArg Prod.snd h) he

theorem rbspWriteBits_width {n value : ℕ} {r r' : Rbsp} (h : rbspWriteBits r n value = (r', 0)) : n ≤ 32 := by
  by_contra hn
  unfold rbspWriteBits at h
  rw [if_pos (Nat.lt_of_not_le hn)] at h
  exact absurd (congrArg Prod.snd h) (show ¬-EINVAL = 0 by decide)

theorem rbspWriteBits_writes {n value : ℕ} {r r' : Rbsp} (h : rbspWriteBits r n value = (r', 0)) (hf : r.Fits n) :
    n ≤ 32 ∧ Writes r (msbBits value n) r' := by
  have hn := rbspWriteBits_width h
  unfold rbspWriteBits at h
  rw [if_neg (Nat.not_lt.mpr hn)] at h
  exact ⟨hn, writeBitsWith_writes h hf⟩

theorem msbBits_zero (n : ℕ) : msbBits 0 n = List.replicate n false := by
  induction n with
  | zero => rfl
  | succ n ih =>
    unfold msbBits
    rw [ih, Nat.zero_testBit]
    rfl

/-- The trailing bits complete the last byte. -/
theorem writeTrailingBits_writes {r r' : Rbsp} (h : writeTrailingBits r = (r', 0)) (hf : r.Fits 8) :
    ∃ k < 8, Writes r (true :: List.replicate k false) r' ∧ r'.pos % 8 = 0 := by
  unfold writeTrailingBits at h
  rcases hw : rbspWriteBit r true with ⟨s, e⟩
  rw [hw] at h
  by_cases he : e = 0
  · subst he
    have hs := rbspWriteBit_writes hw (hf.of_le (by omega))
    have hf' : r.Fits ([true].length + 7) := hf
    generalize hk : (s.pos + 7) / 8 * 8 - s.pos = k
    change rbspWriteBits s ((s.pos + 7) / 8 * 8 - s.pos) 0 = (r', 0) at h
    rw [hk] at h
    obtain ⟨-, ht⟩ := rbspWriteBits_writes h ((hf'.after hs).of_le (by omega))
    have hzero : s.numConsecutiveZeros = 0 := by
      have := hs.walks_self.2.2
      have hcur : s.cursor = r.cursor.next.put true := this
      exact congrArg Cursor.zeros hcur
    have hpos : r'.pos = s.pos + k := by
      have := congrArg Cursor.pos (ht.walks_self.eq_puts (by
        rw [length_msbBits]
        show s.numConsecutiveZeros + k ≤ 22
        omega))
      rwa [Cursor.puts_pos, length_msbBits] at this
    rw [msbBits_zero] at ht
    exact ⟨k, by omega, hs.trans ht, by omega⟩
  · rw [if_pos he] at h
    exact absurd (congrArg Prod.snd h) he

/-! ## Reading is the same walk -/

/-- The reader at a cursor. -/
def Rbsp.at (r : Rbsp) (c : Cursor) : Rbsp := { r with pos := c.pos, numConsecutiveZeros := c.zeros }

theorem plainReadBit_eq {r : Rbsp} {c : Cursor} (hin : c.pos < 8 * r.size) (hlim : c.pos + 1 < POS_LIMIT) :
    plainReadBit (r.at c) = (r.at (c.put (bitAt r.data c.pos)), .ok (bitAt r.data c.pos)) := by
  have hmod : (c.pos + 1) % POS_LIMIT = c.pos + 1 := Nat.mod_eq_of_lt hlim
  unfold plainReadBit
  rw [if_neg (show ¬(r.at c).size ≤ (r.at c).pos / 8 by simp only [Rbsp.at]; omega)]
  simp only [Rbsp.at, hmod]
  rfl

/-- The bits of a value, read one by one. -/
theorem lor_testBit_mod (tmp value n : ℕ) :
    tmp ||| (value.testBit n).toNat <<< n ||| value % 2 ^ n = tmp ||| value % 2 ^ (n + 1) := by
  refine Nat.eq_of_testBit_eq fun i => ?_
  rw [Nat.testBit_or, Nat.testBit_or, Nat.testBit_or, Nat.testBit_shiftLeft, Nat.testBit_mod_two_pow,
    Nat.testBit_mod_two_pow, Bool.or_assoc]
  congr 1
  rcases lt_trichotomy i n with hi | rfl | hi
  · simp [hi, Nat.lt_succ_of_lt hi, Nat.not_le.mpr hi]
  · cases h : value.testBit i <;> simp
  · have h1 : ¬i < n := by omega
    have h2 : ¬i < n + 1 := by omega
    have h3 : (value.testBit n).toNat.testBit (i - n) = false :=
      Nat.testBit_lt_two_pow ((Bool.toNat_lt _).trans_le (Nat.le_self_pow (by omega) 2))
    simp [h1, h2, h3]

theorem readBitsWith_plain_eq {r : Rbsp} {n : ℕ} {c : Cursor} {value : ℕ} (tmp : ℕ)
    (h : Spells (bitAt r.data) c.pos (msbBits value n)) (hin : c.pos + n ≤ 8 * r.size) (hlim : c.pos + n < POS_LIMIT) :
    readBitsWith plainReadBit n tmp (r.at c) = (r.at (c.puts (msbBits value n)), .ok (tmp ||| value % 2 ^ n)) := by
  induction n generalizing c tmp with
  | zero =>
    rw [pow_zero, Nat.mod_one, Nat.or_zero]
    rfl
  | succ n ih =>
    unfold readBitsWith
    rw [plainReadBit_eq (by omega) (by omega), h.1]
    have hrec := ih (c := c.put (value.testBit n)) (tmp ||| (value.testBit n).toNat <<< n) h.2
      (by simp only [Cursor.put]; omega) (by simp only [Cursor.put]; omega)
    rw [lor_testBit_mod] at hrec
    exact hrec

theorem discard_eq {r : Rbsp} {c : Cursor} (h : Spells (bitAt r.data) c.pos escape) (hin : c.pos + 8 ≤ 8 * r.size)
    (hlim : c.pos + 8 < POS_LIMIT) :
    discardEmulationPreventionThreeByte (r.at c) = (r.at (c.reset.puts escape), .ok ()) := by
  have hread := readBitsWith_plain_eq (c := c.reset) 0 h hin hlim
  unfold discardEmulationPreventionThreeByte
  change readBitsWith plainReadBit 8 0 { r.at c with numConsecutiveZeros := 0 } = _ at hread
  rw [hread]
  rfl

/-- **A bit of the walk is read.** -/
theorem rbspReadBit_eq {r : Rbsp} {c c' : Cursor} {bit : Bool} {bits : List Bool}
    (h : Walks (bitAt r.data) c (bit :: bits) c') (hin : c'.pos ≤ 8 * r.size) (hlim : c'.pos < POS_LIMIT) :
    rbspReadBit (r.at c) = (r.at (c.next.put bit), .ok bit) := by
  obtain ⟨hesc, hbit, hrest⟩ := h
  have hle := hrest.pos_le
  have hnext := c.next_pos
  change c.next.pos + 1 + bits.length ≤ c'.pos ∧ _ at hle
  have hread := plainReadBit_eq (r := r) (c := c.next) (by omega) (by omega)
  rw [hbit] at hread
  unfold rbspReadBit
  by_cases hz : c.zeros = 22
  · rw [if_pos hz] at hnext
    rw [if_pos (show (r.at c).numConsecutiveZeros = 22 from hz), discard_eq (hesc hz) (by omega) (by omega)]
    have hc : c.next = c.reset.puts escape := if_pos hz
    rw [← hc]
    exact hread
  · have hc : c.next = c := if_neg hz
    rw [hc] at hread ⊢
    rw [if_neg (show ¬(r.at c).numConsecutiveZeros = 22 from hz), hread]

theorem readBitsWith_eq {r : Rbsp} {n : ℕ} {c c' : Cursor} {value : ℕ} (tmp : ℕ)
    (h : Walks (bitAt r.data) c (msbBits value n) c') (hin : c'.pos ≤ 8 * r.size) (hlim : c'.pos < POS_LIMIT) :
    readBitsWith rbspReadBit n tmp (r.at c) = (r.at c', .ok (tmp ||| value % 2 ^ n)) := by
  induction n generalizing c tmp with
  | zero =>
    obtain rfl := h
    rw [pow_zero, Nat.mod_one, Nat.or_zero]
    rfl
  | succ n ih =>
    unfold readBitsWith
    rw [rbspReadBit_eq h hin hlim]
    have hrec := ih (tmp ||| (value.testBit n).toNat <<< n) h.2.2
    rw [lor_testBit_mod] at hrec
    exact hrec

/-- **The bits of a value are read.** -/
theorem rbspReadBits_eq {r : Rbsp} {n : ℕ} {c c' : Cursor} {value : ℕ} (hn : n ≤ 32)
    (h : Walks (bitAt r.data) c (msbBits value n) c') (hin : c'.pos ≤ 8 * r.size) (hlim : c'.pos < POS_LIMIT) :
    rbspReadBits (r.at c) n = (r.at c', .ok (value % 2 ^ n)) := by
  unfold rbspReadBits
  rw [if_neg (by omega), readBitsWith_eq 0 h hin hlim, Nat.zero_or]

/-- `rbsp_read_bit`, so many times. -/
def readBitList : ℕ → Rbsp → Rbsp × Except ℤ (List Bool)
  | 0, r => (r, .ok [])
  | n + 1, r =>
    match rbspReadBit r with
    | (r, .error e) => (r, .error e)
    | (r, .ok bit) =>
      match readBitList n r with
      | (r, .error e) => (r, .error e)
      | (r, .ok bits) => (r, .ok (bit :: bits))

theorem readBitList_eq {r : Rbsp} {c c' : Cursor} {bits : List Bool} (h : Walks (bitAt r.data) c bits c')
    (hin : c'.pos ≤ 8 * r.size) (hlim : c'.pos < POS_LIMIT) :
    readBitList bits.length (r.at c) = (r.at c', .ok bits) := by
  induction bits generalizing c with
  | nil =>
    obtain rfl := h
    rfl
  | cons bit bits ih =>
    rw [List.length_cons]
    unfold readBitList
    rw [rbspReadBit_eq h hin hlim]
    dsimp only
    rw [ih h.2.2]

end Allegro
end TbsMedia
