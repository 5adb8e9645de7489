import Mathlib
import TbsMedia.Allegro.Walks

/-!
# Emulation prevention

A walk along the bits of a buffer is followed with what the counter says of the bytes so far.  As long as the byte at
the cursor is all zero, the counter is the number of zeros since the last byte that was not; else it is too low to get
to 22 before the byte ends.  So it gets there at the sixth bit of a byte with two zero bytes before, and nowhere else.

* `Emulation`: what is known at a cursor.
* `Emulation.put`, `Emulation.next`, `Emulation.walk`: a bit, an inserted byte, a walk.
* `emulationPrevention`: the bytes that are written, and the bits that are read from them.
-/

namespace TbsMedia
namespace Allegro

open Lib (msbBits length_msbBits)

/-! ## What the counter says -/

/-- All bits of a byte are zero. -/
def ZeroByte (D : ℕ → Bool) (b : ℕ) : Prop := ∀ i < 8, D (8 * b + i) = false

/-- The upper six bits of a byte are zero. -/
def ZeroTop (D : ℕ → Bool) (b : ℕ) : Prop := ∀ i < 6, D (8 * b + i) = false

/-- What is known at a cursor of the bytes from `base` on. -/
structure Emulation (D : ℕ → Bool) (base : ℕ) (c : Cursor) : Prop where
  base_le : 8 * base ≤ c.pos
  zeros_le : c.zeros ≤ 22
  /-- The zeros go back to the last byte that was not zero. -/
  run : (∀ i < c.pos % 8, D (8 * (c.pos / 8) + i) = false) →
    ∃ m, c.zeros = c.pos % 8 + 8 * m ∧ base + m ≤ c.pos / 8 ∧
      (∀ b, c.pos / 8 ≤ b + m → b < c.pos / 8 → ZeroByte D b) ∧
      (base + m < c.pos / 8 → ¬ZeroByte D (c.pos / 8 - 1 - m))
  tail : (¬∀ i < c.pos % 8, D (8 * (c.pos / 8) + i) = false) → c.zeros < c.pos % 8
  /-- A low byte behind two zero bytes was inserted. -/
  low : ∀ b, base + 2 ≤ b → 8 * b + 7 ≤ c.pos → ZeroByte D (b - 2) → ZeroByte D (b - 1) → ZeroTop D b →
    8 * b + 8 ≤ c.pos ∧ b ∈ c.inserted ∧ D (8 * b + 6) = true ∧ D (8 * b + 7) = true

theorem Emulation.start (D : ℕ → Bool) {base : ℕ} {c : Cursor} (hpos : c.pos = 8 * base) (hzeros : c.zeros = 0) :
    Emulation D base c := by
  refine ⟨by omega, by omega, fun _ => ⟨0, by omega, by omega, fun b _ _ => by omega, fun _ => by omega⟩,
    fun h => ?_, fun b _ _ => by omega⟩
  exact absurd (fun i hi => by omega) h

/-- The counter is at 22 only behind two zero bytes and six zeros. -/
theorem Emulation.at_limit {D : ℕ → Bool} {base : ℕ} {c : Cursor} (h : Emulation D base c) (hz : c.zeros = 22) :
    c.pos % 8 = 6 ∧ ZeroTop D (c.pos / 8) := by
  by_cases hpart : ∀ i < c.pos % 8, D (8 * (c.pos / 8) + i) = false
  · obtain ⟨m, hm, -⟩ := h.run hpart
    have h6 : c.pos % 8 = 6 := by omega
    exact ⟨h6, fun i hi => hpart i (by omega)⟩
  · have := h.tail hpart
    omega

/-- Behind two zero bytes, six zeros take the counter to 22. -/
theorem Emulation.not_low {D : ℕ → Bool} {base : ℕ} {c : Cursor} (h : Emulation D base c) (hz : c.zeros ≠ 22)
    (h6 : c.pos % 8 = 6) (hb : base + 2 ≤ c.pos / 8) (h2 : ZeroByte D (c.pos / 8 - 2)) (h1 : ZeroByte D (c.pos / 8 - 1))
    (h0 : ZeroTop D (c.pos / 8)) : False := by
  obtain ⟨m, hm, -, -, hmax⟩ := h.run fun i hi => h0 i (by omega)
  have hle := h.zeros_le
  rcases (show m = 0 ∨ m = 1 by omega) with rfl | rfl
  · exact hmax (by omega) h1
  · exact hmax (by omega) (by rwa [show c.pos / 8 - 1 - 1 = c.pos / 8 - 2 by omega])

/-- A bit that is not the last one of its byte. -/
theorem Emulation.put_inner {D : ℕ → Bool} {base : ℕ} {c : Cursor} (h : Emulation D base c) (hz : c.zeros ≠ 22)
    (hj : c.pos % 8 < 7) : Emulation D base (c.put (D c.pos)) := by
  have hle := h.zeros_le
  have hbase := h.base_le
  have hdiv : (c.pos + 1) / 8 = c.pos / 8 := by omega
  have hmod : (c.pos + 1) % 8 = c.pos % 8 + 1 := by omega
  have hpos : 8 * (c.pos / 8) + c.pos % 8 = c.pos := Nat.div_add_mod c.pos 8
  have hnext : nextZeros c.zeros (c.pos + 1) (D c.pos) = if D c.pos = true then 0 else c.zeros + 1 := by
    have hlimit : (c.zeros + 1) % POS_LIMIT = c.zeros + 1 := Nat.mod_eq_of_lt (by unfold POS_LIMIT; omega)
    unfold nextZeros
    simp [hmod, hlimit]
  have hsplit : (∀ i < c.pos % 8 + 1, D (8 * (c.pos / 8) + i) = false) ↔
      (∀ i < c.pos % 8, D (8 * (c.pos / 8) + i) = false) ∧ D c.pos = false := by
    refine ⟨fun hp => ⟨fun i hi => hp i (by omega), ?_⟩, fun hp i hi => ?_⟩
    · rw [← hp (c.pos % 8) (by omega), hpos]
    · rcases Nat.lt_succ_iff_lt_or_eq.mp hi with hi | rfl
      · exact hp.1 i hi
      · rw [hpos]
        exact hp.2
  unfold Cursor.put
  rw [hnext]
  refine ⟨by dsimp only; omega, ?_, ?_, ?_, ?_⟩
  · dsimp only
    split <;> omega
  · intro hp
    dsimp only at hp ⊢
    rw [hdiv, hmod] at *
    obtain ⟨hp, hbit⟩ := hsplit.mp hp
    obtain ⟨m, hm, hrest⟩ := h.run hp
    rw [if_neg (by simp [hbit])]
    exact ⟨m, by omega, hrest⟩
  · intro hp
    dsimp only at hp ⊢
    rw [hdiv, hmod] at *
    by_cases hbit : D c.pos = true
    · rw [if_pos hbit]
      omega
    · rw [if_neg hbit]
      have := h.tail fun hp' => hp (hsplit.mpr ⟨hp', Bool.eq_false_iff.mpr hbit⟩)
      omega
  · intro b hb hle' h2 h1 h0
    dsimp only at hle' ⊢
    rcases Nat.lt_or_ge c.pos (8 * b + 7) with hlt | hge
    · obtain rfl : b = c.pos / 8 := by omega
      exact (h.not_low hz (by omega) hb h2 h1 h0).elim
    · obtain ⟨hin, hrest⟩ := h.low b hb hge h2 h1 h0
      exact ⟨by omega, hrest⟩

/-- The last bit of a byte. -/
theorem Emulation.put_last {D : ℕ → Bool} {base : ℕ} {c : Cursor} (h : Emulation D base c) (hz : c.zeros ≠ 22)
    (hj : c.pos % 8 = 7) : Emulation D base (c.put (D c.pos)) := by
  have hle := h.zeros_le
  have hbase := h.base_le
  have hdiv : (c.pos + 1) / 8 = c.pos / 8 + 1 := by omega
  have hmod : (c.pos + 1) % 8 = 0 := by omega
  have hpos : 8 * (c.pos / 8) + 7 = c.pos := by omega
  have hnext : nextZeros c.zeros (c.pos + 1) (D c.pos) = if D c.pos = true ∨ c.zeros < 7 then 0 else c.zeros + 1 := by
    have hlimit : (c.zeros + 1) % POS_LIMIT = c.zeros + 1 := Nat.mod_eq_of_lt (by unfold POS_LIMIT; omega)
    unfold nextZeros
    simp [hmod, hlimit]
  have hsplit : ZeroByte D (c.pos / 8) ↔
      (∀ i < c.pos % 8, D (8 * (c.pos / 8) + i) = false) ∧ D c.pos = false := by
    refine ⟨fun hp => ⟨fun i hi => hp i (by omega), ?_⟩, fun hp i hi => ?_⟩
    · rw [← hp 7 (by omega), hpos]
    · rcases Nat.lt_succ_iff_lt_or_eq.mp hi with hi | rfl
      · exact hp.1 i (by omega)
      · rw [hpos]
        exact hp.2
  unfold Cursor.put
  rw [hnext]
  refine ⟨by dsimp only; omega, ?_, ?_, ?_, ?_⟩
  · dsimp only
    split <;> omega
  · intro _
    dsimp only
    rw [hdiv, hmod]
    by_cases hbyte : ZeroByte D (c.pos / 8)
    · obtain ⟨hp, hbit⟩ := hsplit.mp hbyte
      obtain ⟨m, hm, hbm, hall, hmax⟩ := h.run hp
      rw [if_neg (by simp [hbit]; omega)]
      refine ⟨m + 1, by omega, by omega, fun b hb hlt => ?_, fun hlt => ?_⟩
      · rcases Nat.lt_succ_iff_lt_or_eq.mp hlt with hlt | rfl
        · exact hall b (by omega) hlt
        · exact hbyte
      · rw [show c.pos / 8 + 1 - 1 - (m + 1) = c.pos / 8 - 1 - m by omega]
        exact hmax (by omega)
    · have hzero : D c.pos = true ∨ c.zeros < 7 := by
        by_cases hbit : D c.pos = true
        · exact .inl hbit
        · have := h.tail fun hp => hbyte (hsplit.mpr ⟨hp, Bool.eq_false_iff.mpr hbit⟩)
          exact .inr (by omega)
      rw [if_pos hzero]
      exact ⟨0, by omega, by omega, fun b _ _ => by omega, fun _ => hbyte⟩
  · intro hp
    dsimp only at hp
    rw [hmod] at hp
    exact absurd (fun i hi => absurd hi (Nat.not_lt_zero i)) hp
  · intro b hb hle' h2 h1 h0
    dsimp only at hle' ⊢
    obtain ⟨hin, hrest⟩ := h.low b hb (by omega) h2 h1 h0
    exact ⟨by omega, hrest⟩

/-- **A bit is put.** -/
theorem Emulation.put {D : ℕ → Bool} {base : ℕ} {c : Cursor} (h : Emulation D base c) (hz : c.zeros ≠ 22) :
    Emulation D base (c.put (D c.pos)) := by
  rcases (show c.pos % 8 < 7 ∨ c.pos % 8 = 7 by omega) with hj | hj
  · exact h.put_inner hz hj
  · exact h.put_last hz hj

/-- Zeros are put while the counter is low. -/
theorem Emulation.puts {D : ℕ → Bool} {base : ℕ} {c : Cursor} {bits : List Bool} (h : Emulation D base c)
    (hs : Spells D c.pos bits) (hz : c.zeros + bits.length ≤ 22) : Emulation D base (c.puts bits) := by
  induction bits generalizing c with
  | nil => exact h
  | cons bit bits ih =>
    rw [List.length_cons] at hz
    have hput := h.put (by omega)
    rw [hs.1] at hput
    have hzeros := nextZeros_le c.zeros (c.pos + 1) bit
    exact ih hput hs.2 (by show nextZeros c.zeros (c.pos + 1) bit + bits.length ≤ 22; omega)

/-- **A byte is inserted.** -/
theorem Emulation.next {D : ℕ → Bool} {base : ℕ} {c : Cursor} (h : Emulation D base c)
    (hs : c.zeros = 22 → Spells D c.pos escape) : Emulation D base c.next ∧ c.next.zeros ≠ 22 := by
  unfold Cursor.next
  by_cases hz : c.zeros = 22
  · rw [if_pos hz]
    obtain ⟨h6, htop⟩ := h.at_limit hz
    obtain ⟨hone6, hone7, hspells⟩ := hs hz
    have hbase := h.base_le
    have hpos : c.pos = 8 * (c.pos / 8) + 6 := by omega
    have hbyte : ¬ZeroByte D (c.pos / 8) := fun hb => by
      have := hb 6 (by omega)
      rw [← hpos, hone6] at this
      exact absurd this (by decide)
    -- Behind the two ones, the byte is complete and the counter starts again.
    have hmid : Emulation D base ((c.reset.put true).put true) := by
      have hdiv : (c.pos + 1 + 1) / 8 = c.pos / 8 + 1 := by omega
      have hmod : (c.pos + 1 + 1) % 8 = 0 := by omega
      refine ⟨?_, Nat.zero_le _, fun _ => ⟨0, ?_⟩, fun hp => ?_, fun b hb hle h2 h1 h0 => ?_⟩
      · show 8 * base ≤ c.pos + 1 + 1
        omega
      · show 0 = (c.pos + 1 + 1) % 8 + 8 * 0 ∧ base + 0 ≤ (c.pos + 1 + 1) / 8 ∧
          (∀ b, (c.pos + 1 + 1) / 8 ≤ b + 0 → b < (c.pos + 1 + 1) / 8 → ZeroByte D b) ∧
          (base + 0 < (c.pos + 1 + 1) / 8 → ¬ZeroByte D ((c.pos + 1 + 1) / 8 - 1 - 0))
        rw [hdiv, hmod]
        exact ⟨rfl, by omega, fun b _ _ => by omega, fun _ => hbyte⟩
      · refine absurd (fun i hi => ?_) hp
        change i < (c.pos + 1 + 1) % 8 at hi
        omega
      · change 8 * b + 7 ≤ c.pos + 1 + 1 at hle
        show 8 * b + 8 ≤ c.pos + 1 + 1 ∧ b ∈ c.pos / 8 :: c.inserted ∧ _
        rcases Nat.lt_or_ge c.pos (8 * b + 7) with hlt | hge
        · obtain rfl : b = c.pos / 8 := by omega
          refine ⟨by omega, List.mem_cons_self, ?_, ?_⟩
          · rw [← hpos]
            exact hone6
          · rw [show 8 * (c.pos / 8) + 7 = c.pos + 1 by omega]
            exact hone7
        · obtain ⟨hin, hmem, hrest⟩ := h.low b hb hge h2 h1 h0
          exact ⟨by omega, List.mem_cons_of_mem _ hmem, hrest⟩
    have hmid0 : ((c.reset.put true).put true).zeros = 0 := rfl
    have hsix : Spells D ((c.reset.put true).put true).pos [false, false, false, false, false, false] := hspells
    have hall := hmid.puts hsix (by rw [hmid0]; decide)
    refine ⟨hall, ?_⟩
    have hzeros := Cursor.puts_zeros_le ((c.reset.put true).put true) [false, false, false, false, false, false]
    change (c.reset.puts escape).zeros ≤ 0 + 6 at hzeros
    omega
  · rw [if_neg hz]
    exact ⟨h, hz⟩

/-- **A walk.** -/
theorem Emulation.walk {D : ℕ → Bool} {base : ℕ} {c c' : Cursor} {bits : List Bool} (h : Emulation D base c)
    (hw : Walks D c bits c') : Emulation D base c' := by
  induction bits generalizing c with
  | nil =>
    obtain rfl := hw
    exact h
  | cons bit bits ih =>
    obtain ⟨hesc, hbit, hrest⟩ := hw
    obtain ⟨hnext, hne⟩ := h.next hesc
    have hput := hnext.put hne
    rw [hbit] at hput
    exact ih hput hrest

/-! ## A large enough buffer -/

/-- There is room for `n` more bits, whatever is inserted between them. -/
def Rbsp.Room (r : Rbsp) (n : ℕ) : Prop := r.pos + 9 * n ≤ 8 * r.size

theorem Rbsp.Room.after {r r' : Rbsp} {bits : List Bool} {n : ℕ} (h : r.Room (bits.length + n))
    (hw : Writes r bits r') : r'.Room n := by
  have hpos := hw.walks_self.pos_le
  have hsize := hw.size
  unfold Room at h ⊢
  simp only [Rbsp.cursor] at hpos
  omega

theorem plainWriteBit_room {r : Rbsp} (h : r.pos < 8 * r.size) (v : Bool) : (plainWriteBit r v).2 = 0 := by
  unfold plainWriteBit
  rw [if_neg (by omega)]

theorem writeBitsWith_plain_room {n : ℕ} {r : Rbsp} (value : ℕ) (h : r.pos + n ≤ 8 * r.size)
    (hp : r.pos + n < POS_LIMIT ∨ 8 * r.size < POS_LIMIT) : (writeBitsWith plainWriteBit n value r).2 = 0 := by
  induction n generalizing r with
  | zero => rfl
  | succ n ih =>
    have hw := plainWriteBit_room (r := r) (by omega) (value.testBit n)
    unfold writeBitsWith
    rw [decide_shiftRight]
    rcases hs : plainWriteBit r (value.testBit n) with ⟨s, e⟩
    rw [hs] at hw
    obtain rfl := hw
    obtain ⟨-, hsize, hpos, -⟩ := plainWriteBit_ok hs (by omega)
    exact ih (r := s) (by omega) (by omega)

theorem rbspWriteBit_room {r : Rbsp} (h : r.Room 1) (hf : r.Fits 1) (v : Bool) : (rbspWriteBit r v).2 = 0 := by
  unfold Rbsp.Room at h
  unfold Rbsp.Fits at hf
  unfold rbspWriteBit
  by_cases hz : r.numConsecutiveZeros = 22
  · rw [if_pos hz]
    unfold addEmulationPreventionThreeByte
    generalize hr0 : ({ r with numConsecutiveZeros := 0, inserted := r.pos / 8 :: r.inserted } : Rbsp) = r0
    have hpos0 : r0.pos = r.pos := by rw [← hr0]
    have hsize0 : r0.size = r.size := by rw [← hr0]
    have hroom := writeBitsWith_plain_room (r := r0) (n := 8) EMULATION_PREVENTION_THREE_BYTE (by omega) (by omega)
    rcases hs : writeBitsWith plainWriteBit 8 EMULATION_PREVENTION_THREE_BYTE r0 with ⟨s, e⟩
    rw [hs] at hroom
    obtain rfl := hroom
    have hputs := writeBitsWith_plain_puts hs (by omega)
    have hpos := hputs.pos
    have hsize := hputs.size
    rw [length_msbBits] at hpos
    exact plainWriteBit_room (r := s) (by omega) v
  · rw [if_neg hz]
    exact plainWriteBit_room (by omega) v

theorem writeBitsWith_room {n : ℕ} {r : Rbsp} (value : ℕ) (h : r.Room n) (hf : r.Fits n) :
    (writeBitsWith rbspWriteBit n value r).2 = 0 := by
  induction n generalizing r with
  | zero => rfl
  | succ n ih =>
    have h1 : r.Room ([value.testBit n].length + n) := by rwa [List.length_singleton, Nat.add_comm]
    have hf1 : r.Fits ([value.testBit n].length + n) := by rwa [List.length_singleton, Nat.add_comm]
    have hw := rbspWriteBit_room (by unfold Rbsp.Room at h ⊢; omega) (hf.of_le (by omega)) (value.testBit n)
    unfold writeBitsWith
    rw [decide_shiftRight]
    rcases hs : rbspWriteBit r (value.testBit n) with ⟨s, e⟩
    rw [hs] at hw
    obtain rfl := hw
    have hwrites := rbspWriteBit_writes hs (hf.of_le (by omega))
    exact ih (h1.after hwrites) (hf1.after hwrites)

theorem writeTrailingBits_room {r : Rbsp} (h : r.Room 8) (hf : r.Fits 8) : (writeTrailingBits r).2 = 0 := by
  have hw := rbspWriteBit_room (by unfold Rbsp.Room at h ⊢; omega) (hf.of_le (by omega)) true
  have hwrites := rbspWriteBit_writes (Prod.ext rfl hw) (hf.of_le (by omega))
  have h8 : r.Room ([true].length + 7) := h
  have hf8 : r.Fits ([true].length + 7) := hf
  have h7 : (rbspWriteBit r true).1.Room 7 := h8.after hwrites
  have hf7 : (rbspWriteBit r true).1.Fits 7 := hf8.after hwrites
  unfold writeTrailingBits
  dsimp only
  rw [if_neg (not_not_intro hw)]
  unfold rbspWriteBits
  rw [if_neg (by omega)]
  exact writeBitsWith_room 0 (by unfold Rbsp.Room at h7 ⊢; omega) (hf7.of_le (by omega))

/-! ## Sequences of writes -/

/-- One call of a writer. -/
inductive WriteOp where
  | bit (value : Bool)
  | bits (n value : ℕ)

def WriteOp.write (r : Rbsp) : WriteOp → Rbsp × ℤ
  | .bit value => rbspWriteBit r value
  | .bits n value => rbspWriteBits r n value

/-- The bits that a call is to write. -/
def WriteOp.toBits : WriteOp → List Bool
  | .bit value => [value]
  | .bits n value => msbBits value n

def WriteOp.width : WriteOp → ℕ
  | .bit _ => 1
  | .bits n _ => n

def writeOps : Rbsp → List WriteOp → Rbsp × ℤ
  | r, [] => (r, 0)
  | r, op :: ops =>
    let w := op.write r
    if w.2 ≠ 0 then w else writeOps w.1 ops

theorem WriteOp.length_toBits (op : WriteOp) : op.toBits.length = op.width := by
  cases op with
  | bit value => rfl
  | bits n value => exact length_msbBits value n

theorem WriteOp.write_writes {r r' : Rbsp} {op : WriteOp} (h : op.write r = (r', 0)) (hf : r.Fits op.width) :
    Writes r op.toBits r' := by
  cases op with
  | bit value => exact rbspWriteBit_writes h hf
  | bits n value => exact (rbspWriteBits_writes h hf).2

theorem WriteOp.write_room {r : Rbsp} {op : WriteOp} (h : r.Room op.width) (hf : r.Fits op.width)
    (hw : op.width ≤ 32) : (op.write r).2 = 0 := by
  cases op with
  | bit value => exact rbspWriteBit_room h hf value
  | bits n value =>
    show (rbspWriteBits r n value).2 = 0
    unfold rbspWriteBits
    rw [if_neg (show ¬32 < n from Nat.not_lt.mpr hw)]
    exact writeBitsWith_room value h hf

theorem writeOps_writes {ops : List WriteOp} {r r' : Rbsp} (h : writeOps r ops = (r', 0))
    (hf : r.Fits (ops.flatMap WriteOp.toBits).length) : Writes r (ops.flatMap WriteOp.toBits) r' := by
  induction ops generalizing r with
  | nil =>
    obtain rfl := congrArg Prod.fst h
    exact Writes.refl r
  | cons op ops ih =>
    rw [List.flatMap_cons, List.length_append] at hf
    unfold writeOps at h
    dsimp only at h
    by_cases he : (op.write r).2 = 0
    · rw [if_neg (not_not_intro he)] at h
      have hw := op.write_writes (Prod.ext rfl he) (hf.of_le (by rw [op.length_toBits]; omega))
      exact hw.trans (ih h (hf.after hw))
    · rw [if_pos he] at h
      exact absurd (congrArg Prod.snd h) he

theorem writeOps_room {ops : List WriteOp} {r : Rbsp} (h : r.Room (ops.flatMap WriteOp.toBits).length)
    (hf : r.Fits (ops.flatMap WriteOp.toBits).length) (hw : ∀ op ∈ ops, op.width ≤ 32) : (writeOps r ops).2 = 0 := by
  induction ops generalizing r with
  | nil => rfl
  | cons op ops ih =>
    rw [List.flatMap_cons, List.length_append] at h hf
    have hfop : r.Fits op.width := hf.of_le (by rw [op.length_toBits]; omega)
    have hop := op.write_room (by rw [op.length_toBits] at h; unfold Rbsp.Room at h ⊢; omega) hfop
      (hw op List.mem_cons_self)
    have hwrites := op.write_writes (Prod.ext rfl hop) hfop
    unfold writeOps
    dsimp only
    rw [if_neg (not_not_intro hop)]
    exact ih (h.after hwrites) (hf.after hwrites) fun op' h' => hw op' (List.mem_cons_of_mem op h')

/-! ## The bytes that are written -/

theorem zeroByte_of_eq {data : ℕ → UInt8} {b : ℕ} (h : data b = 0) : ZeroByte (bitAt data) b := by
  intro i hi
  unfold bitAt
  rw [show (8 * b + i) / 8 = b by omega, h, getBit_eq _ (by omega)]
  simp

/-- The bits of a byte below 4. -/
theorem low_byte {data : ℕ → UInt8} {b : ℕ} (h : data b = 0 ∨ data b = 1 ∨ data b = 2 ∨ data b = 3) :
    ZeroTop (bitAt data) b ∧ (bitAt data (8 * b + 6) = true → bitAt data (8 * b + 7) = true → data b = 3) := by
  have hbit : ∀ i < 8, bitAt data (8 * b + i) = getBit (data b) (7 - i) := fun i hi => by
    unfold bitAt
    rw [show (8 * b + i) / 8 = b by omega, show (8 * b + i) % 8 = i by omega]
  refine ⟨fun i hi => ?_, fun h6 h7 => ?_⟩
  · rw [hbit i (by omega)]
    rcases h with h | h | h | h <;> rw [h] <;> interval_cases i <;> rfl
  · rw [hbit 6 (by omega)] at h6
    rw [hbit 7 (by omega)] at h7
    rcases h with h | h | h | h
    · rw [h] at h6
      exact absurd h6 (by decide)
    · rw [h] at h6
      exact absurd h6 (by decide)
    · rw [h] at h7
      exact absurd h7 (by decide)
    · exact h

/-- A byte below 4 behind two zero bytes is an inserted 3. -/
theorem Emulation.byte {data : ℕ → UInt8} {base i : ℕ} {c : Cursor} (h : Emulation (bitAt data) base c) (hi : base ≤ i)
    (hin : 8 * (i + 2) + 7 ≤ c.pos) (h0 : data i = 0) (h1 : data (i + 1) = 0)
    (hlow : data (i + 2) = 0 ∨ data (i + 2) = 1 ∨ data (i + 2) = 2 ∨ data (i + 2) = 3) :
    data (i + 2) = 3 ∧ i + 2 ∈ c.inserted := by
  obtain ⟨htop, hthree⟩ := low_byte hlow
  obtain ⟨-, hmem, h6, h7⟩ := h.low (i + 2) (by omega) hin (zeroByte_of_eq h0) (zeroByte_of_eq h1) htop
  exact ⟨hthree h6 h7, hmem⟩

/-- **The bytes that are written.**  The bits are read back as they were written.  `Fits` is what a buffer that is large
enough means for a position of 32 bits: the position does not wrap around in it, whatever its size. -/
theorem emulationPrevention {r : Rbsp} (hpos : r.pos % 8 = 0) (hzeros : r.numConsecutiveZeros = 0)
    (_hins : r.inserted = []) (ops : List WriteOp) (hfits : r.Fits ((ops.flatMap WriteOp.toBits).length + 8)) :
    ((∀ op ∈ ops, op.width ≤ 32) → r.Room ((ops.flatMap WriteOp.toBits).length + 8) →
      (writeOps r ops).2 = 0 ∧ (writeTrailingBits (writeOps r ops).1).2 = 0) ∧
    ∀ w w', writeOps r ops = (w, 0) → writeTrailingBits w = (w', 0) →
      w'.pos % 8 = 0 ∧
      (∀ i, r.pos / 8 ≤ i → i + 2 < w'.pos / 8 → w'.data i = 0 → w'.data (i + 1) = 0 →
        w'.data (i + 2) ≠ 0 ∧ w'.data (i + 2) ≠ 1 ∧ w'.data (i + 2) ≠ 2 ∧
          (w'.data (i + 2) = 3 → i + 2 ∈ w'.inserted)) ∧
      ∃ k < 8, readBitList ((ops.flatMap WriteOp.toBits).length + (1 + k)) { r with data := w'.data } =
        ({ r with data := w'.data, pos := w'.pos, numConsecutiveZeros := w'.numConsecutiveZeros },
          .ok (ops.flatMap WriteOp.toBits ++ true :: List.replicate k false)) := by
  constructor
  · intro hw hroom
    have hok := writeOps_room (by unfold Rbsp.Room at hroom ⊢; omega) (hfits.of_le (by omega)) hw
    have hwrites := writeOps_writes (Prod.ext rfl hok) (hfits.of_le (by omega))
    exact ⟨hok, writeTrailingBits_room (hroom.after hwrites) (hfits.after hwrites)⟩
  · intro w w' hw hw'
    have hops := writeOps_writes hw (hfits.of_le (by omega))
    obtain ⟨k, hk, htrail, hend⟩ := writeTrailingBits_writes hw' (hfits.after hops)
    have hall := hops.trans htrail
    have hwalk := hall.walks_self
    have hstart : Emulation (bitAt w'.data) (r.pos / 8) r.cursor :=
      Emulation.start _ (show r.pos = 8 * (r.pos / 8) by omega) hzeros
    have hemu := hstart.walk hwalk
    refine ⟨hend, fun i hi hin h0 h1 => ?_, k, hk, ?_⟩
    · have hlow := hemu.byte hi (by show 8 * (i + 2) + 7 ≤ w'.pos; omega) h0 h1
      refine ⟨fun h => ?_, fun h => ?_, fun h => ?_, fun h => (hlow (.inr (.inr (.inr h)))).2⟩
      · exact absurd (h.symm.trans (hlow (.inl h)).1) (by decide)
      · exact absurd (h.symm.trans (hlow (.inr (.inl h))).1) (by decide)
      · exact absurd (h.symm.trans (hlow (.inr (.inr (.inl h)))).1) (by decide)
    · have hle := hwalk.pos_le
      have hinside := hall.inside
      have hlim := hfits
      unfold Rbsp.Fits at hlim
      have hlen : (ops.flatMap WriteOp.toBits ++ true :: List.replicate k false).length =
          (ops.flatMap WriteOp.toBits).length + (1 + k) := by
        rw [List.length_append, List.length_cons, List.length_replicate, Nat.add_comm k]
      rw [hlen] at hle
      change r.pos + _ ≤ w'.pos ∧ w'.pos ≤ r.pos + _ at hle
      have hread := readBitList_eq (r := { r with data := w'.data }) hwalk
        (by show w'.pos ≤ 8 * r.size; omega) (by show w'.pos < POS_LIMIT; omega)
      rw [hlen] at hread
      exact hread

/-- A buffer that was just handed to `rbsp_init`. -/
def zeroBuffer (size : ℕ) : Rbsp := ⟨fun _ => 0, size, 0, 0, []⟩

theorem emulationPrevention_zeros : ∃ w w', writeOps (zeroBuffer 64) [.bits 32 0, .bit true] = (w, 0) ∧
    writeTrailingBits w = (w', 0) ∧ w'.pos % 8 = 0 ∧ ∃ k < 8,
      (readBitList (33 + (1 + k)) { zeroBuffer 64 with data := w'.data }).2 =
        .ok (List.replicate 32 false ++ true :: true :: List.replicate k false) := by
  obtain ⟨hroom, h⟩ := emulationPrevention (r := zeroBuffer 64) rfl rfl rfl [.bits 32 0, .bit true] (.inl (by decide))
  obtain ⟨hw, hw'⟩ := hroom (by decide) (show 0 + 9 * (33 + 8) ≤ 8 * 64 by decide)
  obtain ⟨hend, -, k, hk, hread⟩ := h _ _ (Prod.ext rfl hw) (Prod.ext rfl hw')
  exact ⟨_, _, Prod.ext rfl hw, Prod.ext rfl hw', hend, k, hk, congrArg Prod.snd hread⟩

end Allegro
end TbsMedia
