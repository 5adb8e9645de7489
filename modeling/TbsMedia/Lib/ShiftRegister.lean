import Mathlib.Data.Nat.Bitwise

/-!
# Shift registers

A serial receiver shifts the bits of a word into a register, the first bit up to the top.  Which bit of the
register is which bit of the word depends on the order of the transmission: a word that is sent with its
lowest bit first comes out reversed.

* `msbBits`, `lsbBits`: the bits of a word in the two orders.
* `testBit_shiftAll_msb`, `testBit_shiftAll_lsb`: what is in the register behind them.
* `bitrev`, `testBit_bitrev`: a word read from the other end.
-/

namespace TbsMedia
namespace Lib

/-! ## Bits in order -/

/-- The `n` low bits of a word, the highest first. -/
def msbBits (x : ℕ) : ℕ → List Bool
  | 0 => []
  | n + 1 => x.testBit n :: msbBits x n

/-- The `n` low bits of a word, the lowest first. -/
def lsbBits : ℕ → ℕ → List Bool
  | _, 0 => []
  | x, n + 1 => x.testBit 0 :: lsbBits (x >>> 1) n

@[simp] theorem length_msbBits (x n : ℕ) : (msbBits x n).length = n := by
  induction n with
  | zero => rfl
  | succ n ih => exact congrArg (· + 1) ih

@[simp] theorem length_lsbBits (x n : ℕ) : (lsbBits x n).length = n := by
  induction n generalizing x with
  | zero => rfl
  | succ n ih => exact congrArg (· + 1) (ih _)

theorem lsbBits_eq (x n : ℕ) : lsbBits x n = (List.range n).map x.testBit := by
  induction n generalizing x with
  | zero => rfl
  | succ n ih =>
    rw [lsbBits, ih, List.range_succ_eq_map, List.map_cons, List.map_map]
    refine congrArg _ (List.map_congr_left fun i _ => ?_)
    rw [Nat.testBit_shiftRight, Nat.add_comm]
    rfl

theorem msbBits_eq (x n : ℕ) : msbBits x n = (List.range n).map fun i => x.testBit (n - 1 - i) := by
  induction n with
  | zero => rfl
  | succ n ih =>
    rw [msbBits, ih, List.range_succ_eq_map, List.map_cons, List.map_map]
    refine congrArg _ (List.map_congr_left fun i _ => congrArg x.testBit ?_)
    omega

/-- Only the low bits are sent. -/
theorem msbBits_congr {x y n : ℕ} (h : ∀ i < n, x.testBit i = y.testBit i) : msbBits x n = msbBits y n := by
  induction n with
  | zero => rfl
  | succ n ih => rw [msbBits, msbBits, h n (Nat.lt_succ_self n), ih fun i hi => h i (Nat.lt_succ_of_lt hi)]

/-- Two words that are sent one after the other are one word. -/
theorem msbBits_append (x : ℕ) {y n : ℕ} (hy : y < 2 ^ n) (k : ℕ) :
    msbBits x k ++ msbBits y n = msbBits (x <<< n ||| y) (k + n) := by
  induction k with
  | zero =>
    rw [msbBits, List.nil_append, Nat.zero_add]
    refine msbBits_congr fun i hi => ?_
    rw [Nat.testBit_or, Nat.testBit_shiftLeft, decide_eq_false (show ¬i ≥ n by omega), Bool.false_and,
      Bool.false_or]
  | succ k ih =>
    rw [Nat.add_right_comm, msbBits, msbBits, List.cons_append, ih, Nat.testBit_or, Nat.testBit_shiftLeft,
      decide_eq_true (Nat.le_add_left n k), Bool.true_and, Nat.add_sub_cancel,
      Nat.testBit_lt_two_pow (hy.trans_le (Nat.pow_le_pow_right (by decide) (Nat.le_add_left n k))),
      Bool.or_false]

/-! ## The register -/

/-- One bit shifted into a register of `w` bits. -/
def shiftIn (w v : ℕ) (b : Bool) : ℕ := (v <<< 1) % 2 ^ w ||| b.toNat

/-- A list of bits shifted in, one after the other. -/
def shiftAll (w v : ℕ) (bs : List Bool) : ℕ := bs.foldl (shiftIn w) v

@[simp] theorem shiftAll_cons (w v : ℕ) (b : Bool) (bs : List Bool) :
    shiftAll w v (b :: bs) = shiftAll w (shiftIn w v b) bs := rfl

theorem shiftAll_append (w v : ℕ) (bs bs' : List Bool) :
    shiftAll w v (bs ++ bs') = shiftAll w (shiftAll w v bs) bs' :=
  List.foldl_append

/-- The new bit is the lowest, and the others have moved up. -/
theorem testBit_shiftIn {w i : ℕ} (v : ℕ) (b : Bool) (hi : i < w) :
    (shiftIn w v b).testBit i = if i = 0 then b else v.testBit (i - 1) := by
  unfold shiftIn
  rw [Nat.testBit_or, Nat.testBit_mod_two_pow, Nat.testBit_shiftLeft, Nat.testBit_bool_toNat,
    decide_eq_true hi, Bool.true_and]
  by_cases h : i = 0
  · subst h
    simp
  · have hle : 1 ≤ i := Nat.one_le_iff_ne_zero.2 h
    rw [if_neg h, decide_eq_false h, decide_eq_true (show i ≥ 1 from hle), Bool.true_and, Bool.false_and,
      Bool.or_false]

/-- **The register holds the last bits that have been sent.** -/
theorem testBit_shiftAll_map {w n i : ℕ} (v : ℕ) (f : ℕ → Bool) (hn : i < n) (hw : i < w) :
    (shiftAll w v ((List.range n).map f)).testBit i = f (n - 1 - i) := by
  induction n generalizing i with
  | zero => omega
  | succ n ih =>
    rw [List.range_succ, List.map_append, shiftAll_append]
    change (shiftIn w _ (f n)).testBit i = _
    rw [testBit_shiftIn _ _ hw]
    by_cases h : i = 0
    · subst h
      rfl
    · rw [if_neg h, ih (by omega) (by omega)]
      exact congrArg f (by omega)

/-- A word that is sent with its highest bit first. -/
theorem testBit_shiftAll_msb {w n i : ℕ} (v x : ℕ) (hn : i < n) (hw : i < w) :
    (shiftAll w v (msbBits x n)).testBit i = x.testBit i := by
  rw [msbBits_eq, testBit_shiftAll_map v _ hn hw]
  exact congrArg x.testBit (by omega)

/-- A word that is sent with its lowest bit first. -/
theorem testBit_shiftAll_lsb {w n i : ℕ} (v x : ℕ) (hn : i < n) (hw : i < w) :
    (shiftAll w v (lsbBits x n)).testBit i = x.testBit (n - 1 - i) := by
  rw [lsbBits_eq, testBit_shiftAll_map v _ hn hw]

/-! ## Reversal -/

/-- The `n` low bits of a word in reverse order. -/
def bitrev : ℕ → ℕ → ℕ
  | 0, _ => 0
  | n + 1, x => (x.testBit 0).toNat <<< n ||| bitrev n (x >>> 1)

theorem testBit_bitrev (n x i : ℕ) :
    (bitrev n x).testBit i = (decide (i < n) && x.testBit (n - 1 - i)) := by
  induction n generalizing x with
  | zero => rw [bitrev, Nat.zero_testBit, decide_eq_false (Nat.not_lt_zero i), Bool.false_and]
  | succ n ih =>
    rw [bitrev, Nat.testBit_or, ih, Nat.testBit_shiftLeft, Nat.testBit_bool_toNat, Nat.testBit_shiftRight]
    rcases Nat.lt_trichotomy i n with h | h | h
    · rw [decide_eq_false (show ¬i ≥ n by omega), decide_eq_true h, decide_eq_true (by omega : i < n + 1),
        Bool.false_and, Bool.false_or, Bool.true_and, Bool.true_and]
      exact congrArg x.testBit (by omega)
    · subst h
      simp
    · rw [decide_eq_false (show ¬i - n = 0 by omega), decide_eq_false (by omega : ¬i < n),
        decide_eq_false (by omega : ¬i < n + 1), Bool.false_and, Bool.false_and, Bool.false_and,
        Bool.and_false, Bool.or_false]

theorem bitrev_lt (n x : ℕ) : bitrev n x < 2 ^ n :=
  Nat.lt_pow_two_of_testBit _ fun i hi => by
    rw [testBit_bitrev, decide_eq_false (Nat.not_lt.2 hi), Bool.false_and]

theorem bitrev_xor (n x y : ℕ) : bitrev n (x ^^^ y) = bitrev n x ^^^ bitrev n y := by
  refine Nat.eq_of_testBit_eq fun i => ?_
  rw [Nat.testBit_xor, testBit_bitrev, testBit_bitrev, testBit_bitrev, Nat.testBit_xor]
  cases decide (i < n) <;> rfl

/-- A word that is reversed twice is its low bits. -/
theorem bitrev_bitrev (n x : ℕ) : bitrev n (bitrev n x) = x % 2 ^ n := by
  refine Nat.eq_of_testBit_eq fun i => ?_
  rw [testBit_bitrev, testBit_bitrev, Nat.testBit_mod_two_pow]
  by_cases h : i < n
  · rw [decide_eq_true h, decide_eq_true (by omega : n - 1 - i < n), Bool.true_and, Bool.true_and]
    exact congrArg (true && x.testBit ·) (by omega)
  · rw [decide_eq_false h, Bool.false_and, Bool.false_and]

/-- A word at the upper end of a field is reversed to the lower end. -/
theorem bitrev_shiftLeft (k j x : ℕ) : bitrev (k + j) (x <<< j) = bitrev k x := by
  refine Nat.eq_of_testBit_eq fun i => ?_
  rw [testBit_bitrev, testBit_bitrev, Nat.testBit_shiftLeft]
  by_cases h : i < k
  · rw [decide_eq_true h, decide_eq_true (by omega : i < k + j),
      decide_eq_true (show k + j - 1 - i ≥ j by omega), Bool.true_and, Bool.true_and, Bool.true_and]
    exact congrArg x.testBit (by omega)
  · rw [decide_eq_false h, Bool.false_and]
    by_cases h' : i < k + j
    · rw [decide_eq_false (show ¬k + j - 1 - i ≥ j by omega), Bool.false_and, Bool.and_false]
    · rw [decide_eq_false h', Bool.false_and]

/-- A word that leaves the upper end of a field empty is reversed to the upper end. -/
theorem bitrev_of_lt {k x : ℕ} (j : ℕ) (h : x < 2 ^ k) : bitrev (k + j) x = bitrev k x <<< j := by
  refine Nat.eq_of_testBit_eq fun i => ?_
  rw [testBit_bitrev, Nat.testBit_shiftLeft, testBit_bitrev]
  by_cases hj : j ≤ i
  · rw [decide_eq_true (show i ≥ j from hj), Bool.true_and]
    by_cases hi : i < k + j
    · rw [decide_eq_true hi, decide_eq_true (by omega : i - j < k)]
      exact congrArg (true && x.testBit ·) (by omega)
    · rw [decide_eq_false hi, decide_eq_false (by omega : ¬i - j < k), Bool.false_and, Bool.false_and]
  · rw [decide_eq_false (show ¬i ≥ j from hj), Bool.false_and]
    have hzero : x.testBit (k + j - 1 - i) = false :=
      Nat.testBit_lt_two_pow (h.trans_le (Nat.pow_le_pow_right (by decide) (by omega)))
    rw [hzero, Bool.and_false]

/-- **A field of a word that is sent with its lowest bit first** is found reversed, from the other end. -/
theorem bitrev_shiftAll_lsb {w n s k : ℕ} (v x : ℕ) (hs : s + k ≤ n) (hw : n ≤ w) :
    bitrev k ((shiftAll w v (lsbBits x n) >>> s) % 2 ^ k) = (x >>> (n - (s + k))) % 2 ^ k := by
  refine Nat.eq_of_testBit_eq fun i => ?_
  rw [testBit_bitrev, Nat.testBit_mod_two_pow, Nat.testBit_mod_two_pow, Nat.testBit_shiftRight,
    Nat.testBit_shiftRight]
  by_cases h : i < k
  · rw [testBit_shiftAll_lsb v x (by omega) (by omega), decide_eq_true (by omega : k - 1 - i < k)]
    exact congrArg (decide (i < k) && x.testBit ·) (by omega)
  · rw [decide_eq_false h, Bool.false_and, Bool.false_and]

/-- **A field of a word that is sent with its highest bit first** is found where it was. -/
theorem shiftAll_msb_field {w n s k : ℕ} (v x : ℕ) (hs : s + k ≤ n) (hw : n ≤ w) :
    (shiftAll w v (msbBits x n) >>> s) % 2 ^ k = (x >>> s) % 2 ^ k := by
  refine Nat.eq_of_testBit_eq fun i => ?_
  rw [Nat.testBit_mod_two_pow, Nat.testBit_mod_two_pow, Nat.testBit_shiftRight, Nat.testBit_shiftRight]
  by_cases h : i < k
  · rw [testBit_shiftAll_msb v x (by omega) (by omega)]
  · rw [decide_eq_false h, Bool.false_and, Bool.false_and]

end Lib
end TbsMedia
