import Mathlib
import TbsMedia.Lib.Interpolation

/-!
# The logarithm in fixed point

`intlog2` of `dvb_math.c` looks the logarithm of the significand up in a table of 256 entries and
interpolates, and `intlog10` scales the result.

* `intlog2`, `intlog10`: the code, with what its 32-bit types hold.
* `Exact`: no operation of `intlog2` overflows.
* `intlog2_eq`: the position of the highest bit, and an interpolation of the rest.
* `intlog_spec`: no overflow, monotone, exact on powers of two, and one more for twice the argument.
-/

namespace TbsMedia
namespace DvbMath

open Lib

/-! ## The code -/

/-- The table `logtable`. -/
def logtable : List ℕ :=
  [0x0000, 0x0171, 0x02e0, 0x044e, 0x05ba, 0x0725, 0x088e, 0x09f7,
   0x0b5d, 0x0cc3, 0x0e27, 0x0f8a, 0x10eb, 0x124b, 0x13aa, 0x1508,
   0x1664, 0x17bf, 0x1919, 0x1a71, 0x1bc8, 0x1d1e, 0x1e73, 0x1fc6,
   0x2119, 0x226a, 0x23ba, 0x2508, 0x2656, 0x27a2, 0x28ed, 0x2a37,
   0x2b80, 0x2cc8, 0x2e0f, 0x2f54, 0x3098, 0x31dc, 0x331e, 0x345f,
   0x359f, 0x36de, 0x381b, 0x3958, 0x3a94, 0x3bce, 0x3d08, 0x3e41,
   0x3f78, 0x40af, 0x41e4, 0x4319, 0x444c, 0x457f, 0x46b0, 0x47e1,
   0x4910, 0x4a3f, 0x4b6c, 0x4c99, 0x4dc5, 0x4eef, 0x5019, 0x5142,
   0x526a, 0x5391, 0x54b7, 0x55dc, 0x5700, 0x5824, 0x5946, 0x5a68,
   0x5b89, 0x5ca8, 0x5dc7, 0x5ee5, 0x6003, 0x611f, 0x623a, 0x6355,
   0x646f, 0x6588, 0x66a0, 0x67b7, 0x68ce, 0x69e4, 0x6af8, 0x6c0c,
   0x6d20, 0x6e32, 0x6f44, 0x7055, 0x7165, 0x7274, 0x7383, 0x7490,
   0x759d, 0x76aa, 0x77b5, 0x78c0, 0x79ca, 0x7ad3, 0x7bdb, 0x7ce3,
   0x7dea, 0x7ef0, 0x7ff6, 0x80fb, 0x81ff, 0x8302, 0x8405, 0x8507,
   0x8608, 0x8709, 0x8809, 0x8908, 0x8a06, 0x8b04, 0x8c01, 0x8cfe,
   0x8dfa, 0x8ef5, 0x8fef, 0x90e9, 0x91e2, 0x92db, 0x93d2, 0x94ca,
   0x95c0, 0x96b6, 0x97ab, 0x98a0, 0x9994, 0x9a87, 0x9b7a, 0x9c6c,
   0x9d5e, 0x9e4f, 0x9f3f, 0xa02e, 0xa11e, 0xa20c, 0xa2fa, 0xa3e7,
   0xa4d4, 0xa5c0, 0xa6ab, 0xa796, 0xa881, 0xa96a, 0xaa53, 0xab3c,
   0xac24, 0xad0c, 0xadf2, 0xaed9, 0xafbe, 0xb0a4, 0xb188, 0xb26c,
   0xb350, 0xb433, 0xb515, 0xb5f7, 0xb6d9, 0xb7ba, 0xb89a, 0xb97a,
   0xba59, 0xbb38, 0xbc16, 0xbcf4, 0xbdd1, 0xbead, 0xbf8a, 0xc065,
   0xc140, 0xc21b, 0xc2f5, 0xc3cf, 0xc4a8, 0xc580, 0xc658, 0xc730,
   0xc807, 0xc8de, 0xc9b4, 0xca8a, 0xcb5f, 0xcc34, 0xcd08, 0xcddc,
   0xceaf, 0xcf82, 0xd054, 0xd126, 0xd1f7, 0xd2c8, 0xd399, 0xd469,
   0xd538, 0xd607, 0xd6d6, 0xd7a4, 0xd872, 0xd93f, 0xda0c, 0xdad9,
   0xdba5, 0xdc70, 0xdd3b, 0xde06, 0xded0, 0xdf9a, 0xe063, 0xe12c,
   0xe1f5, 0xe2bd, 0xe385, 0xe44c, 0xe513, 0xe5d9, 0xe69f, 0xe765,
   0xe82a, 0xe8ef, 0xe9b3, 0xea77, 0xeb3b, 0xebfe, 0xecc1, 0xed83,
   0xee45, 0xef06, 0xefc8, 0xf088, 0xf149, 0xf209, 0xf2c8, 0xf387,
   0xf446, 0xf505, 0xf5c3, 0xf680, 0xf73e, 0xf7fb, 0xf8b7, 0xf973,
   0xfa2f, 0xfaea, 0xfba5, 0xfc60, 0xfd1a, 0xfdd4, 0xfe8e, 0xff47]

/-- `logtable[i]`. -/
def logentry (i : ℕ) : ℕ := logtable.getD i 0

/-- The position of the highest bit that is set, counted from one. -/
def fls (x : ℕ) : ℕ := if x = 0 then 0 else Nat.log2 x + 1

/-- What a variable of type `u32` holds after a store. -/
def u32 (v : ℕ) : ℕ := v % 2 ^ 32

def msb (value : ℕ) : ℕ := fls value - 1

/-- `value << (31 - msb)`, before it is stored. -/
def shifted (value : ℕ) : ℕ := value <<< (31 - msb value)

def significand (value : ℕ) : ℕ := u32 (shifted value)

/-- The index in the table. -/
def logindex (value : ℕ) : ℕ := (significand value >>> 23) &&& 0xff

/-- `(logtable[(logentry + 1) & 0xff] - logtable[logentry]) & 0xffff`. -/
def difference (i : ℕ) : ℕ := (((logentry ((i + 1) &&& 0xff) : ℤ) - logentry i) % 65536).toNat

/-- The product that is shifted for the interpolation. -/
def product (value : ℕ) : ℕ := (significand value &&& 0x7fffff) * difference (logindex value)

def interpolation (value : ℕ) : ℕ := u32 (product value) >>> 15

/-- The sum that is returned. -/
def logsum (value : ℕ) : ℕ := msb value <<< 24 + logentry (logindex value) <<< 8 + interpolation value

def intlog2 (value : ℕ) : ℕ := if value = 0 then 0 else u32 (logsum value)

/-- The product is of type `u64`. -/
def intlog10 (value : ℕ) : ℕ :=
  if value = 0 then 0 else u32 ((intlog2 value * 646456993 % 2 ^ 64) >>> 31)

/-- No operation of `intlog2` overflows. -/
structure Exact (value : ℕ) : Prop where
  shifted : shifted value < 2 ^ 32
  product : product value < 2 ^ 32
  logsum : logsum value < 2 ^ 32

/-! ## The table -/

/-- The table with the value behind its end. -/
def table (i : ℕ) : ℕ := if i < 256 then logentry i else 0x10000

theorem table_of_lt {i : ℕ} (hi : i < 256) : table i = logentry i := if_pos hi

theorem table_of_ge {i : ℕ} (hi : 256 ≤ i) : table i = 0x10000 := if_neg (by omega)

theorem table_check : (List.range 256).all (fun i =>
    table i < table (i + 1) && difference i == table (i + 1) - table i && difference i ≤ 369) = true := by
  decide +kernel

/-- The correction behind the last entry makes the table go on. -/
theorem table_spec {i : ℕ} (hi : i < 256) :
    table i < table (i + 1) ∧ difference i = table (i + 1) - table i ∧ difference i ≤ 369 := by
  have h := List.all_eq_true.mp table_check i (List.mem_range.mpr hi)
  simp only [Bool.and_eq_true, decide_eq_true_eq, beq_iff_eq] at h
  exact ⟨h.1.1, h.1.2, h.2⟩

theorem table_mono : Monotone table := by
  refine monotone_nat_of_le_succ fun i => ?_
  by_cases hi : i < 256
  · exact (table_spec hi).1.le
  · rw [table_of_ge (by omega), table_of_ge (by omega)]

theorem table_le (i : ℕ) : table i ≤ 0x10000 := by
  have hle := table_mono (Nat.le_max_left i 256)
  rwa [table_of_ge (Nat.le_max_right i 256)] at hle

/-! ## The parts of a value -/

variable {v v' : ℕ}

theorem msb_eq (hv : 1 ≤ v) : msb v = Nat.log 2 v := by
  unfold msb fls
  rw [if_neg (by omega), Nat.log2_eq_log_two, Nat.add_sub_cancel]

theorem msb_le (hv : 1 ≤ v) (h : v < 2 ^ 32) : msb v ≤ 31 := by
  rw [msb_eq hv]
  exact Nat.lt_succ_iff.mp (Nat.log_lt_of_lt_pow (by omega) h)

theorem shifted_eq (v : ℕ) : shifted v = v * 2 ^ (31 - msb v) := Nat.shiftLeft_eq ..

/-- The highest bit is moved to the top. -/
theorem shifted_bounds (hv : 1 ≤ v) (h : v < 2 ^ 32) : 2 ^ 31 ≤ shifted v ∧ shifted v < 2 ^ 32 := by
  have hmsb := msb_le hv h
  have hlow : 2 ^ msb v ≤ v := by
    rw [msb_eq hv]
    exact Nat.pow_log_le_self 2 (by omega)
  have hhigh : v < 2 ^ (msb v + 1) := by
    rw [msb_eq hv]
    exact Nat.lt_pow_succ_log_self (by decide) v
  rw [shifted_eq]
  constructor
  · calc 2 ^ 31 = 2 ^ msb v * 2 ^ (31 - msb v) := by rw [← pow_add, Nat.add_sub_cancel' hmsb]
      _ ≤ v * 2 ^ (31 - msb v) := Nat.mul_le_mul_right _ hlow
  · calc v * 2 ^ (31 - msb v) < 2 ^ (msb v + 1) * 2 ^ (31 - msb v) :=
        (Nat.mul_lt_mul_right (Nat.two_pow_pos _)).mpr hhigh
      _ = 2 ^ 32 := by
        rw [← pow_add]
        exact congrArg _ (by omega)

/-- The significand without its highest bit. -/
def fraction (v : ℕ) : ℕ := shifted v - 2 ^ 31

theorem significand_eq (hv : 1 ≤ v) (h : v < 2 ^ 32) : significand v = 2 ^ 31 + fraction v := by
  obtain ⟨hlow, hhigh⟩ := shifted_bounds hv h
  unfold significand u32 fraction
  rw [Nat.mod_eq_of_lt hhigh]
  omega

theorem fraction_lt (hv : 1 ≤ v) (h : v < 2 ^ 32) : fraction v < 2 ^ 31 := by
  have hb := shifted_bounds hv h
  unfold fraction
  omega

theorem logindex_eq (hv : 1 ≤ v) (h : v < 2 ^ 32) : logindex v = fraction v / 2 ^ 23 := by
  have hlt := fraction_lt hv h
  have hmask : ∀ x : ℕ, x &&& 0xff = x % 2 ^ 8 := fun x => Nat.and_two_pow_sub_one_eq_mod x 8
  unfold logindex
  rw [significand_eq hv h, Nat.shiftRight_eq_div_pow, hmask]
  omega

theorem remainder_eq (hv : 1 ≤ v) (h : v < 2 ^ 32) :
    significand v &&& 0x7fffff = fraction v % 2 ^ 23 := by
  have hmask : ∀ x : ℕ, x &&& 0x7fffff = x % 2 ^ 23 := fun x => Nat.and_two_pow_sub_one_eq_mod x 23
  rw [significand_eq hv h, hmask]
  omega

theorem logindex_lt (hv : 1 ≤ v) (h : v < 2 ^ 32) : logindex v < 256 := by
  have hlt := fraction_lt hv h
  rw [logindex_eq hv h]
  omega

/-- The product fits, as neighbours in the table are no more than 369 apart. -/
theorem product_lt (hv : 1 ≤ v) (h : v < 2 ^ 32) : product v < 2 ^ 32 := by
  have hdiff := (table_spec (logindex_lt hv h)).2.2
  have hrest := Nat.mod_lt (fraction v) (Nat.two_pow_pos 23)
  unfold product
  rw [remainder_eq hv h]
  calc fraction v % 2 ^ 23 * difference (logindex v) ≤ 2 ^ 23 * 369 := Nat.mul_le_mul hrest.le hdiff
    _ < 2 ^ 32 := by norm_num

/-- **The sum** is the position of the highest bit, and an interpolation of the rest. -/
theorem logsum_eq (hv : 1 ≤ v) (h : v < 2 ^ 32) :
    logsum v = msb v * 2 ^ 24 + interpolate table (2 ^ 15) (2 ^ 8) (fraction v) := by
  have hlt := logindex_lt hv h
  have hentry := table_of_lt hlt
  have hdiff := (table_spec hlt).2.1
  unfold logsum interpolation u32 interpolate
  rw [Nat.mod_eq_of_lt (product_lt hv h), Nat.shiftLeft_eq, Nat.shiftLeft_eq, Nat.shiftRight_eq_div_pow, product,
    remainder_eq hv h, hdiff, ← hentry, logindex_eq hv h, ← pow_add, Nat.add_assoc]

/-- What is interpolated stays in front of the next power of two. -/
theorem fraction_log_lt (hv : 1 ≤ v) (h : v < 2 ^ 32) :
    interpolate table (2 ^ 15) (2 ^ 8) (fraction v) < 2 ^ 24 := by
  have hstrict := (table_spec (logindex_lt hv h)).1
  rw [logindex_eq hv h] at hstrict
  have hlt := @interpolate_lt table (2 ^ 15) (2 ^ 8) (fraction v) (by norm_num) hstrict
  exact hlt.trans_le ((Nat.mul_le_mul_right _ (table_le _)).trans (by norm_num))

/-- **No operation overflows.** -/
theorem exact_of_pos (hv : 1 ≤ v) (h : v < 2 ^ 32) : Exact v := by
  refine ⟨(shifted_bounds hv h).2, product_lt hv h, ?_⟩
  have hmsb := msb_le hv h
  have hlog := fraction_log_lt hv h
  rw [logsum_eq hv h]
  omega

/-! ## The results -/

theorem intlog2_eq (hv : 1 ≤ v) (h : v < 2 ^ 32) :
    intlog2 v = msb v * 2 ^ 24 + interpolate table (2 ^ 15) (2 ^ 8) (fraction v) := by
  unfold intlog2 u32
  rw [if_neg (by omega), Nat.mod_eq_of_lt (exact_of_pos hv h).logsum, logsum_eq hv h]

theorem intlog2_lt (hv : 1 ≤ v) (h : v < 2 ^ 32) : intlog2 v < 2 ^ 29 := by
  have hmsb := msb_le hv h
  have hlog := fraction_log_lt hv h
  rw [intlog2_eq hv h]
  omega

/-- **The logarithm is monotone.**  It is so between two powers of two, and does not pass the next one. -/
theorem intlog2_mono (hv : 1 ≤ v) (hle : v ≤ v') (h : v' < 2 ^ 32) : intlog2 v ≤ intlog2 v' := by
  have hv' : 1 ≤ v' := hv.trans hle
  have hlt : v < 2 ^ 32 := hle.trans_lt h
  have hmsb : msb v ≤ msb v' := by
    rw [msb_eq hv, msb_eq hv']
    exact Nat.log_mono_right hle
  rw [intlog2_eq hv hlt, intlog2_eq hv' h]
  rcases hmsb.eq_or_lt with heq | hless
  · have hfraction : fraction v ≤ fraction v' := by
      unfold fraction
      rw [shifted_eq, shifted_eq, heq]
      exact Nat.sub_le_sub_right (Nat.mul_le_mul_right _ hle) _
    rw [heq]
    exact Nat.add_le_add_left (interpolate_mono table_mono (by norm_num) hfraction) _
  · have hlog := fraction_log_lt hv hlt
    have hnext : (msb v + 1) * 2 ^ 24 ≤ msb v' * 2 ^ 24 := Nat.mul_le_mul_right _ hless
    omega

/-- Powers of two are at the first point of the table. -/
theorem intlog2_two_pow {k : ℕ} (hk : k < 32) : intlog2 (2 ^ k) = k * 2 ^ 24 := by
  have hpos : 1 ≤ 2 ^ k := Nat.one_le_two_pow
  have hlt : 2 ^ k < 2 ^ 32 := Nat.pow_lt_pow_right (by decide) hk
  have hmsb : msb (2 ^ k) = k := by rw [msb_eq hpos, Nat.log_pow (by decide)]
  have hfraction : fraction (2 ^ k) = 0 := by
    unfold fraction
    rw [shifted_eq, hmsb, ← pow_add, Nat.add_sub_cancel' (by omega), Nat.sub_self]
  rw [intlog2_eq hpos hlt, hmsb, hfraction]
  have hknot := interpolate_knot table (show 0 < 2 ^ 15 * 2 ^ 8 by norm_num) 0
  have htable : table 0 = 0 := rfl
  rw [Nat.mul_zero] at hknot
  rw [hknot, htable, Nat.zero_mul, Nat.add_zero]

/-- Twice the argument has the same significand. -/
theorem intlog2_double (hv : 1 ≤ v) (h : 2 * v < 2 ^ 32) : intlog2 (2 * v) = intlog2 v + 2 ^ 24 := by
  have hlt : v < 2 ^ 32 := by omega
  have hmsb : msb (2 * v) = msb v + 1 := by
    rw [msb_eq (by omega), msb_eq hv, Nat.mul_comm, Nat.log_mul_base (by decide) (by omega)]
  have hle : msb v + 1 ≤ 31 := by
    rw [← hmsb]
    exact msb_le (by omega) h
  have hfraction : fraction (2 * v) = fraction v := by
    have hpow : 2 ^ (31 - msb v) = 2 * 2 ^ (31 - (msb v + 1)) := by
      rw [← pow_succ']
      exact congrArg _ (by omega)
    unfold fraction
    rw [shifted_eq, shifted_eq, hmsb, hpow]
    exact congrArg (· - 2 ^ 31) (by ring)
  rw [intlog2_eq (by omega) h, intlog2_eq hv hlt, hmsb, hfraction]
  omega

theorem intlog10_eq (hv : 1 ≤ v) (h : v < 2 ^ 32) : intlog10 v = intlog2 v * 646456993 / 2 ^ 31 := by
  have hlog := intlog2_lt hv h
  have hproduct : intlog2 v * 646456993 < 2 ^ 64 := by omega
  have hresult : intlog2 v * 646456993 / 2 ^ 31 < 2 ^ 32 := by omega
  unfold intlog10 u32
  rw [if_neg (by omega), Nat.mod_eq_of_lt hproduct, Nat.shiftRight_eq_div_pow, Nat.mod_eq_of_lt hresult]

/-- **The logarithm in fixed point**: no 32-bit operation overflows, the results are monotone, a power of two
has its exponent, and twice the argument is one more. -/
theorem intlog_spec {v v' : ℕ} (hv : 1 ≤ v) (hle : v ≤ v') (h : v' < 2 ^ 32) :
    Exact v ∧ intlog2 v ≤ intlog2 v' ∧ intlog10 v ≤ intlog10 v' ∧
      (∀ k < 32, intlog2 (2 ^ k) = k * 2 ^ 24) ∧
      (2 * v < 2 ^ 32 → intlog2 (2 * v) = intlog2 v + 2 ^ 24) := by
  have hmono := intlog2_mono hv hle h
  refine ⟨exact_of_pos hv (hle.trans_lt h), hmono, ?_, fun k hk => intlog2_two_pow hk, intlog2_double hv⟩
  rw [intlog10_eq hv (hle.trans_lt h), intlog10_eq (hv.trans hle) h]
  exact Nat.div_le_div_right (Nat.mul_le_mul_right _ hmono)

theorem intlog_spec_nine : Exact 9 ∧ intlog2 9 ≤ intlog2 0xffffffff ∧ intlog10 9 ≤ intlog10 0xffffffff ∧
    intlog2 (2 * 9) = intlog2 9 + 2 ^ 24 := by
  obtain ⟨hexact, hlog2, hlog10, -, hdouble⟩ :=
    @intlog_spec 9 0xffffffff (by decide) (by decide) (by decide)
  exact ⟨hexact, hlog2, hlog10, hdouble (by decide)⟩

end DvbMath
end TbsMedia
