import TbsMedia.Lib.BitFields

/-!
# Octets

A message is a row of octets.  A wider number is sent as its octets from the highest on, and several
narrow fields share one octet.

* `hi8`, `lo8`, `be16`: the two octets of a 16-bit number, and the number they make.
* `octets24`, `be24`: the same for 24 bits.
* `toBcd`, `ofBcd`: a number of two decimal digits, each in a half of the octet.
* `toNat_shiftLeft`, `toNat_lor`: fields side by side in an octet are a sum.
* `toNat_shiftRight`, `toNat_land`: a field is read as a quotient or a remainder.
-/

namespace TbsMedia
namespace Lib
namespace Octets

/-! ## Wider numbers -/

/-- The upper octet. -/
def hi8 (w : UInt16) : UInt8 := (w >>> 8).toUInt8

/-- The lower octet. -/
def lo8 (w : UInt16) : UInt8 := (w &&& 0xff).toUInt8

/-- The number of two octets. -/
def be16 (hi lo : UInt8) : UInt16 := hi.toUInt16 <<< 8 ||| lo.toUInt16

theorem toNat_hi8 (w : UInt16) : (hi8 w).toNat = w.toNat / 256 := by
  have hw := w.toNat_lt
  rw [hi8, UInt16.toNat_toUInt8, UInt16.toNat_shiftRight, Nat.shiftRight_eq_div_pow]
  show w.toNat / 256 % 256 = w.toNat / 256
  omega

theorem toNat_lo8 (w : UInt16) : (lo8 w).toNat = w.toNat % 256 := by
  rw [lo8, UInt16.toNat_toUInt8, UInt16.toNat_and]
  show (w.toNat &&& 2 ^ 8 - 1) % 256 = w.toNat % 256
  rw [Nat.and_two_pow_sub_one_eq_mod]
  omega

theorem toNat_be16 (hi lo : UInt8) : (be16 hi lo).toNat = hi.toNat * 256 + lo.toNat := by
  have hhi := hi.toNat_lt
  have hlo := lo.toNat_lt
  rw [be16, UInt16.toNat_or, UInt16.toNat_shiftLeft, UInt8.toNat_toUInt16, UInt8.toNat_toUInt16]
  show hi.toNat <<< 8 % 65536 ||| lo.toNat = hi.toNat * 256 + lo.toNat
  have hshift : hi.toNat <<< 8 % 65536 = hi.toNat <<< 8 := by
    rw [Nat.shiftLeft_eq]
    omega
  rw [hshift, shiftLeft_lor hlo]
  rfl

/-- A number comes back from its octets. -/
@[simp] theorem be16_hi8_lo8 (w : UInt16) : be16 (hi8 w) (lo8 w) = w := by
  apply UInt16.toNat_inj.mp
  rw [toNat_be16, toNat_hi8, toNat_lo8]
  omega

/-- The three octets of a number of 24 bits. -/
def octets24 (w : UInt32) : List UInt8 :=
  [(w >>> 16 &&& 0xff).toUInt8, (w >>> 8 &&& 0xff).toUInt8, (w &&& 0xff).toUInt8]

/-- The number of three octets. -/
def be24 (a b c : UInt8) : UInt32 :=
  a.toUInt32 <<< 16 ||| b.toUInt32 <<< 8 ||| c.toUInt32

/-- An octet of a wide number. -/
theorem toNat_octet {w s : UInt32} (k : ℕ) (hs : s.toNat = k) (hk : k < 32) :
    (w >>> s &&& 0xff).toUInt8.toNat = w.toNat / 2 ^ k % 256 := by
  rw [UInt32.toNat_toUInt8, UInt32.toNat_and, UInt32.toNat_shiftRight, hs, Nat.mod_eq_of_lt hk,
    Nat.shiftRight_eq_div_pow]
  show (w.toNat / 2 ^ k &&& 2 ^ 8 - 1) % 256 = w.toNat / 2 ^ k % 256
  rw [Nat.and_two_pow_sub_one_eq_mod]
  omega

theorem toNat_be24 (a b c : UInt8) : (be24 a b c).toNat = a.toNat * 65536 + b.toNat * 256 + c.toNat := by
  have ha := a.toNat_lt
  have hb := b.toNat_lt
  have hc := c.toNat_lt
  rw [be24, UInt32.toNat_or, UInt32.toNat_or, UInt32.toNat_shiftLeft, UInt32.toNat_shiftLeft,
    UInt8.toNat_toUInt32, UInt8.toNat_toUInt32, UInt8.toNat_toUInt32]
  show (a.toNat <<< 16 % 4294967296 ||| b.toNat <<< 8 % 4294967296) ||| c.toNat = _
  have ha16 : a.toNat <<< 16 % 4294967296 = (a.toNat <<< 8) <<< 8 := by
    rw [Nat.shiftLeft_eq, Nat.shiftLeft_eq, Nat.shiftLeft_eq]
    omega
  have hb8 : b.toNat <<< 8 % 4294967296 = b.toNat <<< 8 := by
    rw [Nat.shiftLeft_eq]
    omega
  rw [ha16, hb8, ← Nat.shiftLeft_or_distrib, shiftLeft_lor hb, shiftLeft_lor hc]
  omega

/-- A number of 24 bits comes back from its octets. -/
theorem be24_octets24 {w : UInt32} (h : w.toNat < 2 ^ 24) :
    be24 (w >>> 16 &&& 0xff).toUInt8 (w >>> 8 &&& 0xff).toUInt8 (w &&& 0xff).toUInt8 = w := by
  have h0 : (w &&& 0xff).toUInt8.toNat = w.toNat % 256 := by
    rw [UInt32.toNat_toUInt8, UInt32.toNat_and]
    show (w.toNat &&& 2 ^ 8 - 1) % 256 = w.toNat % 256
    rw [Nat.and_two_pow_sub_one_eq_mod]
    omega
  apply UInt32.toNat_inj.mp
  rw [toNat_be24, toNat_octet 16 rfl (by decide), toNat_octet 8 rfl (by decide), h0]
  omega

/-! ## Narrow fields -/

/-- A field shifted into its place. -/
theorem toNat_shiftLeft {a s : UInt8} (k : ℕ) (hs : s.toNat = k) (hk : k < 8)
    (ha : a.toNat * 2 ^ k < 256) : (a <<< s).toNat = a.toNat * 2 ^ k := by
  rw [UInt8.toNat_shiftLeft, hs, Nat.mod_eq_of_lt hk, Nat.shiftLeft_eq, Nat.mod_eq_of_lt ha]

/-- A lower field beside fields that leave it room. -/
theorem toNat_lor {a b : UInt8} (k : ℕ) (ha : a.toNat % 2 ^ k = 0) (hb : b.toNat < 2 ^ k) :
    (a ||| b).toNat = a.toNat + b.toNat := by
  have hdiv : a.toNat = (a.toNat / 2 ^ k) <<< k := by
    rw [Nat.shiftLeft_eq, Nat.div_mul_cancel (Nat.dvd_of_mod_eq_zero ha)]
  rw [UInt8.toNat_or, hdiv, shiftLeft_lor hb, Nat.shiftLeft_eq]

/-- The fields from bit `k` on. -/
theorem toNat_shiftRight {a s : UInt8} (k : ℕ) (hs : s.toNat = k) (hk : k < 8) :
    (a >>> s).toNat = a.toNat / 2 ^ k := by
  rw [UInt8.toNat_shiftRight, hs, Nat.mod_eq_of_lt hk, Nat.shiftRight_eq_div_pow]

/-- The fields below bit `k`. -/
theorem toNat_land {a m : UInt8} (k : ℕ) (hm : m.toNat = 2 ^ k - 1) :
    (a &&& m).toNat = a.toNat % 2 ^ k := by
  rw [UInt8.toNat_and, hm, Nat.and_two_pow_sub_one_eq_mod]

/-- Two fields that share an octet come back. -/
theorem two_fields {a b s m : UInt8} (k : ℕ) (hs : s.toNat = k) (hm : m.toNat = 2 ^ k - 1) (hk : k < 8)
    (ha : a.toNat * 2 ^ k < 256) (hb : b.toNat < 2 ^ k) :
    (a <<< s ||| b) >>> s = a ∧ (a <<< s ||| b) &&& m = b := by
  have hshift := toNat_shiftLeft k hs hk ha
  have hsum : (a <<< s ||| b).toNat = a.toNat * 2 ^ k + b.toNat := by
    rw [toNat_lor k (by rw [hshift, Nat.mul_mod_left]) hb, hshift]
  constructor
  · apply UInt8.toNat_inj.mp
    rw [toNat_shiftRight k hs hk, hsum, mul_add_div_two_pow hb]
  · apply UInt8.toNat_inj.mp
    rw [toNat_land k hm, hsum, mul_add_mod_two_pow hb]

/-! ## Decimal digits -/

/-- The two decimal digits of a number. -/
def toBcd (n : UInt8) : UInt8 := (n / 10) <<< 4 ||| n % 10

/-- The number of two decimal digits. -/
def ofBcd (b : UInt8) : UInt8 := (b >>> 4) * 10 + (b &&& 0xf)

/-- A number comes back from its two digits. -/
theorem ofBcd_toBcd {n : UInt8} (h : n < 100) : ofBcd (toBcd n) = n := by
  have hn : n.toNat < 100 := h
  have htens : (n / 10).toNat = n.toNat / 10 := UInt8.toNat_div n 10
  have hones : (n % 10).toNat = n.toNat % 10 := UInt8.toNat_mod n 10
  have hshift : ((n / 10) <<< 4).toNat = (n / 10).toNat * 2 ^ 4 := toNat_shiftLeft 4 rfl (by decide) (by omega)
  have hbcd : (toBcd n).toNat = n.toNat / 10 * 16 + n.toNat % 10 := by
    rw [toBcd, toNat_lor 4 (by omega) (by omega), hshift, htens, hones]
    rfl
  apply UInt8.toNat_inj.mp
  rw [ofBcd, UInt8.toNat_add, UInt8.toNat_mul, toNat_shiftRight 4 rfl (by decide), toNat_land 4 rfl, hbcd]
  show ((n.toNat / 10 * 16 + n.toNat % 10) / 2 ^ 4 * 10 % 256 + (n.toNat / 10 * 16 + n.toNat % 10) % 2 ^ 4) % 256 =
    n.toNat
  omega

end Octets
end Lib
end TbsMedia
