import Mathlib.Data.List.Basic
import Mathlib.Tactic.Common

/-!
# CRC-32, most significant bit first

The bitwise form of the cyclic redundancy check with the polynomial `0x04c11db7`.  The development
takes the CRC routine of the kernel as a parameter; this is what that parameter stands for.
-/

namespace TbsMedia
namespace Lib

/-- One bit of the division. -/
def crc32Bit (crc : UInt32) : UInt32 :=
  if crc &&& 0x80000000 ≠ 0 then crc <<< 1 ^^^ 0x04c11db7 else crc <<< 1

/-- One byte of the division. -/
def crc32Byte (crc : UInt32) (b : UInt8) : UInt32 :=
  (List.range 8).foldl (fun c _ => crc32Bit c) (crc ^^^ b.toUInt32 <<< 24)

/-- The remainder after `bs`, from the remainder `crc` on. -/
def crc32Be (crc : UInt32) (bs : List UInt8) : UInt32 := bs.foldl crc32Byte crc

/-- A check can be taken up where an earlier one stopped. -/
theorem crc32Be_append (crc : UInt32) (xs ys : List UInt8) :
    crc32Be crc (xs ++ ys) = crc32Be (crc32Be crc xs) ys :=
  List.foldl_append

/-- The four bytes of a CRC, as they are sent. -/
def bytes32 (crc : UInt32) : List UInt8 :=
  [(crc >>> 24).toUInt8, (crc >>> 16).toUInt8, (crc >>> 8).toUInt8, crc.toUInt8]

/-- Four bytes of a number below `2 ^ 32` make it up again. -/
theorem or_bytes {n : ℕ} (h : n < 4294967296) :
    (n / 16777216 % 256) <<< 24 % 4294967296 ||| (n / 65536 % 256) <<< 16 % 4294967296 |||
      (n / 256 % 256) <<< 8 % 4294967296 ||| n % 256 = n := by
  have e0 : (n / 16777216 % 256) <<< 24 % 4294967296 = (n / 16777216) <<< 24 := by
    rw [Nat.shiftLeft_eq, Nat.shiftLeft_eq]
    omega
  have e1 : (n / 65536 % 256) <<< 16 % 4294967296 = n / 65536 % 256 * 65536 := by
    rw [Nat.shiftLeft_eq]
    omega
  have e2 : (n / 256 % 256) <<< 8 % 4294967296 = n / 256 % 256 * 256 := by
    rw [Nat.shiftLeft_eq]
    omega
  have s1 : (n / 16777216) <<< 24 + n / 65536 % 256 * 65536 = (n / 65536) <<< 16 := by
    rw [Nat.shiftLeft_eq, Nat.shiftLeft_eq]
    omega
  have s2 : (n / 65536) <<< 16 + n / 256 % 256 * 256 = (n / 256) <<< 8 := by
    rw [Nat.shiftLeft_eq, Nat.shiftLeft_eq]
    omega
  rw [e0, e1, e2, ← Nat.shiftLeft_add_eq_or_of_lt (show n / 65536 % 256 * 65536 < 2 ^ 24 by omega),
    s1, ← Nat.shiftLeft_add_eq_or_of_lt (show n / 256 % 256 * 256 < 2 ^ 16 by omega), s2,
    ← Nat.shiftLeft_add_eq_or_of_lt (show n % 256 < 2 ^ 8 by omega), Nat.shiftLeft_eq]
  omega

/-- The receiver puts the bytes together again. -/
theorem word32_bytes32 (crc : UInt32) :
    (crc >>> 24).toUInt8.toUInt32 <<< 24 ||| (crc >>> 16).toUInt8.toUInt32 <<< 16 |||
      (crc >>> 8).toUInt8.toUInt32 <<< 8 ||| crc.toUInt8.toUInt32 = crc := by
  apply UInt32.toNat_inj.mp
  simp only [UInt32.toNat_or, UInt32.toNat_shiftLeft, UInt8.toNat_toUInt32, UInt32.toNat_toUInt8,
    UInt32.toNat_shiftRight, UInt32.toNat_ofNat, Nat.shiftRight_eq_div_pow, Nat.reduceMod,
    Nat.reducePow]
  exact or_bytes crc.toNat_lt

end Lib
end TbsMedia
