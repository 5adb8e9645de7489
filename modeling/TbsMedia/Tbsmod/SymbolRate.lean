import Mathlib
import TbsMedia.Tbsmod.Tbsmod

/-!
# The symbol rate

`MODULATOR_SYMBOL_RATE` of `tbsmod_ioctl` divides a constant by the symbol rate and writes the quotient
to a register of the `AD9789`, three bytes over SPI with the most significant one first.  The rates are
bounded from below, but not far enough for the quotient to fit into three bytes.

* `ad9789WtNBytes`, `configSrate`, `ioctlSymbolRate`: the code.
* `spiTransfers`: what the chip is sent.
* `ioctlSymbolRate_spec`: the register gets the quotient modulo `2 ^ 24`.
* `symbolRate_faithful_iff`: the rates for which that is the quotient.

Left out are `dev->srate`, which nothing else reads, and the wait for the transfer to be finished, whose
result is not used.
-/

namespace TbsMedia
namespace Tbsmod

open Lib

/-! ## The code -/

def SPI_CONFIG : ℕ := 0x10
def SPI_COMMAND : ℕ := 0x14
def SPI_WT_DATA : ℕ := 0x18

def AD9789_RATE_CONVERT_P : ℕ := 0x1b
def AD9789_FRE_UPDATE : ℕ := 0x1e

def EINVAL : ℕ := 22

/-- Four bytes of a buffer as a word. -/
def word (buf : ℕ → UInt8) (k : ℕ) : UInt32 :=
  UInt32.ofNat ((buf k).toNat + 2 ^ 8 * (buf (k + 1)).toNat + 2 ^ 16 * (buf (k + 2)).toNat +
    2 ^ 24 * (buf (k + 3)).toNat)

def tmpdt (length : ℕ) : UInt8 := if length = 3 then 0x40 else if length = 2 then 0x20 else 0x00

/-- `tmpbuf` of `ad9789_wt_nBytes`.  What is not set is what `stack` has. -/
def tmpbuf (length regAddr : ℕ) (wrBuf : List UInt8) (stack : ℕ → UInt8) (k : ℕ) : UInt8 :=
  if k = 0 then UInt8.ofNat ((regAddr >>> 8) &&& 0x1f) + tmpdt length
  else if k = 1 then UInt8.ofNat (regAddr &&& 0xff)
  else if k < 2 + length then wrBuf.getD (k - 2) 0
  else stack k

/-- The same before it is written to `SPI_CONFIG`. -/
def configbuf (length : ℕ) (buf : ℕ → UInt8) (k : ℕ) : UInt8 :=
  if k = 0 then 0xe0 else if k = 1 then UInt8.ofNat ((length + 2) * 16) else buf k

def ad9789WtNBytes (dev : TbsPcieDev) (length regAddr : ℕ) (wrBuf : List UInt8) (stack : ℕ → UInt8) :
    TbsPcieDev :=
  let buf := tmpbuf length regAddr wrBuf stack
  let dev := dev.write 0 SPI_COMMAND (word buf 0)
  let dev := dev.write 0 SPI_WT_DATA (word buf 4)
  dev.write 0 SPI_CONFIG (word (configbuf length buf) 0)

/-- `config_srate`, which is `none` where it divides by zero. -/
def configSrate (dev : TbsPcieDev) (srate : UInt64) (stack stack' : ℕ → UInt8) : Option TbsPcieDev :=
  let srate := srate / 1000
  (divU64 39321600000 srate.toUInt32).map fun srate : UInt64 =>
    let buff := [((srate >>> 16) &&& 0xff).toUInt8, ((srate >>> 8) &&& 0xff).toUInt8, (srate &&& 0xff).toUInt8]
    let dev := ad9789WtNBytes dev 3 AD9789_RATE_CONVERT_P buff stack
    ad9789WtNBytes dev 1 AD9789_FRE_UPDATE [0x80] stack'

/-- `MODULATOR_SYMBOL_RATE` of `tbsmod_ioctl`, with its result. -/
def ioctlSymbolRate (dev : TbsPcieDev) (i : Fin CHANNELS) (data : UInt32) (stack stack' : ℕ → UInt8) :
    Option (ℕ × TbsPcieDev) :=
  if dev.cardid = 0x690b then some (0, dev)
  else if i ≠ 0 then some (0, dev)
  else if data < 1000000 then some (EINVAL, dev)
  else (configSrate dev data.toUInt64 stack stack').map fun dev => (0, dev)

/-! ## What the chip is sent -/

/-- The bytes of a word, in the order in which they are sent. -/
def wordBytes (w : UInt32) : List UInt8 :=
  [UInt8.ofNat w.toNat, UInt8.ofNat (w.toNat / 2 ^ 8), UInt8.ofNat (w.toNat / 2 ^ 16),
    UInt8.ofNat (w.toNat / 2 ^ 24)]

/-- How many bytes are sent. -/
def spiLength (config : UInt32) : ℕ := ((wordBytes config).getD 1 0 / 16).toNat

/-- A transfer: a header of two bytes with the address of a register, and the bytes for it. -/
def spiTransfer (command data config : UInt32) : ℕ × List UInt8 :=
  let bytes := (wordBytes command ++ wordBytes data).take (spiLength config)
  ((bytes.getD 0 0).toNat % 32 * 2 ^ 8 + (bytes.getD 1 0).toNat, bytes.drop 2)

/-- The transfers in a log of writes to the registers of the card. -/
def spiTransfers : List (ℕ × UInt32) → List (ℕ × List UInt8)
  | command :: data :: config :: log =>
    if command.1 = SPI_COMMAND ∧ data.1 = SPI_WT_DATA ∧ config.1 = SPI_CONFIG then
      spiTransfer command.2 data.2 config.2 :: spiTransfers log
    else spiTransfers log
  | _ => []

/-- The bytes of a register as a number, the most significant one first. -/
def bigEndian (bytes : List UInt8) : ℕ := Nat.ofDigits (2 ^ 8) (bytes.reverse.map UInt8.toNat)

/-- The value that `AD9789_RATE_CONVERT_P` is set to. -/
def rateConvertP (log : List (ℕ × UInt32)) : Option ℕ :=
  ((spiTransfers log).lookup AD9789_RATE_CONVERT_P).map bigEndian

theorem wordBytes_word (buf : ℕ → UInt8) (k : ℕ) :
    wordBytes (word buf k) = [buf k, buf (k + 1), buf (k + 2), buf (k + 3)] := by
  have hbyte : ∀ (b : UInt8) (n : ℕ), n % 256 = b.toNat → UInt8.ofNat n = b := by
    intro b n h
    rw [← UInt8.toNat_inj, UInt8.toNat_ofNat']
    exact h
  have h₀ := (buf k).toNat_lt
  have h₁ := (buf (k + 1)).toNat_lt
  have h₂ := (buf (k + 2)).toNat_lt
  have h₃ := (buf (k + 3)).toNat_lt
  have hword : (word buf k).toNat = (buf k).toNat + 2 ^ 8 * (buf (k + 1)).toNat +
      2 ^ 16 * (buf (k + 2)).toNat + 2 ^ 24 * (buf (k + 3)).toNat :=
    UInt32.toNat_ofNat_of_lt' (by change _ < 2 ^ 32; omega)
  unfold wordBytes
  rw [hword, hbyte (buf k) _ (by omega), hbyte (buf (k + 1)) _ (by omega), hbyte (buf (k + 2)) _ (by omega),
    hbyte (buf (k + 3)) _ (by omega)]

/-- A write only adds to the log. -/
theorem ad9789WtNBytes_eq (dev : TbsPcieDev) (length regAddr : ℕ) (wrBuf : List UInt8) (stack : ℕ → UInt8) :
    ad9789WtNBytes dev length regAddr wrBuf stack =
      { dev with
        mmio := dev.mmio ++
          [(0 + SPI_COMMAND, word (tmpbuf length regAddr wrBuf stack) 0),
            (0 + SPI_WT_DATA, word (tmpbuf length regAddr wrBuf stack) 4),
            (0 + SPI_CONFIG, word (configbuf length (tmpbuf length regAddr wrBuf stack)) 0)] } := by
  unfold ad9789WtNBytes TbsPcieDev.write
  simp only [List.append_assoc, List.cons_append, List.nil_append]

/-- What the chip gets is what has been written, and not what was on the stack. -/
theorem spiTransfer_rateConvertP (a b c : UInt8) (stack : ℕ → UInt8) :
    spiTransfer (word (tmpbuf 3 AD9789_RATE_CONVERT_P [a, b, c] stack) 0)
        (word (tmpbuf 3 AD9789_RATE_CONVERT_P [a, b, c] stack) 4)
        (word (configbuf 3 (tmpbuf 3 AD9789_RATE_CONVERT_P [a, b, c] stack)) 0) =
      (AD9789_RATE_CONVERT_P, [a, b, c]) := by
  have hlength : spiLength (word (configbuf 3 (tmpbuf 3 AD9789_RATE_CONVERT_P [a, b, c] stack)) 0) = 5 := by
    unfold spiLength
    rw [wordBytes_word]
    change (UInt8.ofNat ((3 + 2) * 16) / 16).toNat = 5
    decide
  have hheader : (UInt8.ofNat ((AD9789_RATE_CONVERT_P >>> 8) &&& 0x1f) + tmpdt 3).toNat % 32 * 2 ^ 8 +
      (UInt8.ofNat (AD9789_RATE_CONVERT_P &&& 0xff)).toNat = AD9789_RATE_CONVERT_P := by decide
  unfold spiTransfer
  rw [hlength, wordBytes_word, wordBytes_word]
  exact Prod.ext hheader rfl

/-! ## The quotient -/

/-- What the register should get. -/
def quotient (data : UInt32) : ℕ := 39321600000 / (data.toNat / 1000)

/-- Three bytes are the number modulo `2 ^ 24`. -/
theorem bigEndian_bytes (n : UInt64) :
    bigEndian [((n >>> 16) &&& 0xff).toUInt8, ((n >>> 8) &&& 0xff).toUInt8, (n &&& 0xff).toUInt8] =
      n.toNat % 2 ^ 24 := by
  have hmask : ∀ x : ℕ, x &&& 0xff = x % 2 ^ 8 := fun x => Nat.and_two_pow_sub_one_eq_mod x 8
  have hbyte : ∀ m : UInt64, ((m &&& 0xff).toUInt8).toNat = m.toNat % 2 ^ 8 := by
    intro m
    rw [UInt64.toNat_toUInt8, UInt64.toNat_and]
    change (m.toNat &&& 0xff) % 256 = _
    rw [hmask]
    omega
  have h₁ : (n >>> 8).toNat = n.toNat / 2 ^ 8 := by
    rw [UInt64.toNat_shiftRight, Nat.shiftRight_eq_div_pow]
    rfl
  have h₂ : (n >>> 16).toNat = n.toNat / 2 ^ 16 := by
    rw [UInt64.toNat_shiftRight, Nat.shiftRight_eq_div_pow]
    rfl
  unfold bigEndian
  simp only [List.reverse_cons, List.reverse_nil, List.nil_append, List.cons_append, List.map_cons, List.map_nil,
    Nat.ofDigits_cons, Nat.ofDigits_nil, hbyte, h₁, h₂]
  omega

variable {dev : TbsPcieDev} {data : UInt32}

/-- The request is taken, and the chip gets the quotient. -/
def Faithful (dev : TbsPcieDev) (data : UInt32) (stack stack' : ℕ → UInt8) : Prop :=
  ∃ log, ioctlSymbolRate dev 0 data stack stack' = some (0, { dev with mmio := dev.mmio ++ log }) ∧
    rateConvertP log = some (quotient data)

/-- The chip gets the quotient without its upper bits. -/
theorem ioctlSymbolRate_spec (hcard : dev.cardid ≠ 0x690b) (hdata : 1000000 ≤ data) (stack stack' : ℕ → UInt8) :
    ∃ log, ioctlSymbolRate dev 0 data stack stack' = some (0, { dev with mmio := dev.mmio ++ log }) ∧
      rateConvertP log = some (quotient data % 2 ^ 24) := by
  have hlt := data.toNat_lt
  have hle : 1000000 ≤ data.toNat := UInt32.le_iff_toNat_le.mp hdata
  obtain ⟨srate, hdivided⟩ : ∃ srate : UInt64, srate = data.toUInt64 / 1000 := ⟨_, rfl⟩
  have hsrate : srate.toNat = data.toNat / 1000 := by
    rw [hdivided, UInt64.toNat_div, UInt32.toNat_toUInt64]
    rfl
  have hword : srate.toUInt32.toNat = data.toNat / 1000 := by
    rw [UInt64.toNat_toUInt32, hsrate]
    omega
  have hne : srate.toUInt32 ≠ 0 := by
    rw [Ne, eq_zero_iff_toNat, hword]
    omega
  have hdiv : divU64 39321600000 srate.toUInt32 = some (39321600000 / srate.toUInt32.toUInt64) := if_neg hne
  have hn : (39321600000 / srate.toUInt32.toUInt64).toNat = quotient data := by
    rw [UInt64.toNat_div, UInt32.toNat_toUInt64, hword]
    rfl
  unfold ioctlSymbolRate configSrate
  rw [if_neg hcard, if_neg (not_not.mpr rfl), if_neg (UInt32.not_lt.mpr hdata)]
  dsimp only
  rw [← hdivided, hdiv, Option.map_some, Option.map_some, ad9789WtNBytes_eq, ad9789WtNBytes_eq]
  dsimp only
  rw [List.append_assoc]
  refine ⟨_, rfl, ?_⟩
  unfold rateConvertP
  rw [List.cons_append, List.cons_append, List.cons_append, spiTransfers, if_pos ⟨rfl, rfl, rfl⟩, spiTransfer_rateConvertP,
    List.lookup_cons_self, Option.map_some, bigEndian_bytes, hn]

/-- What is written is determined by the request. -/
theorem faithful_log {stack stack' : ℕ → UInt8} {log log' : List (ℕ × UInt32)}
    (h : ioctlSymbolRate dev 0 data stack stack' = some (0, { dev with mmio := dev.mmio ++ log }))
    (h' : ioctlSymbolRate dev 0 data stack stack' = some (0, { dev with mmio := dev.mmio ++ log' })) :
    log = log' := by
  have hsame := h.symm.trans h'
  simp only [Option.some.injEq, Prod.mk.injEq, true_and, TbsPcieDev.mk.injEq] at hsame
  exact List.append_cancel_left hsame

/-- **The rates whose quotient arrives**: it does not fit into three bytes for the slower ones. -/
theorem symbolRate_faithful_iff (hcard : dev.cardid ≠ 0x690b) (hdata : 1000000 ≤ data)
    (stack stack' : ℕ → UInt8) : Faithful dev data stack stack' ↔ 2344000 ≤ data.toNat := by
  have hle : 1000000 ≤ data.toNat := UInt32.le_iff_toNat_le.mp hdata
  obtain ⟨log, hrun, hrate⟩ := ioctlSymbolRate_spec hcard hdata stack stack'
  have hfits : quotient data % 2 ^ 24 = quotient data ↔ 2344000 ≤ data.toNat := by
    have hquotient : quotient data < 2 ^ 24 ↔ 39321600000 < 2 ^ 24 * (data.toNat / 1000) :=
      Nat.div_lt_iff_lt_mul (by omega)
    constructor
    · intro h
      have hlt : quotient data < 2 ^ 24 := h ▸ Nat.mod_lt _ (Nat.two_pow_pos 24)
      have hmul := hquotient.mp hlt
      omega
    · intro h
      exact Nat.mod_eq_of_lt (hquotient.mpr (by omega))
  rw [← hfits]
  constructor
  · rintro ⟨log', hrun', hrate'⟩
    rw [faithful_log hrun' hrun, hrate] at hrate'
    exact Option.some.inj hrate'
  · intro h
    exact ⟨log, hrun, h ▸ hrate⟩

theorem symbolRate_faithful_iff_five :
    Faithful (tbsmodProbe 0x6004 fun _ => 0) 5000000 (fun _ => 0) (fun _ => 0) ↔ 2344000 ≤ (5000000 : UInt32).toNat :=
  symbolRate_faithful_iff (by decide) (by decide) _ _

/-- The slowest rate that is taken. -/
theorem not_symbolRate_faithful : ¬ Faithful (tbsmodProbe 0x6004 fun _ => 0) 1000000 (fun _ => 0) (fun _ => 0) := by
  rintro ⟨log', hrun', hrate'⟩
  obtain ⟨log, hrun, hrate⟩ := @ioctlSymbolRate_spec (tbsmodProbe 0x6004 fun _ => 0) 1000000 (by decide) (by decide)
    (fun _ => 0) (fun _ => 0)
  rw [faithful_log hrun' hrun, hrate] at hrate'
  exact absurd (Option.some.inj hrate') (by decide)

end Tbsmod
end TbsMedia
