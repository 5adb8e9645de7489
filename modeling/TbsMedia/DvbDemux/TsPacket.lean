import Mathlib.Data.List.Basic
import Mathlib.Data.Int.Notation
import Mathlib.Tactic.Common

/-!
# Transport stream packets

The 188-byte packets of `dvb_demux.c` and the helper functions at the top of that file: `ts_pid`,
`payload` and `section_length`.  A `TsPacket` carries the proof that it has 188 bytes, so that the
`buf[p]` of the source never leaves it for `p < 188`.
-/

namespace TbsMedia
namespace Demux

/-- A transport stream packet: 188 bytes. -/
structure TsPacket where
  bytes : List UInt8
  length_bytes : bytes.length = 188
  deriving DecidableEq

/-- `buf[i]`. -/
instance : CoeFun TsPacket fun _ => ℕ → UInt8 := ⟨fun buf i => buf.bytes.getD i 0⟩

/-- The `len` bytes `&buf[p]` points to. -/
def TsPacket.slice (buf : TsPacket) (p len : ℕ) : List UInt8 := (buf.bytes.drop p).take len

/-- `ts_pid`: the 13 bits of the packet identifier. -/
def tsPid (buf : TsPacket) : ℕ := (buf 1 &&& 0x1f).toNat * 256 + (buf 2).toNat

/-- `payload`: the number of payload bytes, zero when there are none or when the adaptation field
claims more than the packet has. -/
def payload (tsp : TsPacket) : ℕ :=
  if tsp 3 &&& 0x10 = 0 then 0
  else if tsp 3 &&& 0x20 ≠ 0 then
    if tsp 4 > 183 then 0 else 184 - 1 - (tsp 4).toNat
  else 184

/-- `buf[1] & 0x40`: a section or a PES packet starts in this packet. -/
def TsPacket.pusi (buf : TsPacket) : Prop := buf 1 &&& 0x40 ≠ 0

instance (buf : TsPacket) : Decidable buf.pusi := inferInstanceAs (Decidable (_ ≠ _))

/-- `buf[3] & 0x0f`: the continuity counter. -/
def TsPacket.cc (buf : TsPacket) : ℕ := (buf 3 &&& 0x0f).toNat

/-- The `dc_i` of `dvb_dmx_swfilter_section_packet`: an adaptation field is present and has its
discontinuity indicator set. -/
def TsPacket.dcI (buf : TsPacket) : Prop :=
  buf 3 &&& 0x20 ≠ 0 ∧ buf 4 > 0 ∧ buf 5 &&& 0x80 ≠ 0

instance (buf : TsPacket) : Decidable buf.dcI := inferInstanceAs (Decidable (_ ∧ _))

/-- The payload bytes, `count` bytes from `p = 188 - count` on. -/
def TsPacket.payloadBytes (buf : TsPacket) : List UInt8 := buf.bytes.drop (188 - payload buf)

theorem payload_le (tsp : TsPacket) : payload tsp ≤ 184 := by
  unfold payload
  split_ifs <;> omega

@[simp] theorem length_payloadBytes (buf : TsPacket) : buf.payloadBytes.length = payload buf := by
  have h := payload_le buf
  rw [TsPacket.payloadBytes, List.length_drop, buf.length_bytes]
  omega

/-- Behind the payload start the packet is its payload. -/
theorem slice_payload (buf : TsPacket) : buf.slice (188 - payload buf) (payload buf) =
    buf.payloadBytes := by
  rw [TsPacket.slice, ← TsPacket.payloadBytes, ← length_payloadBytes, List.take_length]

/-- The byte at the payload start. -/
theorem apply_payload_start (buf : TsPacket) {b : UInt8} {bs : List UInt8}
    (h : buf.payloadBytes = b :: bs) : buf (188 - payload buf) = b := by
  have hget : buf.bytes[188 - payload buf]? = some b := by
    have h0 := congrArg (fun l : List UInt8 => l[0]?) h
    simpa [TsPacket.payloadBytes, List.getElem?_drop] using h0
  show buf.bytes.getD _ _ = b
  rw [List.getD_eq_getElem?_getD, hget, Option.getD_some]

/-- A slice behind the first payload byte is a slice of the rest of the payload. -/
theorem slice_after_first (buf : TsPacket) {b : UInt8} {bs : List UInt8}
    (h : buf.payloadBytes = b :: bs) (k len : ℕ) :
    buf.slice (188 - payload buf + 1 + k) len = (bs.drop k).take len := by
  rw [TsPacket.slice, ← List.drop_drop, ← List.drop_drop, ← TsPacket.payloadBytes, h,
    List.drop_one, List.tail_cons]

/-- `section_length`, on a section header at `secbuf`. -/
def sectionLength (b1 b2 : UInt8) : ℕ := 3 + (b1 &&& 0x0f).toNat * 256 + b2.toNat

theorem sectionLength_pos (b1 b2 : UInt8) : 3 ≤ sectionLength b1 b2 := by
  unfold sectionLength
  omega

/-- The packet that carries `bs`, which its adaptation field pushes to the end. -/
def TsPacket.stuffed (pid : ℕ) (pusi dcI : Bool) (cc : ℕ) (bs : List UInt8)
    (h : bs.length ≤ 182 := by decide) : TsPacket where
  bytes := [0x47, (if pusi then 0x40 else 0) ||| .ofNat (pid / 256), .ofNat pid,
    (if bs = [] then 0x20 else 0x30) ||| .ofNat cc, .ofNat (183 - bs.length),
    if dcI then 0x80 else 0] ++ List.replicate (182 - bs.length) 0xff ++ bs
  length_bytes := by
    simp only [List.length_append, List.length_cons, List.length_nil, List.length_replicate]
    omega

end Demux
end TbsMedia
