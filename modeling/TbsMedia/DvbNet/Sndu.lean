import TbsMedia.DvbDemux.TsPacket
import TbsMedia.DvbNet.Ule
import TbsMedia.Lib.Packing

/-!
# SNDUs and their cells

The sender: an SNDU, the bytes that it is sent as, and the cells that carry them.
-/

namespace TbsMedia
namespace Net

open Lib
open Demux (TsPacket)

variable (ops : UleOps)

/-- An SNDU: an optional destination address, the type field, and what stands between the address
and the CRC. -/
structure Sndu where
  dest : Option (List UInt8)
  type : ℕ
  payload : List UInt8
  length_dest : ∀ d, dest = some d → d.length = 6
  type_lt : type < 65536
  payload_pos : dest = none → payload ≠ []
  length_le : (dest.getD []).length + payload.length + 4 ≤ 32767

theorem length_dest_none : ∀ d, (none : Option (List UInt8)) = some d → d.length = 6 := by rintro _ ⟨⟩

/-- The type of the bridged frames. -/
theorem bridged_type_lt : 1 < 65536 := by decide

/-- What the SNDU has in front of its CRC and behind its type field. -/
def Sndu.body (u : Sndu) : List UInt8 := u.dest.getD [] ++ u.payload

/-- The length field. -/
def Sndu.len (u : Sndu) : ℕ := u.body.length + 4

/-- The two bytes of a word. -/
def bytes16 (w : ℕ) : List UInt8 := [.ofNat (w >>> 8), .ofNat w]

/-- The length field with the D-bit, which is set where there is no address. -/
def Sndu.lenWord (u : Sndu) : ℕ := u.len + if u.dest = none then 0x8000 else 0

/-- The length field and the type field. -/
def Sndu.header (u : Sndu) : List UInt8 := bytes16 u.lenWord ++ bytes16 u.type

/-- The CRC. -/
def Sndu.crc (u : Sndu) : UInt32 := ops.crc32Be 0xffffffff (u.header ++ u.body)

/-- The SNDU as it is sent. -/
def Sndu.bytes (u : Sndu) : List UInt8 := u.header ++ u.body ++ bytes32 (u.crc ops)

theorem Sndu.five_le (u : Sndu) : 5 ≤ u.len := by
  have hpay := u.payload_pos
  rw [Sndu.len, Sndu.body, List.length_append]
  rcases hd : u.dest with _ | d
  · have := List.length_pos_iff.mpr (hpay hd)
    omega
  · have := u.length_dest d hd
    rw [Option.getD_some]
    omega

theorem Sndu.len_le (u : Sndu) : u.len ≤ 32767 := by
  have h := u.length_le
  rw [Sndu.len, Sndu.body, List.length_append]
  exact h

theorem Sndu.length_bytes (u : Sndu) : (u.bytes ops).length = u.len + 4 := by
  rw [Sndu.bytes, List.length_append, List.length_append, Sndu.len]
  simp only [Sndu.header, bytes16, bytes32, List.length_append, List.length_cons, List.length_nil]
  omega

/-- The cell with the content `bs`, filled with `0xff`. -/
def uleCell (pusi : Bool) (cc : ℕ) (bs : List UInt8) (h : bs.length ≤ 184 := by decide) :
    TsPacket where
  bytes := [0x47, if pusi then 0x40 else 0, 0x21, .ofNat (0x10 + cc)] ++ bs ++
    List.replicate (184 - bs.length) 0xff
  length_bytes := by
    simp only [List.length_append, List.length_cons, List.length_nil, List.length_replicate]
    omega

/-- `dvb_net_ule` is called with the cells `cells`. -/
def Ule.callCells (s : Ule) (cells : List TsPacket) : Ule :=
  s.call (Mem.ofList 0 (cells.flatMap TsPacket.bytes)) (TS_SZ * cells.length)

end Net
end TbsMedia
