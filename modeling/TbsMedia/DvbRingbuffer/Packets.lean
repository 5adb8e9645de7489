import Mathlib
import TbsMedia.DvbRingbuffer.Ringbuffer

/-!
# Packets in a ring buffer

The second half of `dvb_ringbuffer.c`: a ring of bytes that holds packets.  In front of its bytes a
packet has its length, in two bytes, and a byte that says whether it is still to be read.  Packets
are read in any order.  One that has been read is marked as disposed, and its room is given back once
no packet in front of it is left.

A call is one step here.  Positions are `size_t` in the source, and the way from `pread` to a position
is computed modulo `2 ^ 64` before it is taken modulo the size of the ring, and then put into an `int`.
-/

namespace TbsMedia
namespace Ringbuffer

open Lib Function

def PKT_READY : UInt8 := 0
def PKT_DISPOSED : UInt8 := 1
def DVB_RINGBUFFER_PKTHDRSIZE : ℕ := 3

/-- `DVB_RINGBUFFER_PEEK`. -/
def peek (rbuf : DvbRingbuffer UInt8) (offs : ℕ) : UInt8 := rbuf.data ((rbuf.pread + offs) % rbuf.size)

/-- `DVB_RINGBUFFER_SKIP`. -/
def skip (rbuf : DvbRingbuffer UInt8) (num : ℕ) : DvbRingbuffer UInt8 :=
  { rbuf with pread := (rbuf.pread + num) % rbuf.size }

/-- `DVB_RINGBUFFER_WRITE_BYTE`. -/
def writeByte (rbuf : DvbRingbuffer UInt8) (byte : UInt8) : DvbRingbuffer UInt8 :=
  { rbuf with data := update rbuf.data rbuf.pwrite byte, pwrite := (rbuf.pwrite + 1) % rbuf.size }

/-- `dvb_ringbuffer_flush`. -/
def dvbRingbufferFlush (rbuf : DvbRingbuffer UInt8) : DvbRingbuffer UInt8 :=
  { rbuf with pread := rbuf.pwrite }

/-- `dvb_ringbuffer_write`, from its start to its end. -/
def dvbRingbufferWrite (rbuf : DvbRingbuffer UInt8) (buf : List UInt8) : DvbRingbuffer UInt8 :=
  let split := split rbuf.pwrite buf.length rbuf.size
  if split > 0 then
    { rbuf with
      data := (rbuf.data.write rbuf.pwrite (buf.take split)).write 0 (buf.drop split)
      pwrite := (0 + (buf.length - split)) % rbuf.size }
  else
    { rbuf with
      data := rbuf.data.write rbuf.pwrite buf, pwrite := (rbuf.pwrite + buf.length) % rbuf.size }

/-- `dvb_ringbuffer_pkt_write`. -/
def dvbRingbufferPktWrite (rbuf : DvbRingbuffer UInt8) (buf : List UInt8) : DvbRingbuffer UInt8 :=
  let rbuf := writeByte rbuf (UInt8.ofNat (buf.length / 256))
  let rbuf := writeByte rbuf (UInt8.ofNat buf.length)
  dvbRingbufferWrite (writeByte rbuf PKT_READY) buf

/-- The length of the packet at `idx`. -/
def pktlen (rbuf : DvbRingbuffer UInt8) (idx : ℕ) : ℕ :=
  (rbuf.data idx).toNat * 256 + (rbuf.data ((idx + 1) % rbuf.size)).toNat

/-- The loop that fetches `len` bytes from `idx` on. -/
def fetch (rbuf : DvbRingbuffer UInt8) (idx len : ℕ) : List UInt8 :=
  let split := split idx len rbuf.size
  if split > 0 then rbuf.data.read idx split ++ rbuf.data.read 0 (len - split)
  else rbuf.data.read idx len

/-- `dvb_ringbuffer_pkt_read`, and `dvb_ringbuffer_pkt_read_user`: the bytes, or `none` for
`-EINVAL`. -/
def dvbRingbufferPktRead (rbuf : DvbRingbuffer UInt8) (idx offset len : ℕ) : Option (List UInt8) :=
  let pktlen := pktlen rbuf idx
  if offset > pktlen then none
  else
    let len := if offset + len > pktlen then pktlen - offset else len
    some (fetch rbuf ((idx + DVB_RINGBUFFER_PKTHDRSIZE + offset) % rbuf.size) len)

/-- The loop of `dvb_ringbuffer_pkt_dispose`.  A loop that passes more positions than the ring has
does not end. -/
def cleanUp : ℕ → DvbRingbuffer UInt8 → Option (DvbRingbuffer UInt8)
  | 0, _ => none
  | fuel + 1, rbuf =>
    if dvbRingbufferAvail rbuf > DVB_RINGBUFFER_PKTHDRSIZE then
      if peek rbuf 2 = PKT_DISPOSED then
        let pktlen := (peek rbuf 0).toNat * 256 + (peek rbuf 1).toNat
        cleanUp fuel (skip rbuf (pktlen + DVB_RINGBUFFER_PKTHDRSIZE))
      else some rbuf
    else some rbuf

/-- `dvb_ringbuffer_pkt_dispose`. -/
def dvbRingbufferPktDispose (rbuf : DvbRingbuffer UInt8) (idx : ℕ) :
    Option (DvbRingbuffer UInt8) :=
  cleanUp (rbuf.size + 1) { rbuf with data := update rbuf.data ((idx + 2) % rbuf.size) PKT_DISPOSED }

/-- The loop of `dvb_ringbuffer_pkt_next`, with `left` bytes from `idx` on, which are those available
without those consumed.  It goes on for as long as more than three are left. -/
def nextReady (rbuf : DvbRingbuffer UInt8) : ℕ → ℕ → ℤ → Option (ℕ × ℕ)
  | 0, _, _ => none
  | fuel + 1, idx, left =>
    if left > DVB_RINGBUFFER_PKTHDRSIZE then
      let curpktlen := pktlen rbuf idx
      if rbuf.data ((idx + 2) % rbuf.size) = PKT_READY then some (idx, curpktlen)
      else
        nextReady rbuf fuel ((idx + curpktlen + DVB_RINGBUFFER_PKTHDRSIZE) % rbuf.size)
          (left - (curpktlen + DVB_RINGBUFFER_PKTHDRSIZE : ℕ))
    else none

/-- `dvb_ringbuffer_pkt_next`: the position and the length of the next packet.  `none` stands for the
position `-1`, both in front of the first packet and behind the last one. -/
def dvbRingbufferPktNext (rbuf : DvbRingbuffer UInt8) (idx : Option ℕ) : Option (ℕ × ℕ) :=
  let idx :=
    match idx with
    | none => rbuf.pread
    | some idx => (idx + pktlen rbuf idx + DVB_RINGBUFFER_PKTHDRSIZE) % rbuf.size
  let consumed : ℤ := Int.bmod ((idx + 2 ^ 64 - rbuf.pread) % 2 ^ 64 % rbuf.size : ℕ) (2 ^ 32)
  let left := dvbRingbufferAvail rbuf - consumed
  nextReady rbuf left.toNat idx left

end Ringbuffer
end TbsMedia
