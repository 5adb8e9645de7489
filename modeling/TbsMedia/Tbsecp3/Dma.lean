import Mathlib
import TbsMedia.Lib.Ring

/-!
# The DMA of the ECP3 cards

`tbsecp3-dma.c`: the card writes the bytes of a transport stream into sixteen buffers in turn, and a
tasklet hands the packets in them to the demux.  The tasklet stays two buffers behind the card, so
that the buffer behind the one it hands on is complete too: when the first packet of a buffer does
not begin with the buffer, its last packet ends in the next one.  Behind the last buffer there is
room for what the first one has of that packet.

An address is relative to the first buffer.  The card writes while the tasklet runs, so what the ring
holds is an argument for each buffer that the tasklet looks at.  The room behind the last buffer is
written by the tasklet alone.
-/

namespace TbsMedia
namespace Tbsecp3

open Lib

def TS_PACKET_SIZE : ℕ := 188
def TBSECP3_DMA_BUFFERS : ℕ := 16
def TBSECP3_DMA_PRE_BUFFERS : ℕ := 2

/-- `struct tbsecp3_dma_channel`.  `tail` is what is behind the last buffer, and `given` what has been
handed to `dvb_dmx_swfilter_packets`. -/
structure Tbsecp3DmaChannel where
  bufferSize : ℕ
  bufferPkts : ℕ
  offset : ℕ
  cnt : ℕ
  nextBuffer : ℕ
  tail : Mem UInt8
  given : List (List UInt8)

/-- `tbsecp3_dma_init` and `tbsecp3_dma_enable`, with the module parameter `dma_pkts`. -/
def tbsecp3DmaInit (dmaPkts : ℕ) (tail : Mem UInt8) : Tbsecp3DmaChannel :=
  let dmaPkts := if dmaPkts < 16 then 16 else dmaPkts
  let dmaPkts := if dmaPkts > 256 then 256 else dmaPkts
  { bufferSize := dmaPkts * TS_PACKET_SIZE, bufferPkts := dmaPkts, offset := 0, cnt := 0
    nextBuffer := 0, tail, given := [] }

/-- The address of buffer `j`. -/
def Tbsecp3DmaChannel.buf (dma : Tbsecp3DmaChannel) (j : ℕ) : ℕ := j * dma.bufferSize

/-- The memory of the channel: the ring, and the room behind it. -/
def Tbsecp3DmaChannel.mem (dma : Tbsecp3DmaChannel) (ring : Mem UInt8) : Mem UInt8 :=
  fun a => if a < dma.buf TBSECP3_DMA_BUFFERS then ring a
    else dma.tail (a - dma.buf TBSECP3_DMA_BUFFERS)

/-- Four packets seem to begin behind `a`. -/
def syncPattern (mem : Mem UInt8) (a : ℕ) : Bool :=
  mem a = 0x47 ∧ mem (a + TS_PACKET_SIZE) = 0x47 ∧ mem (a + 2 * TS_PACKET_SIZE) = 0x47 ∧
    mem (a + 4 * TS_PACKET_SIZE) = 0x47

/-- The search for the offset of the sync bytes in the buffer at `data`. -/
def syncOffset (mem : Mem UInt8) (data offset : ℕ) : ℕ :=
  if mem (data + offset) ≠ 0x47 then
    ((List.range TS_PACKET_SIZE).find? fun i => syncPattern mem (data + i)).getD offset
  else offset

/-- One turn of the loop of `tbsecp3_dma_tasklet`. -/
def handleBuffer (dma : Tbsecp3DmaChannel) (ring : Mem UInt8) (readBuffer : ℕ) : Tbsecp3DmaChannel :=
  let data := dma.buf readBuffer
  let dma := { dma with offset := syncOffset (dma.mem ring) data dma.offset }
  let dma :=
    if dma.offset ≠ 0 ∧ readBuffer = TBSECP3_DMA_BUFFERS - 1 then
      { dma with tail := dma.tail.write 0 (ring.read (dma.buf 0) dma.offset) }
    else dma
  { dma with
    given := dma.given ++ (List.range dma.bufferPkts).map fun j =>
      (dma.mem ring).read (data + dma.offset + j * TS_PACKET_SIZE) TS_PACKET_SIZE }

/-- The loop of `tbsecp3_dma_tasklet`.  It ends within one round, as `nextBuffer` is a buffer. -/
def handleBuffers (rings : ℕ → Mem UInt8) (nextBuffer : ℕ) :
    ℕ → ℕ → ℕ → Tbsecp3DmaChannel → Tbsecp3DmaChannel
  | 0, _, _, dma => dma
  | fuel + 1, j, readBuffer, dma =>
    if readBuffer ≠ nextBuffer then
      handleBuffers rings nextBuffer fuel (j + 1) ((readBuffer + 1) % TBSECP3_DMA_BUFFERS)
        (handleBuffer dma (rings j) readBuffer)
    else dma

/-- `tbsecp3_dma_tasklet`, when `TBSECP3_DMA_STAT` reads as `stat`.  `rings` is what the ring holds
at the turns of the loop. -/
def tbsecp3DmaTasklet (dma : Tbsecp3DmaChannel) (stat : ℕ) (rings : ℕ → Mem UInt8) :
    Tbsecp3DmaChannel :=
  let nextBuffer :=
    (stat + 2 ^ 32 - TBSECP3_DMA_PRE_BUFFERS + 1) % 2 ^ 32 % TBSECP3_DMA_BUFFERS
  let dma :=
    if dma.cnt < TBSECP3_DMA_PRE_BUFFERS then { dma with cnt := dma.cnt + 1 }
    else handleBuffers rings nextBuffer TBSECP3_DMA_BUFFERS 0 dma.nextBuffer dma
  { dma with nextBuffer }

end Tbsecp3
end TbsMedia
