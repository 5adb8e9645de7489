import Mathlib.Logic.Function.Basic
import TbsMedia.Lib.Division
import TbsMedia.Lib.Kfifo
import TbsMedia.Lib.Runs

/-!
# The CI cards

`tbsci.c`: a card with two channels that send a stream through a module.  Clients open a channel, set
its bit rate and write, DMA interrupts queue work, and the work takes blocks out of the queue of the
channel.

A write that finds no room waits for the work to make some.  The register accesses of the card are a
log.  Left out are the way back from the module, and the calls that only access a register.
-/

namespace TbsMedia
namespace Tbsci

open Lib Function

/-! ## Constants and data -/

abbrev CHANNELS : ℕ := 2
def FIFOSIZE : ℕ := 2048 * 1024
def TS_PACKET_SIZE : ℕ := 188
def WRITE_TOTAL_SIZE : ℕ := TS_PACKET_SIZE * 96
def WRITE_BLOCK_CEEL : UInt64 := 96

def DMA_GO : ℕ := 0x00
def DMA_SIZE : ℕ := 0x04
def DMA_ADDR_HIGH : ℕ := 0x08
def DMA_ADDR_LOW : ℕ := 0x0c
def DMA_DELAYSHORT : ℕ := 0x18
def DMA_INT_MONITOR : ℕ := 0x1c
def DMA_SPEED_CTRL : ℕ := 0x20
def DMA_FRAME_CNT : ℕ := 0x24
def pcmcia_adapter0 : ℕ := 0x6000
def dmaout_adapter0 : ℕ := 0xa000
def int_adapter : ℕ := 0xc000

/-- `struct ca_channel`, as far as it is about writing. -/
structure CaChannel where
  writeReady : Bool
  wDmavirt : List UInt8
  wDmaphy : UInt32
  wFifo : Kfifo UInt8 FIFOSIZE
  isOpen : UInt8
  wBitrate : UInt32

/-- What a client is doing: in `ts_write` it waits for the `n`-th time. -/
inductive Client where
  | closed
  | opened (i : Fin CHANNELS)
  | writing (i : Fin CHANNELS) (data : List UInt8) (n : ℕ)

/-- `struct tbs_pcie_dev`, with the work that is queued, the clients, and what has been written to the
registers of the card: address and value. -/
structure TbsPcieDev where
  channnel : Fin CHANNELS → CaChannel
  writeWork : Fin CHANNELS → Bool
  client : ℕ → Client
  mmio : List (ℕ × UInt32)

def TbsPcieDev.setClient (dev : TbsPcieDev) (c : ℕ) (client : Client) : TbsPcieDev :=
  { dev with client := update dev.client c client }

def TbsPcieDev.setChannel (dev : TbsPcieDev) (i : Fin CHANNELS) (channel : CaChannel) :
    TbsPcieDev :=
  { dev with channnel := update dev.channnel i channel }

@[simp] theorem channnel_setChannel_self (dev : TbsPcieDev) (i : Fin CHANNELS) (channel : CaChannel) :
    (dev.setChannel i channel).channnel i = channel := update_self ..

/-- `TBS_PCIE_WRITE`. -/
def TbsPcieDev.write (dev : TbsPcieDev) (addr offst : ℕ) (data : UInt32) : TbsPcieDev :=
  { dev with mmio := dev.mmio ++ [(addr + offst, data)] }

/-- The address of the outgoing DMA of a channel. -/
def dmaout (i : Fin CHANNELS) : ℕ := dmaout_adapter0 + i * 0x1000

/-! ## DMA -/

/-- The divisor in `start_outdma_transfer`. -/
def speedDivisor (chan : CaChannel) : UInt32 := chan.wBitrate * 1024 * 1024

/-- The divisor in `write_dma_work`. -/
def shortDivisor (chan : CaChannel) : UInt32 := chan.wBitrate * 1024 * 1024 * 3

/-- The part of `start_outdma_transfer` that sets the speed. -/
def setSpeed (dev : TbsPcieDev) (i : Fin CHANNELS) : Option TbsPcieDev :=
  if (dev.channnel i).wBitrate ≠ 0 then
    (divU64 (1000000000 * UInt64.ofNat WRITE_TOTAL_SIZE) (speedDivisor (dev.channnel i))).map
      fun speed =>
        let speedctrl := speed.toUInt32
        let dev := dev.write (dmaout i) DMA_SPEED_CTRL speedctrl
        let dev := dev.write (dmaout i) DMA_INT_MONITOR (2 * speedctrl)
        dev.write (dmaout i) DMA_FRAME_CNT (speedctrl.toUInt64 / WRITE_BLOCK_CEEL).toUInt32
  else some dev

/-- `start_outdma_transfer`, which is `none` where it divides by zero. -/
def startOutdmaTransfer (dev : TbsPcieDev) (i : Fin CHANNELS) : Option TbsPcieDev :=
  (setSpeed dev i).map fun dev =>
    let dev := dev.write (dmaout i) DMA_SIZE (UInt32.ofNat WRITE_TOTAL_SIZE)
    let dev := dev.write (dmaout i) DMA_ADDR_HIGH 0
    let dev := dev.write (dmaout i) DMA_ADDR_LOW (dev.channnel i).wDmaphy
    let dev := dev.write (dmaout i) DMA_GO 1
    let dev := dev.write int_adapter 0x04 1
    dev.write int_adapter (0x20 + i * 4) 1

/-- `stop_outdma_transfer`. -/
def stopOutdmaTransfer (dev : TbsPcieDev) (i : Fin CHANNELS) : TbsPcieDev :=
  (dev.write int_adapter (0x20 + i * 4) 0).write (dmaout i) DMA_GO 0

/-- `write_dma_work`, which is `none` where it divides by zero. -/
def writeDmaWork (dev : TbsPcieDev) (i : Fin CHANNELS) : Option TbsPcieDev :=
  let pchannel := dev.channnel i
  if pchannel.wFifo.len ≥ WRITE_TOTAL_SIZE then
    let dev := dev.setChannel i
      { pchannel with
        wDmavirt := pchannel.wFifo.front WRITE_TOTAL_SIZE
        wFifo := pchannel.wFifo.drop WRITE_TOTAL_SIZE }
    (if pchannel.isOpen ≠ 0 then startOutdmaTransfer dev i else some dev).map fun dev =>
      dev.setChannel i { dev.channnel i with writeReady := true }
  else
    (divU64 (1000000000 * UInt64.ofNat WRITE_TOTAL_SIZE) (shortDivisor pchannel)).map fun delay =>
      dev.write (dmaout i) DMA_DELAYSHORT delay.toUInt32

/-- The bit of the outgoing DMA of a channel in the status of an interrupt. -/
def dmaStatus (stat : UInt32) (i : Fin CHANNELS) : Bool := stat &&& (0x40 <<< UInt32.ofNat i) ≠ 0

/-- `tbsci_irq` with the status `stat`. -/
def tbsciIrq (dev : TbsPcieDev) (stat : UInt32) : TbsPcieDev :=
  let dev := (dev.write int_adapter 0 stat).write int_adapter 0x04 1
  { dev with writeWork := fun i => dev.writeWork i || dmaStatus stat i }

/-! ## What clients call -/

/-- `ts_open`. -/
def tsOpen (dev : TbsPcieDev) (i : Fin CHANNELS) : Option TbsPcieDev :=
  let chan := dev.channnel i
  let dev := dev.setChannel i { chan with wFifo := .empty UInt8 FIFOSIZE }
  (if chan.isOpen ≤ 0 then startOutdmaTransfer dev i else some dev).map fun dev =>
    dev.setChannel i { dev.channnel i with isOpen := (dev.channnel i).isOpen + 1 }

/-- `ts_release`. -/
def tsRelease (dev : TbsPcieDev) (i : Fin CHANNELS) : TbsPcieDev :=
  let chan := { dev.channnel i with isOpen := (dev.channnel i).isOpen - 1 }
  let dev := dev.setChannel i chan
  if chan.isOpen ≤ 0 then stopOutdmaTransfer dev i else dev

/-- The loop of `ts_write` from its condition on, with a client that has waited `n` times. -/
def writeLoop (dev : TbsPcieDev) (c : ℕ) (i : Fin CHANNELS) (data : List UInt8) (n : ℕ) :
    TbsPcieDev :=
  let chan := dev.channnel i
  if chan.wFifo.avail < data.length then
    (dev.setChannel i { chan with writeReady := false }).setClient c (.writing i data n)
  else (dev.setChannel i { chan with wFifo := chan.wFifo.push data }).setClient c (.opened i)

/-- A client in `ts_write` is woken up, or its time is up. -/
def writeWake (dev : TbsPcieDev) (c : ℕ) (i : Fin CHANNELS) (data : List UInt8) (n : ℕ)
    (timeout : Bool) : TbsPcieDev :=
  if timeout then dev.setClient c (.opened i)
  else if (dev.channnel i).writeReady = false then dev
  else if n + 1 > 5 then dev.setClient c (.opened i)
  else writeLoop dev c i data (n + 1)

/-- The clock for a bit rate. -/
def clkData (bitrate : UInt32) : UInt32 :=
  if bitrate < 30 then 15
  else if bitrate ≤ 41 then (125 * 188 * 8) / (204 * bitrate * 2) - 1
  else if bitrate ≤ 70 then ((125 * 188 * 8) / (204 * bitrate) - 1) / 2
  else if bitrate > 70 ∧ bitrate < 74 then 6
  else if bitrate ≥ 74 ∧ bitrate < 84 then 0x10
  else if bitrate ≥ 84 ∧ bitrate < 88 then 5
  else if bitrate ≥ 88 ∧ bitrate < 102 then 0x20
  else if bitrate ≥ 102 ∧ bitrate < 110 then 4
  else if bitrate ≥ 110 ∧ bitrate < 119 then 0x30
  else if bitrate ≥ 119 ∧ bitrate < 128 then 0x40
  else if bitrate ≥ 128 ∧ bitrate < 142 then 0x50
  else 3

/-- `MODULATOR_INPUT_BITRATE` of `tbsci_ioctl`. -/
def ioctlInputBitrate (dev : TbsPcieDev) (i : Fin CHANNELS) (value : UInt32) : TbsPcieDev :=
  (dev.setChannel i { dev.channnel i with wBitrate := value }).write
    (pcmcia_adapter0 + i * 0x1000) 0x10 (clkData value)

/-! ## Runs -/

/-- What can happen next: a client opens, sets a bit rate, writes, goes on in a write or releases, there
is an interrupt, or work that is queued is done. -/
inductive CiEvent where
  | open (c : ℕ) (i : Fin CHANNELS)
  | inputBitrate (c : ℕ) (value : UInt32)
  | write (c : ℕ) (data : List UInt8)
  | wake (c : ℕ) (timeout : Bool)
  | release (c : ℕ)
  | irq (stat : UInt32)
  | work (i : Fin CHANNELS)

/-- One event.  It is `none` where the driver divides by zero, and an event that does not fit what its
client is doing does not happen. -/
def step (dev : TbsPcieDev) : CiEvent → Option TbsPcieDev
  | .open c i =>
    match dev.client c with
    | .closed => (tsOpen dev i).map fun dev => dev.setClient c (.opened i)
    | _ => some dev
  | .inputBitrate c value =>
    match dev.client c with
    | .opened i => some (ioctlInputBitrate dev i value)
    | _ => some dev
  | .write c data =>
    match dev.client c with
    | .opened i => some (writeLoop dev c i data 0)
    | _ => some dev
  | .wake c timeout =>
    match dev.client c with
    | .writing i data n => some (writeWake dev c i data n timeout)
    | _ => some dev
  | .release c =>
    match dev.client c with
    | .opened i => some ((tsRelease dev i).setClient c .closed)
    | _ => some dev
  | .irq stat => some (tbsciIrq dev stat)
  | .work i =>
    if dev.writeWork i then
      writeDmaWork { dev with writeWork := update dev.writeWork i false } i
    else some dev

/-- The card after `tbs_adapters_init`. -/
def tbsAdaptersInit (wDmaphy : Fin CHANNELS → UInt32) : TbsPcieDev where
  channnel i :=
    { writeReady := false, wDmavirt := [], wDmaphy := wDmaphy i, wFifo := .empty UInt8 FIFOSIZE
      isOpen := 0, wBitrate := 50 }
  writeWork _ := false
  client _ := .closed
  mmio := []

end Tbsci
end TbsMedia
