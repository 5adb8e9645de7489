import Mathlib
import TbsMedia.Lib.Division
import TbsMedia.Lib.Kfifo
import TbsMedia.Lib.Runs

/-!
# The modulator cards

`tbsmod.c`: a card with four channels, each with a queue of bytes to be sent.  Clients open channels,
set bit rates and write, and DMA interrupts take blocks out of the queues.  On the cards with an
`AD9789` a channel is switched on and off by its bit in a register, which is read and written over SPI
in two transactions, and between these the transactions of other clients can come.

A write that finds no room sleeps and looks again.  The register accesses of the card itself are a log.
Left out are the other properties that can be set, and what a read over SPI does to the device.
-/

namespace TbsMedia
namespace Tbsmod

open Lib Function

/-! ## Constants and data -/

abbrev CHANNELS : ℕ := 4

instance : NeZero CHANNELS := ⟨by decide⟩

def FIFOSIZE : ℕ := 2048 * 1024
def BLOCKSIZE : ℕ := 188 * 96
def BLOCKCEEL : UInt64 := 96

def DMA_GO : ℕ := 0x00
def DMA_SIZE : ℕ := 0x04
def DMA_ADDR_HIGH : ℕ := 0x08
def DMA_ADDR_LOW : ℕ := 0x0c
def DMA_DELAYSHORT : ℕ := 0x18
def DMA_INT_MONITOR : ℕ := 0x1c
def DMA_SPEED_CTRL : ℕ := 0x20
def DMA_FRAME_CNT : ℕ := 0x24
def Dmaout_adapter0 : ℕ := 0x8000
def Int_adapter : ℕ := 0xc000

/-- `struct mod_channel`. -/
structure ModChannel where
  dmavirt : List UInt8
  dmaphy : UInt32
  dmaStartFlag : Bool
  fifo : Kfifo UInt8 FIFOSIZE
  inputBitrate : UInt32

/-- What a client is doing: in `tbsmod_open` or `tbsmod_release` it has yet to read the register, or has
read it into `buff` and has yet to write it.  In `tbsmod_write` it sleeps for the `n`-th time. -/
inductive Client where
  | closed
  | opening (i : Fin CHANNELS)
  | openingRead (i : Fin CHANNELS) (buff : UInt8)
  | opened (i : Fin CHANNELS)
  | writing (i : Fin CHANNELS) (data : List UInt8) (n : ℕ)
  | releasing (i : Fin CHANNELS)
  | releasingRead (i : Fin CHANNELS) (buff : UInt8)

/-- `struct tbs_pcie_dev`, with the register `AD9789_CHANNEL_ENABLE`, the clients, and what has been
written to the registers of the card: address and value. -/
structure TbsPcieDev where
  cardid : ℕ
  channel : Fin CHANNELS → ModChannel
  channelEnable : UInt8
  client : ℕ → Client
  mmio : List (ℕ × UInt32)

/-- The card has an `AD9789`. -/
def rfEnable (dev : TbsPcieDev) : Bool :=
  dev.cardid = 0x6004 ∨ dev.cardid = 0x6104 ∨ dev.cardid = 0x6014

def TbsPcieDev.setClient (dev : TbsPcieDev) (c : ℕ) (client : Client) : TbsPcieDev :=
  { dev with client := update dev.client c client }

@[simp] theorem client_setClient_self (dev : TbsPcieDev) (c : ℕ) (client : Client) :
    (dev.setClient c client).client c = client := update_self ..

theorem client_setClient_of_ne {c c' : ℕ} (h : c' ≠ c) (dev : TbsPcieDev) (client : Client) :
    (dev.setClient c client).client c' = dev.client c' := update_of_ne h ..

def TbsPcieDev.setChannel (dev : TbsPcieDev) (i : Fin CHANNELS) (channel : ModChannel) :
    TbsPcieDev :=
  { dev with channel := update dev.channel i channel }

@[simp] theorem channel_setChannel_self (dev : TbsPcieDev) (i : Fin CHANNELS) (channel : ModChannel) :
    (dev.setChannel i channel).channel i = channel := update_self ..

theorem channel_setChannel_of_ne {i j : Fin CHANNELS} (h : j ≠ i) (dev : TbsPcieDev)
    (channel : ModChannel) : (dev.setChannel i channel).channel j = dev.channel j :=
  update_of_ne h ..

/-- `TBS_PCIE_WRITE`. -/
def TbsPcieDev.write (dev : TbsPcieDev) (addr offst : ℕ) (data : UInt32) : TbsPcieDev :=
  { dev with mmio := dev.mmio ++ [(addr + offst, data)] }

/-- The address of the DMA of a channel. -/
def dmaout (i : Fin CHANNELS) : ℕ := Dmaout_adapter0 + i * 0x1000

/-! ## DMA -/

/-- The part of `start_dma_transfer` that sets the speed. -/
def setSpeed (dev : TbsPcieDev) (i : Fin CHANNELS) : Option TbsPcieDev :=
  let bitrate := (dev.channel i).inputBitrate
  if bitrate ≠ 0 then
    (divU64 (1000000000 * UInt64.ofNat BLOCKSIZE) (bitrate * 1024 * 1024)).map fun speed =>
      let speedctrl := speed.toUInt32
      let dev := dev.write (dmaout i) DMA_SPEED_CTRL speedctrl
      let dev := dev.write (dmaout i) DMA_INT_MONITOR (2 * speedctrl)
      if dev.cardid = 0x690b then
        dev.write (dmaout i) DMA_FRAME_CNT
          ((speedctrl * 9).toUInt64 / (BLOCKCEEL * 10)).toUInt32
      else dev
  else some dev

/-- `start_dma_transfer`, which is `none` where it divides by zero. -/
def startDmaTransfer (dev : TbsPcieDev) (i : Fin CHANNELS) : Option TbsPcieDev :=
  (setSpeed dev i).map fun dev =>
    let dev := dev.write (dmaout i) DMA_SIZE (UInt32.ofNat BLOCKSIZE)
    let dev := dev.write (dmaout i) DMA_ADDR_HIGH 0
    let dev := dev.write (dmaout i) DMA_ADDR_LOW (dev.channel i).dmaphy
    let dev := dev.write (dmaout i) DMA_GO 1
    let dev := dev.write Int_adapter 0x04 1
    dev.write Int_adapter (0x18 + i * 4) 1

/-- The divisor in `channelprocess`. -/
def shortDivisor (channel : ModChannel) : UInt32 := channel.inputBitrate * 1024 * 1024 * 3

/-- `channelprocess`, which is `none` where it divides by zero. -/
def channelprocess (dev : TbsPcieDev) (i : Fin CHANNELS) : Option TbsPcieDev :=
  let pchannel := dev.channel i
  let dev := dev.write Int_adapter 0x00 ((0x10 : UInt32) <<< UInt32.ofNat i)
  if pchannel.fifo.len ≥ BLOCKSIZE then
    startDmaTransfer
      (dev.setChannel i
        { pchannel with
          dmavirt := pchannel.fifo.front BLOCKSIZE, fifo := pchannel.fifo.drop BLOCKSIZE }) i
  else if pchannel.dmaStartFlag = false then some dev
  else
    (divU64 (1000000000 * UInt64.ofNat BLOCKSIZE) (shortDivisor pchannel)).map fun delay =>
      dev.write (dmaout i) DMA_DELAYSHORT delay.toUInt32

/-- The bit of a channel in the status of an interrupt. -/
def dmaStatus (stat : UInt32) (i : Fin CHANNELS) : Bool := stat &&& (0x10 <<< UInt32.ofNat i) ≠ 0

/-- `tbsmod_irq` for the channels of a list. -/
def irqChannels (stat : UInt32) : List (Fin CHANNELS) → TbsPcieDev → Option TbsPcieDev
  | [], dev => some dev
  | i :: is, dev =>
    if dmaStatus stat i then (channelprocess dev i).bind (irqChannels stat is)
    else irqChannels stat is dev

/-- `tbsmod_irq`, which goes from channel 3 to channel 0.  The registers of the interrupt read as `stat`
and `tmp`. -/
def tbsmodIrq (dev : TbsPcieDev) (stat tmp : UInt32) : Option TbsPcieDev :=
  irqChannels stat [3, 2, 1, 0] ((dev.write Int_adapter 0 tmp).write Int_adapter 0x04 1)

/-! ## What clients call -/

/-- `tbsmod_open` up to its first transaction. -/
def tbsmodOpen (dev : TbsPcieDev) (c : ℕ) (i : Fin CHANNELS) : TbsPcieDev :=
  let dev := dev.setChannel i
    { dev.channel i with dmaStartFlag := false, fifo := .empty UInt8 FIFOSIZE }
  dev.setClient c (if rfEnable dev then .opening i else .opened i)

/-- `tbsmod_release` up to its first transaction. -/
def tbsmodRelease (dev : TbsPcieDev) (c : ℕ) (i : Fin CHANNELS) : TbsPcieDev :=
  let dev := dev.write (dmaout i) DMA_GO 0
  let dev := dev.setChannel i { dev.channel i with dmaStartFlag := false }
  dev.setClient c (if rfEnable dev then .releasing i else .closed)

theorem client_tbsmodOpen_of_ne {c c' : ℕ} (h : c' ≠ c) (dev : TbsPcieDev) (i : Fin CHANNELS) :
    (tbsmodOpen dev c i).client c' = dev.client c' := client_setClient_of_ne h ..

theorem client_tbsmodRelease_of_ne {c c' : ℕ} (h : c' ≠ c) (dev : TbsPcieDev) (i : Fin CHANNELS) :
    (tbsmodRelease dev c i).client c' = dev.client c' := client_setClient_of_ne h ..

/-- The bit of a channel. -/
def channelBit (i : Fin CHANNELS) : UInt8 := 1 <<< UInt8.ofNat i

/-- `ad9789_rd_nBytes` of the register.  If it fails, `buff` stays as it was set up, and the callers do
not look at what it returns. -/
def ad9789Rd (dev : TbsPcieDev) (ok : Bool) : UInt8 := if ok then dev.channelEnable else 0

/-- `ad9789_wt_nBytes` of the register. -/
def ad9789Wt (dev : TbsPcieDev) (buff : UInt8) : TbsPcieDev := { dev with channelEnable := buff }

@[simp] theorem client_ad9789Wt (dev : TbsPcieDev) (buff : UInt8) :
    (ad9789Wt dev buff).client = dev.client := rfl

/-- The loop of `tbsmod_write` from its condition on, with a client that has slept `n` times. -/
def writeLoop (dev : TbsPcieDev) (c : ℕ) (i : Fin CHANNELS) (data : List UInt8) (n : ℕ) :
    Option TbsPcieDev :=
  let pchannel := dev.channel i
  if pchannel.fifo.avail < data.length then
    if pchannel.dmaStartFlag = false then
      (startDmaTransfer dev i).map fun dev =>
        (dev.setChannel i { dev.channel i with dmaStartFlag := true }).setClient c
          (.writing i data n)
    else some (dev.setClient c (.writing i data n))
  else
    some ((dev.setChannel i { pchannel with fifo := pchannel.fifo.push data }).setClient c (.opened i))

/-- A client wakes up in `tbsmod_write`, and gives up after it has slept too often. -/
def writeWake (dev : TbsPcieDev) (c : ℕ) (i : Fin CHANNELS) (data : List UInt8) (n : ℕ) :
    Option TbsPcieDev :=
  if n + 1 > 100 then some (dev.setClient c (.opened i)) else writeLoop dev c i data (n + 1)

/-- `MODULATOR_INPUT_BITRATE` of `tbsmod_ioctl`: the value is taken. -/
def accepts (value : UInt32) : Bool := value ≤ 200

/-- `MODULATOR_INPUT_BITRATE` of `tbsmod_ioctl`. -/
def ioctlInputBitrate (dev : TbsPcieDev) (i : Fin CHANNELS) (value : UInt32) : TbsPcieDev :=
  if accepts value then dev.setChannel i { dev.channel i with inputBitrate := value } else dev

/-! ## Runs -/

/-- What can happen next: a client opens, takes the next step of a transaction, which for a read can
fail, sets a bit rate, writes, wakes up or releases, or there is an interrupt. -/
inductive ModEvent where
  | open (c : ℕ) (i : Fin CHANNELS)
  | rd (c : ℕ) (ok : Bool)
  | wt (c : ℕ)
  | inputBitrate (c : ℕ) (value : UInt32)
  | write (c : ℕ) (data : List UInt8)
  | wake (c : ℕ)
  | release (c : ℕ)
  | irq (stat tmp : UInt32)

/-- One event.  It is `none` where the driver divides by zero, and an event that does not fit what its
client is doing does not happen. -/
def step (dev : TbsPcieDev) : ModEvent → Option TbsPcieDev
  | .open c i =>
    match dev.client c with
    | .closed => some (tbsmodOpen dev c i)
    | _ => some dev
  | .rd c ok =>
    match dev.client c with
    | .opening i => some (dev.setClient c (.openingRead i (ad9789Rd dev ok)))
    | .releasing i => some (dev.setClient c (.releasingRead i (ad9789Rd dev ok)))
    | _ => some dev
  | .wt c =>
    match dev.client c with
    | .openingRead i buff => some ((ad9789Wt dev (buff ||| channelBit i)).setClient c (.opened i))
    | .releasingRead i buff =>
      some ((ad9789Wt dev (buff &&& ~~~channelBit i)).setClient c .closed)
    | _ => some dev
  | .inputBitrate c value =>
    match dev.client c with
    | .opened i => some (ioctlInputBitrate dev i value)
    | _ => some dev
  | .write c data =>
    match dev.client c with
    | .opened i => writeLoop dev c i data 0
    | _ => some dev
  | .wake c =>
    match dev.client c with
    | .writing i data n => writeWake dev c i data n
    | _ => some dev
  | .release c =>
    match dev.client c with
    | .opened i => some (tbsmodRelease dev c i)
    | _ => some dev
  | .irq stat tmp => tbsmodIrq dev stat tmp

/-- The card after `tbsmod_probe`: the channels have the bit rate of the card, and the `AD9789` has been
told to switch all channels off. -/
def tbsmodProbe (cardid : ℕ) (dmaphy : Fin CHANNELS → UInt32) : TbsPcieDev where
  cardid := cardid
  channel i :=
    { dmavirt := [], dmaphy := dmaphy i, dmaStartFlag := false, fifo := .empty UInt8 FIFOSIZE
      inputBitrate :=
        if cardid = 0x6004 ∨ cardid = 0x6014 then 50
        else if cardid = 0x6104 then 30
        else if cardid = 0x690b then 80
        else 0 }
  channelEnable := 0
  client _ := .closed
  mmio := []

end Tbsmod
end TbsMedia
