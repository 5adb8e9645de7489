import TbsMedia.DvbRingbuffer.Packets
import Mathlib.Data.Int.Bitwise

/-!
# The CA interface

`dvb_ca_en50221.c`: the slots of a common interface, the link to the module in a slot, the state
machine that a thread runs for each slot, and what a client of the device calls.

A message goes over the link in fragments.  A fragment is the number of a connection, a byte of which
the top bit says that there is more to come, and a piece of the message.

What the module answers is an argument of a call.  A driver that has no `read_data` and `write_data` of
its own gives the registers of the module instead, and `readData` and `writeData` of the private data
say whether it has.  Left out are `config_base`, `config_option` and the CIS of the module, which the
modelled functions only look at to say whether a module is valid, and the delay of the thread.
-/

namespace TbsMedia
namespace Ca

open Lib Function Ringbuffer

/-! ## Constants and data -/

def HOST_LINK_BUF_SIZE : ℕ := 0x200
def RX_BUFFER_SIZE : ℕ := 65535

def EIO : ℤ := 5
def EAGAIN : ℤ := 11
def EINVAL : ℤ := 22

/-- `STATUSREG_RE`: bit 0 of the status register. -/
def readError (status : ℤ) : Bool := status.testBit 0

/-- `STATUSREG_WE`: bit 1 of the status register. -/
def writeError (status : ℤ) : Bool := status.testBit 1

/-- `STATUSREG_FR`: bit 6 of the status register. -/
def moduleFree (status : ℤ) : Bool := status.testBit 6

/-- `STATUSREG_DA`: bit 7 of the status register. -/
def dataAvailable (status : ℤ) : Bool := status.testBit 7

/-- `DVB_CA_SLOTSTATE_*`. -/
inductive SlotState where
  | NONE
  | UNINITIALISED
  | RUNNING
  | INVALID
  | WAITREADY
  | VALIDATE
  | WAITFR
  | LINKINIT
  deriving DecidableEq

/-- `DVB_CA_EN50221_CAMCHANGE_*`. -/
inductive CamChange where
  | REMOVED
  | INSERTED
  deriving DecidableEq

/-- `struct dvb_ca_slot`.  `rxBuffer` is `none` until there is memory for it. -/
structure DvbCaSlot where
  slotState : SlotState
  camchangeCount : ℤ
  camchangeType : CamChange
  linkBufSize : ℕ
  rxBuffer : Option (DvbRingbuffer UInt8)

/-- `struct dvb_ca_private`.  `irqCamchange` is `DVB_CA_EN50221_FLAG_IRQ_CAMCHANGE`, and the last three
say which functions the driver has. -/
structure DvbCaPrivate where
  slotCount : ℕ
  slotInfo : ℕ → DvbCaSlot
  «open» : Bool
  nextReadSlot : ℕ
  irqCamchange : Bool
  readData : Bool
  writeData : Bool
  pollSlotStatus : Bool

/-- The interface with another slot `s`. -/
def DvbCaPrivate.setSlot (ca : DvbCaPrivate) (s : ℕ) (slot : DvbCaSlot) : DvbCaPrivate :=
  { ca with slotInfo := update ca.slotInfo s slot }

@[simp] theorem slotInfo_setSlot_self (ca : DvbCaPrivate) (s : ℕ) (slot : DvbCaSlot) :
    (ca.setSlot s slot).slotInfo s = slot := update_self ..

theorem slotInfo_setSlot_of_ne {s s' : ℕ} (h : s' ≠ s) (ca : DvbCaPrivate) (slot : DvbCaSlot) :
    (ca.setSlot s slot).slotInfo s' = ca.slotInfo s' := update_of_ne h ..

/-! ## The link -/

/-- What `dvb_ca_en50221_read_data` meets: what `read_data` of the driver returns, or what the status
register, the two bytes of the size, the data, and the status register again read as. -/
structure CamRead where
  direct : ℤ
  directData : ℕ → UInt8
  status : ℤ
  sizeHigh : ℤ
  sizeLow : ℤ
  data : ℕ → ℤ
  statusAfter : ℤ

/-- The register reads of `dvb_ca_en50221_read_data`, for at most `limit` bytes: the status, what is
in `buf`, and whether the link is to be initialised again. -/
def readRegisters (ans : CamRead) (ebuf : Bool) (limit : ℕ) : ℤ × List UInt8 × Bool :=
  if ans.status < 0 then (ans.status, [], false)
  else if !dataAvailable ans.status then (0, [], false)
  else if ans.sizeHigh < 0 then (ans.sizeHigh, [], false)
  else if ans.sizeLow < 0 then (ans.sizeLow, [], false)
  else
    let bytesRead := (ans.sizeHigh.toNat <<< 8) ||| ans.sizeLow.toNat
    if bytesRead > limit then (- EIO, [], !ebuf)
    else if !ebuf ∧ bytesRead < 2 then (- EIO, [], true)
    else
      match (List.range bytesRead).find? fun i => ans.data i < 0 with
      | some i => (ans.data i, [], false)
      | none =>
        if ans.statusAfter < 0 then (ans.statusAfter, [], false)
        else if readError ans.statusAfter then (- EIO, [], true)
        else (bytesRead, (List.range bytesRead).map fun i => UInt8.ofNat (ans.data i).toNat, false)

/-- The part of `dvb_ca_en50221_read_data` that gets the bytes. -/
def readBytes (ca : DvbCaPrivate) (s : ℕ) (ans : CamRead) (ebuf : Bool) (limit : ℕ) :
    ℤ × List UInt8 × Bool :=
  if ca.readData ∧ (ca.slotInfo s).slotState ≠ .LINKINIT then
    if ans.direct < 0 then (ans.direct, [], false)
    else (ans.direct, (List.range ans.direct.toNat).map ans.directData, false)
  else readRegisters ans ebuf limit

/-- What `dvb_ca_en50221_write_data` meets: what `write_data` of the driver returns for a number of
bytes, or what the status register reads as, and which errors the commands have, `0` for none. -/
structure CamWrite where
  direct : ℕ → ℤ
  direct_le : ∀ n, direct n ≤ n
  status : ℤ
  hc : ℕ
  statusFree : ℤ
  statusAgain : ℤ
  sizeHigh : ℕ
  sizeLow : ℕ
  data : ℕ → ℕ
  statusAfter : ℤ

/-- The register accesses of `dvb_ca_en50221_write_data` for `n` bytes: the status, and whether the
link is to be initialised again. -/
def writeRegisters (ans : CamWrite) (n : ℕ) : ℤ × Bool :=
  if ans.status < 0 then (ans.status, false)
  else if dataAvailable ans.status ∨ readError ans.status then (-EAGAIN, false)
  else if ans.hc ≠ 0 then (-ans.hc, false)
  else if ans.statusFree < 0 then (ans.statusFree, false)
  else if !moduleFree ans.statusFree then (-EAGAIN, false)
  else if ans.statusAgain < 0 then (ans.statusAgain, false)
  else if dataAvailable ans.statusAgain ∨ readError ans.statusAgain then (-EAGAIN, false)
  else if ans.sizeHigh ≠ 0 then (-ans.sizeHigh, false)
  else if ans.sizeLow ≠ 0 then (-ans.sizeLow, false)
  else
    match (List.range n).find? fun i => ans.data i ≠ 0 with
    | some i => (-ans.data i, false)
    | none =>
      if ans.statusAfter < 0 then (ans.statusAfter, false)
      else if writeError ans.statusAfter then (- EIO, true)
      else (n, false)

/-- `dvb_ca_en50221_write_data`. -/
def dvbCaEn50221WriteData (ca : DvbCaPrivate) (s : ℕ) (ans : CamWrite) (buf : List UInt8) :
    ℤ × DvbCaPrivate :=
  let sl := ca.slotInfo s
  if buf.length > sl.linkBufSize then (-EINVAL, ca)
  else if ca.writeData ∧ sl.slotState ≠ .LINKINIT then (ans.direct buf.length, ca)
  else
    let (status, linkinit) := writeRegisters ans buf.length
    (status, if linkinit then ca.setSlot s { sl with slotState := .LINKINIT } else ca)

/-- What `dvb_ca_en50221_link_init` meets: the errors of its four commands and of its two waits, and
the link itself. -/
structure LinkAnswers where
  commandSr : ℤ
  waitDa : ℤ
  read : CamRead
  command : ℤ
  commandSw : ℤ
  waitFr : ℤ
  write : CamWrite
  commandDone : ℤ

/-- `dvb_ca_en50221_link_init`. -/
def dvbCaEn50221LinkInit (ca : DvbCaPrivate) (s : ℕ) (ans : LinkAnswers) : ℤ × DvbCaPrivate :=
  let ca := ca.setSlot s { ca.slotInfo s with linkBufSize := 2 }
  if ans.commandSr ≠ 0 then (ans.commandSr, ca)
  else if ans.waitDa ≠ 0 then (ans.waitDa, ca)
  else
    let (ret, buf, linkinit) := readBytes ca s ans.read true 2
    let ca := if linkinit then ca.setSlot s { ca.slotInfo s with slotState := .LINKINIT } else ca
    if ret ≠ 2 then (- EIO, ca)
    else if ans.command ≠ 0 then (ans.command, ca)
    else
      let bufSize := ((buf.getD 0 0).toNat <<< 8) ||| (buf.getD 1 0).toNat
      let bufSize := if bufSize > HOST_LINK_BUF_SIZE then HOST_LINK_BUF_SIZE else bufSize
      let ca := ca.setSlot s { ca.slotInfo s with linkBufSize := bufSize }
      if ans.commandSw ≠ 0 then (ans.commandSw, ca)
      else if ans.waitFr ≠ 0 then (ans.waitFr, ca)
      else
        let (ret, ca) := dvbCaEn50221WriteData ca s ans.write
          [UInt8.ofNat (bufSize >>> 8), UInt8.ofNat bufSize]
        if ret ≠ 2 then (- EIO, ca) else (ans.commandDone, ca)

/-! ## Writing a message -/

/-- What one try to write a fragment meets: whether the slot is still running, and the link. -/
structure WriteTry where
  running : Bool
  link : CamWrite

/-- The tries to write one fragment, until time is up: the status, which is the length of the fragment
if it has been written. -/
def writeFragment (ca : DvbCaPrivate) (s : ℕ) (frag : List UInt8) : List WriteTry → ℤ × DvbCaPrivate
  | [] => (- EIO, ca)
  | t :: tries =>
    if !t.running ∨ (ca.slotInfo s).slotState ≠ .RUNNING then (- EIO, ca)
    else
      let (status, ca) := dvbCaEn50221WriteData ca s t.link frag
      if status = frag.length then (status, ca)
      else if status ≠ -EAGAIN then (status, ca)
      else writeFragment ca s frag tries

/-- The loop of `dvb_ca_en50221_io_write` over the fragments of `msg`, from `fragpos` on: the status,
the fragments that have been written, and the interface.  `tries` is for the fragments in turn. -/
def writeLoop (s : ℕ) (connectionId : UInt8) (msg : List UInt8) (tries : ℕ → List WriteTry) :
    ℕ → ℕ → ℕ → DvbCaPrivate → Option (ℤ × List (List UInt8) × DvbCaPrivate)
  | 0, _, _, _ => none
  | fuel + 1, n, fragpos, ca =>
    if fragpos < msg.length then
      let fraglen : ℤ := (ca.slotInfo s).linkBufSize - 2
      if fraglen < 0 then some (msg.length + 2, [], ca)
      else
        let fraglen := min fraglen.toNat (HOST_LINK_BUF_SIZE - 2)
        let fraglen := if msg.length - fragpos < fraglen then msg.length - fragpos else fraglen
        let more : UInt8 := if fragpos + fraglen < msg.length then 0x80 else 0x00
        let fragbuf := connectionId :: more :: (msg.drop fragpos).take fraglen
        let (status, ca) := writeFragment ca s fragbuf (tries n)
        if status ≠ fragbuf.length then some (status, [], ca)
        else
          (writeLoop s connectionId msg tries fuel (n + 1) (fragpos + fraglen) ca).map
            fun (status, frags, ca) => (status, fragbuf :: frags, ca)
    else some (msg.length + 2, [], ca)

/-- `dvb_ca_en50221_io_write`.  What is sent is in front of the message: its slot and its connection. -/
def dvbCaEn50221IoWrite (fuel : ℕ) (tries : ℕ → List WriteTry) (ca : DvbCaPrivate) :
    List UInt8 → Option (ℤ × List (List UInt8) × DvbCaPrivate)
  | slot :: connectionId :: msg =>
    if slot.toNat ≥ ca.slotCount then some (-EINVAL, [], ca)
    else if (ca.slotInfo slot.toNat).slotState ≠ .RUNNING then some (-EINVAL, [], ca)
    else writeLoop slot.toNat connectionId msg tries fuel 0 0 ca
  | _ => some (-EINVAL, [], ca)

/-! ## Reading a message -/

/-- `dvb_ringbuffer_pkt_read(…, idx, 0, hdr, 2)`.  What the packet does not have of the two bytes stays
as it was. -/
def readHdr (rbuf : DvbRingbuffer UInt8) (idx : ℕ) (hdr : UInt8 × UInt8) : UInt8 × UInt8 :=
  match dvbRingbufferPktRead rbuf idx 0 2 with
  | some (b :: b' :: _) => (b, b')
  | some [b] => (b, hdr.2)
  | _ => hdr

/-- The inner loop of `dvb_ca_en50221_io_read_condition`, over the packets of one slot: whether there is
a last fragment of the connection, the connection, and `hdr`. -/
def scanSlot (rbuf : DvbRingbuffer UInt8) :
    ℕ → Option UInt8 → UInt8 × UInt8 → Option ℕ → Option (Bool × Option UInt8 × (UInt8 × UInt8))
  | 0, _, _, _ => none
  | _ + 1, connectionId, hdr, none => some (false, connectionId, hdr)
  | fuel + 1, connectionId, hdr, some idx =>
    let hdr := readHdr rbuf idx hdr
    let connectionId := connectionId.getD hdr.1
    if hdr.1 = connectionId ∧ hdr.2 &&& 0x80 = 0 then some (true, some connectionId, hdr)
    else
      scanSlot rbuf fuel (some connectionId) hdr ((dvbRingbufferPktNext rbuf (some idx)).map Prod.fst)

/-- The outer loop, over the slots from `slot` on: the slot that has been found, and the slot at which
the next call is to begin, if it is stored. -/
def scanSlots (fuel : ℕ) (ca : DvbCaPrivate) :
    ℕ → ℕ → Option UInt8 → UInt8 × UInt8 → Option (Option ℕ × Option ℕ)
  | 0, slot, _, _ => some (none, some slot)
  | n + 1, slot, connectionId, hdr =>
    let next := (slot + 1) % ca.slotCount
    if (ca.slotInfo slot).slotState ≠ .RUNNING then scanSlots fuel ca n next connectionId hdr
    else
      match (ca.slotInfo slot).rxBuffer with
      | none => some (none, none)
      | some rbuf =>
        match scanSlot rbuf fuel connectionId hdr ((dvbRingbufferPktNext rbuf none).map Prod.fst) with
        | none => none
        | some (true, _) => some (some slot, some next)
        | some (false, connectionId, hdr) => scanSlots fuel ca n next connectionId hdr

/-- `dvb_ca_en50221_io_read_condition`: the slot with a message, if any.  `hdr` is what the stack holds
there. -/
def dvbCaEn50221IoReadCondition (fuel : ℕ) (ca : DvbCaPrivate) (hdr : UInt8 × UInt8) :
    Option (Option ℕ × DvbCaPrivate) :=
  (scanSlots fuel ca ca.slotCount ca.nextReadSlot none hdr).map fun r =>
    (r.1, { ca with nextReadSlot := r.2.getD ca.nextReadSlot })

/-- The loop of `dvb_ca_en50221_io_read`: the status, the connection, what has been copied behind the
first two bytes, and the receive buffer. -/
def readLoop (count : ℕ) : ℕ → DvbRingbuffer UInt8 → Option (ℕ × ℕ) → Option UInt8 →
    UInt8 × UInt8 → ℕ → List UInt8 →
    Option (ℤ × Option UInt8 × List UInt8 × DvbRingbuffer UInt8)
  | 0, _, _, _, _, _, _ => none
  | _ + 1, rbuf, none, connectionId, _, _, out => some (- EIO, connectionId, out, rbuf)
  | fuel + 1, rbuf, some (idx, fraglen), connectionId, hdr, pktlen, out =>
    let hdr := readHdr rbuf idx hdr
    let connectionId := connectionId.getD hdr.1
    let next := dvbRingbufferPktNext rbuf (some idx)
    if hdr.1 ≠ connectionId then readLoop count fuel rbuf next (some connectionId) hdr pktlen out
    else
      let fraglen :=
        if pktlen < count then
          if pktlen + fraglen - 2 > count then count - pktlen else fraglen - 2
        else 0
      let part := if pktlen < count then dvbRingbufferPktRead rbuf idx 2 fraglen else some []
      match part with
      | none => some (-EINVAL, some connectionId, out, rbuf)
      | some part =>
        match dvbRingbufferPktDispose rbuf idx with
        | none => none
        | some rbuf =>
          if hdr.2 &&& 0x80 = 0 then
            some ((pktlen + fraglen : ℕ), some connectionId, out ++ part, rbuf)
          else readLoop count fuel rbuf next (some connectionId) hdr (pktlen + fraglen) (out ++ part)

/-- `dvb_ca_en50221_io_read`: the status, what is in the buffer of the client, and the interface.  It is
`none` while the call has to wait. -/
def dvbCaEn50221IoRead (fuel : ℕ) (nonblock : Bool) (hdr : UInt8 × UInt8) (ca : DvbCaPrivate)
    (count : ℕ) : Option (ℤ × List UInt8 × DvbCaPrivate) :=
  if count < 2 then some (-EINVAL, [], ca)
  else
    match dvbCaEn50221IoReadCondition fuel ca hdr with
    | none => none
    | some (none, ca) => if nonblock then some (-EAGAIN, [], ca) else none
    | some (some s, ca) =>
      match (ca.slotInfo s).rxBuffer with
      | none => none
      | some rbuf =>
        (readLoop count fuel rbuf (dvbRingbufferPktNext rbuf none) none hdr 2 []).map
          fun (status, connectionId, out, rbuf) =>
            (status,
              if status < 0 then out else UInt8.ofNat s :: connectionId.getD 0 :: out,
              ca.setSlot s { ca.slotInfo s with rxBuffer := some rbuf })

end Ca
end TbsMedia
