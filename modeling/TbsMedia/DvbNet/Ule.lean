import TbsMedia.Lib.Crc32
import TbsMedia.Lib.Memory
import Mathlib.Data.Int.Notation
import Mathlib.Logic.Function.Iterate

/-!
# The ULE decapsulator

`dvb_net.c`: the decapsulation of SNDUs from the transport stream cells of one PID, `dvb_net_ule`
and the functions it calls, and the handling of the extension headers.

The loop of `dvb_net_ule` is resumed in the middle of a cell and in the middle of an SNDU, and one
of the functions it calls has a loop of its own.  It is modelled as a machine: `Pc` is a point of
the program, and `uleStep` runs from one point to the next.  Where a function of the source has
several parts with an effect on the cell cursor, each part is a step of its own.

Addresses of the cell buffer count from `h.buf`.  Addresses of an skb count from where `data` is
after its allocation.  An access to an skb outside the allocated memory, and the call of a handler
from outside its table, have no defined behaviour: the machine stops at the point `fault`.

Five fields of the state have no counterpart in the source.  `reads` is where the processing of a
complete SNDU has read in its skb, each address with the `tail` at that time, and `pulls` is what it
has pulled from it, each length with the `len` at that time.  `rx` is what has been handed to
`netif_rx`, `allocs` counts the calls of `dev_alloc_skb`, and `size` is the end of an skb's memory.
-/

namespace TbsMedia
namespace Net

open Lib

/-! ## Constants -/

def TS_SZ : ℕ := 188
def TS_SYNC : UInt8 := 0x47
def TS_TEI : UInt8 := 0x80
def TS_SC : UInt8 := 0xc0
def TS_PUSI : UInt8 := 0x40

def ETH_ALEN : ℕ := 6
def ETH_HLEN : ℕ := 14
def ETH_P_802_3_MIN : ℕ := 0x0600
def ETH_P_802_3 : ℕ := 0x0001
def ETH_P_802_2 : ℕ := 0x0004

/-! ## Data -/

/-- `rx_mode`. -/
inductive RxMode where
  | RX_MODE_UNI
  | RX_MODE_MULTI
  | RX_MODE_ALL_MULTI
  | RX_MODE_PROMISC
  deriving DecidableEq

/-- `struct sk_buff`: a linear buffer. -/
structure SkBuff where
  mem : Mem UInt8
  size : ℕ
  data : ℕ
  tail : ℕ
  len : ℕ

/-- `pkt_type`. -/
inductive PktType where
  | PACKET_HOST
  | PACKET_BROADCAST
  | PACKET_MULTICAST
  deriving DecidableEq

/-- What is handed to `netif_rx`: the bytes from the MAC header on. -/
structure RxFrame where
  frame : List UInt8
  pktType : PktType
  protocol : ℕ
  deriving DecidableEq

/-- `struct dvb_net_priv`, the part that ULE uses. -/
structure DvbNetPriv where
  rxMode : RxMode
  multiMacs : List (List UInt8)
  needPusi : Bool
  tscc : ℕ
  uleSkb : Option SkBuff
  uleNextHdr : ℕ
  uleSnduLen : ℕ
  uleSnduType : ℕ
  uleSnduType1 : Bool
  uleDbit : UInt8
  uleBridged : Bool
  uleSnduRemain : ℕ
  reads : List (ℕ × ℕ)
  pulls : List (ℕ × ℕ)

/-- `struct dvb_net_ule_handle`.  `ts_remain` is an unsigned byte. -/
structure DvbNetUleHandle where
  buf : Mem UInt8
  ts : ℕ
  tsEnd : ℕ
  fromWhere : ℕ
  tsRemain : ℕ
  newTs : Bool
  error : Bool

/-- The counters of the network device. -/
structure NetDeviceStats where
  rxPackets : ℕ
  rxBytes : ℕ
  rxErrors : ℕ
  rxDropped : ℕ
  rxLengthErrors : ℕ
  rxCrcErrors : ℕ
  rxFrameErrors : ℕ
  deriving DecidableEq

/-- What the decapsulator takes from the kernel and from its network device: the CRC routine, the
memory that the `n`-th call of `dev_alloc_skb` yields, if it does, and where this memory ends, and
the addresses and the header length of the device. -/
structure UleOps where
  crc32Be : UInt32 → List UInt8 → UInt32
  crc32Be_append : ∀ crc xs ys, crc32Be crc (xs ++ ys) = crc32Be (crc32Be crc xs) ys
  devAllocSkb : ℕ → ℕ → Option (Mem UInt8 × ℕ)
  le_size : ∀ {n len m size}, devAllocSkb n len = some (m, size) → len ≤ size
  devAddr : List UInt8
  broadcast : List UInt8
  hardHeaderLen : ℕ

/-- Where the program is. -/
inductive Pc where
  /-- At the head of the loop over the cells. -/
  | cell
  /-- Synchronize on PUSI, if required. -/
  | pusi
  /-- In front of `dvb_net_ule_new_ts`. -/
  | newTs
  /-- In `dvb_net_ule_new_ts`, in front of the check of the pointer field. -/
  | pointer
  /-- In `dvb_net_ule_new_ts`, in front of the check of the missing bytes. -/
  | flush
  /-- Check if a new payload needs to be started. -/
  | payload
  /-- In `dvb_net_ule_new_payload`, behind the length field. -/
  | sndType
  /-- Copy data into the current skb. -/
  | copy
  /-- Check for a complete payload. -/
  | complete
  /-- In `handle_ule_extensions`, with its `total_ext_len`. -/
  | ext (destAddr : List UInt8) (total : ℤ)
  /-- In `dvb_net_ule_check_crc`, behind the extension headers. -/
  | deliver (destAddr : List UInt8)
  /-- More data in the current cell? -/
  | more
  /-- `dvb_net_ule` has returned. -/
  | done
  /-- Undefined behaviour. -/
  | fault
  deriving DecidableEq

/-- The state of the machine. -/
structure Ule where
  pc : Pc
  h : DvbNetUleHandle
  p : DvbNetPriv
  stats : NetDeviceStats
  rx : List RxFrame
  allocs : ℕ

/-- A big-endian word. -/
def be16 (hi lo : UInt8) : ℕ := hi.toNat <<< 8 ||| lo.toNat

theorem be16_eq (hi lo : UInt8) : be16 hi lo = hi.toNat * 256 + lo.toNat := by
  have hlo : lo.toNat < 2 ^ 8 := lo.toNat_lt
  rw [be16, ← Nat.shiftLeft_add_eq_or_of_lt hlo, Nat.shiftLeft_eq]

/-- `a -= b` on an unsigned byte. -/
def u8Sub (a b : ℕ) : ℕ := (a + 256 - b % 256) % 256

theorem u8Sub_of_le {a b : ℕ} (ha : a < 256) (hb : b ≤ a) : u8Sub a b = a - b := by
  unfold u8Sub
  omega

/-- `reset_ule`. -/
def resetUle (p : DvbNetPriv) : DvbNetPriv :=
  { p with
    uleSkb := none
    uleNextHdr := 0
    uleSnduLen := 0
    uleSnduType := 0
    uleSnduType1 := false
    uleSnduRemain := 0
    uleDbit := 0xff
    uleBridged := false }

/-! ## Socket buffers -/

/-- `dev_alloc_skb`, and `skb_reserve` of the room for the Ethernet or bridged SNDU header. -/
def newSkb (mem : Mem UInt8) (size : ℕ) : SkBuff :=
  ⟨mem, size, ETH_HLEN + ETH_ALEN, ETH_HLEN + ETH_ALEN, 0⟩

/-- `skb_put_data`. -/
def skbPutData (skb : SkBuff) (bs : List UInt8) : SkBuff :=
  { skb with
    mem := skb.mem.write skb.tail bs, tail := skb.tail + bs.length, len := skb.len + bs.length }

/-- `skb_pull`, which does nothing where there is less than `len`. -/
def skbPull (skb : SkBuff) (len : ℕ) : SkBuff :=
  if len > skb.len then skb else { skb with data := skb.data + len, len := skb.len - len }

/-- `skb_push`. -/
def skbPush (skb : SkBuff) (len : ℕ) : SkBuff :=
  { skb with data := skb.data - len, len := skb.len + len }

/-- The skb without the CRC at its end. -/
def SkBuff.trim (skb : SkBuff) : SkBuff := { skb with tail := skb.tail - 4, len := skb.len - 4 }

/-- The current skb, of which the `n` bytes from address `a` on are about to be read. -/
def touch (p : DvbNetPriv) (a n : ℕ) : Option (SkBuff × DvbNetPriv) :=
  match p.uleSkb with
  | none => none
  | some skb =>
    if a + n ≤ skb.size then
      some (skb, { p with reads := p.reads ++ (List.range n).map fun i => (a + i, skb.tail) })
    else none

/-- The big-endian word at address `a` of the current skb. -/
def loadBe16 (p : DvbNetPriv) (a : ℕ) : Option (ℕ × DvbNetPriv) :=
  (touch p a 2).map fun (skb, p) => (be16 (skb.mem a) (skb.mem (a + 1)), p)

/-- Pull `len` bytes from the current skb. -/
def pull (p : DvbNetPriv) (len : ℕ) : DvbNetPriv :=
  match p.uleSkb with
  | none => p
  | some skb =>
    { p with uleSkb := some (skbPull skb len), pulls := p.pulls ++ [(len, skb.len)] }

/-! ## Extension headers -/

/-- A handler of extension headers: the number of bytes it has consumed, or a negative number. -/
abbrev ExtHandler := DvbNetPriv → Option (ℤ × DvbNetPriv)

/-- `ule_test_sndu`. -/
def uleTestSndu : ExtHandler := fun p => some (-1, p)

/-- `ule_bridged_sndu`. -/
def uleBridgedSndu : ExtHandler := fun p => do
  let (hProto, p) ← loadBe16 p (p.uleNextHdr + 2 * ETH_ALEN)
  let skb ← p.uleSkb
  let framelen : ℤ := p.uleSnduLen - ((p.uleNextHdr + ETH_HLEN : ℕ) - skb.data)
  if hProto < ETH_P_802_3_MIN ∧ framelen ≠ hProto then return (-1, p)
  else return (0, { p with uleBridged := true })

/-- `ule_exthdr_padding`. -/
def uleExthdrPadding : ExtHandler := fun p => some (0, p)

/-- The handlers of mandatory extension headers; the header type is the index. -/
def uleMandatoryExtHandlers : ℕ → Option ExtHandler
  | 0 => some uleTestSndu
  | 1 => some uleBridgedSndu
  | _ => none

/-- The handlers of optional extension headers; the header type is the index. -/
def uleOptionalExtHandlers : ℕ → Option ExtHandler
  | 0 => some uleExthdrPadding
  | _ => none

/-- `handle_one_ule_extension`, a mandatory extension header. -/
def handleMandatoryExtension (htype : ℕ) : ExtHandler := fun p =>
  match uleMandatoryExtHandlers htype with
  | none => some (-1, p)
  | some handler => do
    let (extLen, p) ← handler p
    if extLen ≥ 0 then
      let p := { p with uleNextHdr := p.uleNextHdr + extLen.toNat }
      if !p.uleBridged then
        let (type, p) ← loadBe16 p p.uleNextHdr
        return (extLen, { p with uleSnduType := type, uleNextHdr := p.uleNextHdr + 2 })
      else
        let (type, p) ← loadBe16 p (p.uleNextHdr + (if p.uleDbit ≠ 0 then 2 else 3) * ETH_ALEN)
        return (extLen, { p with uleSnduType := type })
    else return (extLen, p)

/-- The call of the handler of an optional extension header, where there is one. -/
def processOptional (htype : ℕ) : ExtHandler := fun p =>
  match uleOptionalExtHandlers htype with
  | none => some (0, p)
  | some handler => handler p

/-- `handle_one_ule_extension`, an optional extension header. -/
def handleOptionalExtension (hlen htype : ℕ) : ExtHandler := fun p => do
  let extLen := hlen <<< 1
  let (_, p) ← processOptional htype p
  let p := { p with uleNextHdr := p.uleNextHdr + extLen }
  let (type, p) ← loadBe16 p (p.uleNextHdr - 2)
  return (extLen, { p with uleSnduType := type })

/-- `handle_one_ule_extension`.  The tables of handlers have 255 entries. -/
def handleOneUleExtension : ExtHandler := fun p =>
  let hlen := (p.uleSnduType &&& 0x0700) >>> 8
  let htype := p.uleSnduType &&& 0x00ff
  if htype ≥ 255 then none
  else if hlen = 0 then handleMandatoryExtension htype p
  else handleOptionalExtension hlen htype p

/-! ## Entering a cell -/

/-- The current point of the program becomes `pc`. -/
def Ule.goto (s : Ule) (pc : Pc) : Ule := { s with pc }

/-- `h.ts += TS_SZ`, and on with the loop. -/
def Ule.nextCell (s : Ule) : Ule := { s with pc := .cell, h.ts := s.h.ts + TS_SZ }

/-- The cell cursor moves on by `k` bytes. -/
def Ule.advance (s : Ule) (k : ℕ) : Ule :=
  { s with h.fromWhere := s.h.fromWhere + k, h.tsRemain := u8Sub s.h.tsRemain k }

/-- Reset the decoder state, resync on PUSI. -/
def Ule.resync (s : Ule) : Ule := { s with p := { resetUle s.p with needPusi := true } }

/-- The errors that a dropped SNDU counts for, where `lost` says that there is one. -/
def Ule.countFrameError (s : Ule) (lost : Bool) : Ule :=
  { s with
    stats := if lost then { s.stats with
        rxErrors := s.stats.rxErrors + 1, rxFrameErrors := s.stats.rxFrameErrors + 1 }
      else s.stats }

/-- The errors that an impossible length counts for. -/
def Ule.countLengthError (s : Ule) : Ule :=
  { s with
    stats.rxErrors := s.stats.rxErrors + 1, stats.rxLengthErrors := s.stats.rxLengthErrors + 1 }

/-- `dvb_net_ule_new_ts_cell`. -/
def dvbNetUleNewTsCell (s : Ule) : Ule :=
  let ts := s.h.ts
  if s.h.buf ts ≠ TS_SYNC ∨ s.h.buf (ts + 1) &&& TS_TEI ≠ 0 ∨ s.h.buf (ts + 3) &&& TS_SC ≠ 0 then
    ((s.countFrameError s.p.uleSkb.isSome).resync).nextCell
  else { s with pc := .pusi, h.tsRemain := 184, h.fromWhere := ts + 4 }

/-- `dvb_net_ule_ts_pusi`. -/
def dvbNetUleTsPusi (s : Ule) : Ule :=
  let ts := s.h.ts
  if s.h.buf (ts + 1) &&& TS_PUSI ≠ 0 then
    let s := { s with p.tscc := (s.h.buf (ts + 3) &&& 0x0f).toNat }
    let pf := (s.h.buf (ts + 4)).toNat
    if pf > s.h.tsRemain then s.nextCell
    else
      { s with
        pc := .newTs, h.fromWhere := ts + 5 + pf, h.tsRemain := u8Sub s.h.tsRemain (1 + pf) }
  else s.nextCell

/-- `dvb_net_ule_new_ts`, the check of the continuity counter. -/
def dvbNetUleNewTs (s : Ule) : Ule :=
  if (s.h.buf (s.h.ts + 3) &&& 0x0f).toNat = s.p.tscc then
    { s with pc := .pointer, p.tscc := (s.p.tscc + 1) % 16 }
  else ((s.countFrameError s.p.uleSkb.isSome).resync).goto .cell

/-- `dvb_net_ule_new_ts`, the check of the pointer field. -/
def dvbNetUleNewTsPointer (s : Ule) : Ule :=
  if s.h.buf (s.h.ts + 1) &&& TS_PUSI ≠ 0 then
    if !s.p.needPusi then
      let pf := (s.h.buf s.h.fromWhere).toNat
      if ¬ pf + 1 < s.h.tsRemain ∨ pf ≠ s.p.uleSnduRemain then
        let error := s.h.error || s.p.uleSkb.isSome
        let lost := error || decide (s.p.uleSnduRemain ≠ 0)
        (({ s with h.error := error && !lost }.countFrameError lost).resync).goto .cell
      else (s.advance 1).goto .flush
    else { s with pc := .flush, p.needPusi := false }
  else s.goto .payload

/-- `dvb_net_ule_new_ts`, where more bytes are missing than there could be in a cell. -/
def dvbNetUleNewTsFlush (s : Ule) : Ule :=
  if s.p.uleSnduRemain > 183 then
    ({ s.countLengthError with p := resetUle s.p }.advance
      (s.h.buf (s.h.ts + 4)).toNat).goto .payload
  else s.goto .payload

/-! ## Starting a payload -/

/-- `dvb_net_ule_new_payload`, up to the length field. -/
def dvbNetUleNewPayload (s : Ule) : Ule :=
  if s.h.tsRemain < 2 then { s with p.uleSnduLen := 0, p.needPusi := true }.nextCell
  else if s.p.uleSnduLen = 0 then
    let word := be16 (s.h.buf s.h.fromWhere) (s.h.buf (s.h.fromWhere + 1))
    let dbit : UInt8 := if word &&& 0x8000 ≠ 0 then 1 else 0
    let len := word &&& 0x7fff
    if len < 5 then
      { s.countLengthError with
        p.uleSnduLen := 0, p.uleDbit := dbit, p.needPusi := true, h.newTs := true }.nextCell
    else ({ s with p.uleSnduLen := len, p.uleDbit := dbit }.advance 2).goto .sndType
  else s.goto .sndType

variable (ops : UleOps)

/-- `dvb_net_ule_new_payload`, the allocation of the skb. -/
def dvbNetUleAllocSkb (s : Ule) : Ule :=
  match ops.devAllocSkb s.allocs (s.p.uleSnduLen + ETH_HLEN + ETH_ALEN) with
  | none => { s with pc := .done, allocs := s.allocs + 1, stats.rxDropped := s.stats.rxDropped + 1 }
  | some (mem, size) =>
    { s with
      pc := .copy, allocs := s.allocs + 1
      p.uleSkb := some (newSkb mem size), p.uleSnduRemain := s.p.uleSnduLen }

/-- `dvb_net_ule_new_payload`, from the type field on. -/
def dvbNetUleSnduType (s : Ule) : Ule :=
  let b0 := s.h.buf s.h.fromWhere
  let b1 := s.h.buf (s.h.fromWhere + 1)
  match s.h.tsRemain with
  | 1 =>
    ({ s with
      p.uleSnduRemain := s.p.uleSnduLen + 1, p.uleSnduType := b0.toNat <<< 8
      p.uleSnduType1 := true, h.newTs := true }.advance 1).nextCell
  | 0 => { s with p.uleSnduRemain := s.p.uleSnduLen + 2, h.newTs := true }.nextCell
  | _ =>
    let s := { s with p.uleSnduRemain := s.p.uleSnduLen + 2 }
    if s.p.uleSnduType1 then
      dvbNetUleAllocSkb ops ({ s with
        p.uleSnduType1 := false, p.uleSnduType := s.p.uleSnduType ||| b0.toNat }.advance 1)
    else dvbNetUleAllocSkb ops ({ s with p.uleSnduType := be16 b0 b1 }.advance 2)

/-- `dvb_net_ule`, the copy into the current skb. -/
def dvbNetUleCopy (s : Ule) : Ule :=
  let howMuch := min s.p.uleSnduRemain s.h.tsRemain
  match s.p.uleSkb with
  | none => s.goto .fault
  | some skb =>
    ({ s with
      p.uleSkb := some (skbPutData skb (s.h.buf.read s.h.fromWhere howMuch))
      p.uleSnduRemain := s.p.uleSnduRemain - howMuch }.advance howMuch).goto .complete

/-! ## A complete SNDU -/

/-- `iov_crc32` of the SNDU header and of the data of the skb but its last four bytes. -/
def uleCrc (p : DvbNetPriv) (skb : SkBuff) : UInt32 :=
  let ulen := p.uleSnduLen ||| (if p.uleDbit ≠ 0 then 0x8000 else 0)
  let crc := ops.crc32Be 0xffffffff [.ofNat (ulen >>> 8), .ofNat ulen]
  let crc := ops.crc32Be crc [.ofNat (p.uleSnduType >>> 8), .ofNat p.uleSnduType]
  ops.crc32Be crc (skb.mem.read skb.data (skb.len - 4))

/-- The `expected_crc` in front of the tail of the skb. -/
def expectedCrc (skb : SkBuff) : UInt32 :=
  (skb.mem (skb.tail - 4)).toUInt32 <<< 24 ||| (skb.mem (skb.tail - 3)).toUInt32 <<< 16 |||
    (skb.mem (skb.tail - 2)).toUInt32 <<< 8 ||| (skb.mem (skb.tail - 1)).toUInt32

/-- Whether an address is one of the multicast addresses. -/
def decideMulti (addr : List UInt8) (multiMacs : List (List UInt8)) : Decidable (addr ∈ multiMacs) :=
  inferInstance

/-- `dvb_net_ule_should_drop`, the tests of the destination address. -/
def dropAddr (p : DvbNetPriv) (skb : SkBuff) : Bool :=
  let addr := skb.mem.read skb.data ETH_ALEN
  if skb.mem skb.data &&& 0x01 ≠ 0 then
    if addr = List.replicate ETH_ALEN 0xff then false
    else if p.rxMode = .RX_MODE_MULTI then decide (addr ∉ p.multiMacs)
    else decide (p.rxMode ≠ .RX_MODE_ALL_MULTI)
  else decide (addr ≠ ops.devAddr)

/-- `dvb_net_ule_should_drop`. -/
def dvbNetUleShouldDrop (p : DvbNetPriv) (skb : SkBuff) : Option (Bool × DvbNetPriv) :=
  if p.rxMode = .RX_MODE_PROMISC then some (false, p)
  else (touch p skb.data ETH_ALEN).map fun (skb, p) => (dropAddr ops p skb, p)

/-- The SNDU is dropped or delivered: prepare for the next one. -/
def Ule.finish (s : Ule) : Ule := { s with pc := .more, p := resetUle s.p }

/-- `dvb_net_ule_check_crc`, behind the destination address: handle the extension headers. -/
def dvbNetUleHeaders (s : Ule) (destAddr : List UInt8) : Ule :=
  if s.p.uleSnduType < ETH_P_802_3_MIN then
    { s with pc := .ext destAddr 0, p.uleNextHdr := (s.p.uleSkb.map SkBuff.data).getD 0 }
  else s.goto (.deliver destAddr)

/-- `dvb_net_ule_check_crc`, up to the extension headers. -/
def dvbNetUleCheckCrc (s : Ule) (skb : SkBuff) (uleCrc expectedCrc : UInt32) : Ule :=
  if uleCrc ≠ expectedCrc then
    { s with
      stats.rxErrors := s.stats.rxErrors + 1
      stats.rxCrcErrors := s.stats.rxCrcErrors + 1 }.finish
  else
    let skb := skb.trim
    let s := { s with p.uleSkb := some skb }
    if s.p.uleDbit ≠ 0 then dvbNetUleHeaders s (List.replicate ETH_ALEN 0)
    else
      match dvbNetUleShouldDrop ops s.p skb with
      | none => s.goto .fault
      | some (true, p) => { s with p }.finish
      | some (false, p) =>
        match touch p skb.data ETH_ALEN with
        | none => s.goto .fault
        | some (skb, p) =>
          dvbNetUleHeaders { s with p := pull p ETH_ALEN } (skb.mem.read skb.data ETH_ALEN)

/-- `dvb_net_ule`, the check for a complete payload. -/
def dvbNetUleComplete (s : Ule) : Ule :=
  if s.p.uleSnduRemain = 0 then
    match s.p.uleSkb with
    | none => s.goto .fault
    | some skb => dvbNetUleCheckCrc ops s skb (uleCrc ops s.p skb) (expectedCrc skb)
  else s.goto .more

/-- `handle_ule_extensions`, one round of its loop, and what becomes of its result. -/
def handleUleExtensions (s : Ule) (destAddr : List UInt8) (total : ℤ) : Ule :=
  match handleOneUleExtension s.p with
  | none => s.goto .fault
  | some (l, p) =>
    if l < 0 then { s with p }.finish
    else if p.uleSnduType < ETH_P_802_3_MIN then { s with p, pc := .ext destAddr (total + l) }
    else { s with p := pull p (total + l).toNat, pc := .deliver destAddr }

/-- `dvb_net_eth_type_trans`: the packet that the skb is, and what is left of its length. -/
def dvbNetEthTypeTrans (skb : SkBuff) : RxFrame × ℕ :=
  let mac := skb.data
  let skb := skbPull skb ops.hardHeaderLen
  let hDest := skb.mem.read mac ETH_ALEN
  let hProto := be16 (skb.mem (mac + 12)) (skb.mem (mac + 13))
  let pktType :=
    if skb.mem mac &&& 1 ≠ 0 then
      if hDest = ops.broadcast then PktType.PACKET_BROADCAST else .PACKET_MULTICAST
    else .PACKET_HOST
  let protocol :=
    if hProto ≥ ETH_P_802_3_MIN then hProto
    else if skb.mem skb.data = 0xff ∧ skb.mem (skb.data + 1) = 0xff then ETH_P_802_3
    else ETH_P_802_2
  (⟨skb.mem.read mac (skb.tail - mac), pktType, protocol⟩, skb.len)

/-- The skb with an Ethernet header in front. -/
def pushEthHdr (skb : SkBuff) (destAddr : List UInt8) (type : ℕ) : SkBuff :=
  let skb := skbPush skb ETH_HLEN
  { skb with
    mem := skb.mem.write skb.data
      (destAddr ++ List.replicate ETH_ALEN 0 ++ [.ofNat (type >>> 8), .ofNat type]) }

/-- `dvb_net_ule_check_crc`, from the Ethernet header on. -/
def dvbNetUleDeliver (s : Ule) (destAddr : List UInt8) : Ule :=
  match s.p.uleSkb with
  | none => s.goto .fault
  | some skb =>
    let skb := if s.p.uleBridged then skb else pushEthHdr skb destAddr s.p.uleSnduType
    let (frame, len) := dvbNetEthTypeTrans ops skb
    { s with
      stats.rxPackets := s.stats.rxPackets + 1
      stats.rxBytes := s.stats.rxBytes + len
      rx := s.rx ++ [frame] }.finish

/-! ## The loop -/

/-- `dvb_net_ule`, the look at the bytes behind the SNDU. -/
def dvbNetUleMore (s : Ule) : Ule :=
  let b0 := s.h.buf s.h.fromWhere
  let b1 := s.h.buf (s.h.fromWhere + 1)
  if s.h.tsRemain ≥ 2 ∧ ¬ (b0 = 0xff ∧ b1 = 0xff) then
    { s with
      pc := .cell, h.newTs := false
      p.uleSkb := none, p.uleSnduType1 := false, p.uleSnduLen := 0 }
  else
    let s := { s with h.newTs := true }
    if s.p.uleSkb.isNone then
      { s with p.needPusi := true, p.uleSnduType1 := false, p.uleSnduLen := 0 }.nextCell
    else s.nextCell

/-- `dvb_net_ule`, from one point of the program to the next. -/
def uleStep (s : Ule) : Ule :=
  match s.pc with
  | .cell =>
    if s.h.ts < s.h.tsEnd then if s.h.newTs then dvbNetUleNewTsCell s else s.goto .pusi
    else s.goto .done
  | .pusi => if s.p.needPusi then dvbNetUleTsPusi s else s.goto .newTs
  | .newTs => if s.h.newTs then dvbNetUleNewTs s else s.goto .payload
  | .pointer => dvbNetUleNewTsPointer s
  | .flush => dvbNetUleNewTsFlush s
  | .payload => if s.p.uleSkb.isNone then dvbNetUleNewPayload s else s.goto .copy
  | .sndType => dvbNetUleSnduType ops s
  | .copy => dvbNetUleCopy s
  | .complete => dvbNetUleComplete ops s
  | .ext destAddr total => handleUleExtensions s destAddr total
  | .deliver destAddr => dvbNetUleDeliver ops s destAddr
  | .more => dvbNetUleMore s
  | .done => s
  | .fault => s

/-- `n` steps. -/
def uleRun (n : ℕ) (s : Ule) : Ule := (uleStep ops)^[n] s

/-- `dvb_net_ule` is called with the `bufLen` bytes in `buf`. -/
def Ule.call (s : Ule) (buf : Mem UInt8) (bufLen : ℕ) : Ule :=
  { s with
    pc := .cell
    h := { buf, ts := 0, tsEnd := bufLen, fromWhere := 0, tsRemain := 0, newTs := true,
           error := false } }

/-- The state of a feed that has just been started by `dvb_net_feed_start`. -/
def Ule.init (rxMode : RxMode) (multiMacs : List (List UInt8)) : Ule where
  pc := .done
  h := { buf := fun _ => 0, ts := 0, tsEnd := 0, fromWhere := 0, tsRemain := 0, newTs := true,
         error := false }
  p := { rxMode, multiMacs, needPusi := true, tscc := 0, uleSkb := none, uleNextHdr := 0,
         uleSnduLen := 0, uleSnduType := 0, uleSnduType1 := false, uleDbit := 0xff,
         uleBridged := false, uleSnduRemain := 0, reads := [], pulls := [] }
  stats := ⟨0, 0, 0, 0, 0, 0, 0⟩
  rx := []
  allocs := 0

/-- A kernel with the CRC-32 that always finds memory, and a device with the address
`02:00:00:00:00:01`. -/
def plainOps : UleOps where
  crc32Be := crc32Be
  crc32Be_append := crc32Be_append
  devAllocSkb _ len := some (fun _ => 0, len)
  le_size h := by
    cases h
    exact Nat.le_refl _
  devAddr := [2, 0, 0, 0, 0, 1]
  broadcast := List.replicate ETH_ALEN 0xff
  hardHeaderLen := ETH_HLEN

end Net
end TbsMedia
