import TbsMedia.DvbNet.UleCursor
import Mathlib.Data.Nat.Bitwise

/-!
# Receiving SNDUs in a cell

What the decapsulator does with the bytes of one cell.  `Reading` says what is left of the cell and
what surrounds it, `Filling` that an SNDU is being collected in its skb, and `Pending` that the
decoder is between two cells with a part of an SNDU still to come, at one of three stages.

* `Holds.handed`: an SNDU without extension headers that has arrived is handed up.
* `Pending.finish`, `Pending.suspend`: the rest of an SNDU that has been begun earlier.
* `unit_run`, `part_run`: an SNDU that starts in the cell.
* `units_run`: from the start of an SNDU to the end of the cell.
-/

namespace TbsMedia
namespace Net

open Lib
open Demux (TsPacket)

variable (ops : UleOps)

/-! ## Frames -/

/-- The SNDU has no extension headers, and its length field does not read as the End Indicator. -/
structure Sndu.Plain (u : Sndu) : Prop where
  type : ETH_P_802_3_MIN ≤ u.type
  lenWord : u.lenWord ≠ 0xffff

/-- The Ethernet frame that the SNDU stands for. -/
def Sndu.frame (u : Sndu) : List UInt8 :=
  u.dest.getD (List.replicate ETH_ALEN 0) ++ List.replicate ETH_ALEN 0 ++ bytes16 u.type ++ u.payload

/-- The destination address, if there is one, is for the device. -/
def Sndu.Wanted (rxMode : RxMode) (multiMacs : List (List UInt8)) (u : Sndu) : Prop :=
  ∀ d ∈ u.dest, rxMode = .RX_MODE_PROMISC ∨
    if d.headD 0 &&& 0x01 ≠ 0 then
      d = List.replicate ETH_ALEN 0xff ∨ rxMode = .RX_MODE_MULTI ∧ d ∈ multiMacs ∨
        rxMode = .RX_MODE_ALL_MULTI
    else d = ops.devAddr

instance (rxMode : RxMode) (multiMacs : List (List UInt8)) (u : Sndu) :
    Decidable (u.Wanted ops rxMode multiMacs) := by
  unfold Sndu.Wanted
  have hmem : ∀ d : List UInt8, Decidable (d ∈ multiMacs) := fun d => decideMulti d multiMacs
  infer_instance

variable {ops} {s t : Ule} {u : Sndu} {skb : SkBuff}

/-! ## An SNDU that has arrived is handed up -/

/-- The address filter looks at the destination address of the SNDU. -/
theorem Holds.drops_iff (h : Holds ops u s skb) :
    Drops ops s.p skb ↔ ¬ u.Wanted ops s.p.rxMode s.p.multiMacs := by
  rcases hd : u.dest with _ | d
  · have hbit : s.p.uleDbit ≠ 0 := h.dbit_iff.mpr hd
    refine ⟨fun hdrop => absurd hdrop.1 hbit, fun hw => absurd ?_ hw⟩
    intro d hmem
    rw [hd] at hmem
    cases hmem
  · have hbit : s.p.uleDbit = 0 := by
      by_contra hb
      have := h.dbit_iff.mp hb
      rw [hd] at this
      cases this
    have hread := h.read_dest hd
    have hhead : skb.mem skb.data = d.headD 0 := by
      rw [← hread]
      rfl
    have hwanted : u.Wanted ops s.p.rxMode s.p.multiMacs ↔ s.p.rxMode = .RX_MODE_PROMISC ∨
        if d.headD 0 &&& 0x01 ≠ 0 then
          d = List.replicate ETH_ALEN 0xff ∨ s.p.rxMode = .RX_MODE_MULTI ∧ d ∈ s.p.multiMacs ∨
            s.p.rxMode = .RX_MODE_ALL_MULTI
        else d = ops.devAddr := by
      unfold Sndu.Wanted
      rw [hd]
      exact ⟨fun hw => hw d rfl, fun hw d' hd' => by
        obtain rfl := Option.some.inj hd'
        exact hw⟩
    rw [hwanted, Drops, dropAddr, hread, hhead]
    rcases s.p.rxMode <;> split_ifs <;> simp_all

/-- The skb with an Ethernet header in front is the frame. -/
theorem pushEthHdr_frame (ops : UleOps) (hdata : ETH_HLEN ≤ skb.data)
    (hend : skb.tail = skb.data + skb.len) {dest : List UInt8} (hdest : dest.length = 6)
    (type : ℕ) :
    (dvbNetEthTypeTrans ops (pushEthHdr skb dest type)).1.frame =
      dest ++ List.replicate ETH_ALEN 0 ++ bytes16 type ++ skb.mem.read skb.data skb.len := by
  have hlen : (dest ++ List.replicate ETH_ALEN 0 ++ bytes16 type).length = 14 := by
    rw [List.length_append, List.length_append, hdest]
    rfl
  have hh : ETH_HLEN = 14 := rfl
  have htail : skb.tail - (skb.data - ETH_HLEN) = 14 + skb.len := by omega
  have hat : skb.data - ETH_HLEN + 14 = skb.data := by omega
  rw [ethTypeTrans_frame]
  change Mem.read (skb.mem.write (skb.data - ETH_HLEN)
    (dest ++ List.replicate ETH_ALEN 0 ++ bytes16 type)) (skb.data - ETH_HLEN)
      (skb.tail - (skb.data - ETH_HLEN)) = _
  rw [htail, Mem.read_add, ← hlen, Mem.read_write_self, hlen, hat,
    Mem.read_write_of_ge _ _ (by omega)]

theorem Holds.destAddr (h : Holds ops u s skb) :
    destOf s skb = u.dest.getD (List.replicate ETH_ALEN 0) := by
  unfold destOf
  rcases hd : u.dest with _ | d
  · exact if_pos (h.dbit_iff.mpr hd)
  · have hbit : ¬ s.p.uleDbit ≠ 0 := by
      rw [h.dbit_iff, hd]
      rintro ⟨⟩
    rw [if_neg hbit, h.read_dest hd]
    rfl

theorem length_destAddr (u : Sndu) : (u.dest.getD (List.replicate ETH_ALEN 0)).length = 6 := by
  rcases hd : u.dest with _ | d
  · rfl
  · exact u.length_dest d hd

/-- The step that hands up an skb that is not bridged. -/
theorem deliver_plain (ops : UleOps) {dest : List UInt8} (hpc : s.pc = .deliver dest)
    (hskb : s.p.uleSkb = some skb) (hb : s.p.uleBridged = false) :
    (uleStep ops s).pc = .more ∧ (uleStep ops s).h = s.h ∧ (uleStep ops s).p = resetUle s.p ∧
      (uleStep ops s).rx =
        s.rx ++ [(dvbNetEthTypeTrans ops (pushEthHdr skb dest s.p.uleSnduType)).1] := by
  unfold uleStep
  rw [hpc]
  dsimp only
  rw [dvbNetUleDeliver, hskb, hb]
  exact ⟨rfl, rfl, rfl, rfl⟩

/-- No SNDU is in progress. -/
structure Fresh (p : DvbNetPriv) : Prop where
  skb : p.uleSkb = none
  sndLen : p.uleSnduLen = 0
  remain : p.uleSnduRemain = 0
  type1 : p.uleSnduType1 = false
  bridged : p.uleBridged = false

/-- What the processing of an SNDU leaves alone. -/
structure SameFeed (p p' : DvbNetPriv) : Prop where
  needPusi : p'.needPusi = p.needPusi
  tscc : p'.tscc = p.tscc
  rxMode : p'.rxMode = p.rxMode
  multiMacs : p'.multiMacs = p.multiMacs

theorem fresh_reset (p : DvbNetPriv) : Fresh (resetUle p) := ⟨rfl, rfl, rfl, rfl, rfl⟩

/-- **An SNDU that has arrived is handed up**, if it has no extension headers, and if its address is
for the device. -/
theorem Holds.handed (h : Holds ops u s skb) (hdata : ETH_HLEN ≤ skb.data)
    (htype : ETH_P_802_3_MIN ≤ u.type) :
    ∃ t, Leads (uleStep ops) s t ∧ t.pc = .more ∧ t.h = s.h ∧ Fresh t.p ∧ SameFeed s.p t.p ∧
      t.rx.map RxFrame.frame = s.rx.map RxFrame.frame ++
        if u.Wanted ops s.p.rxMode s.p.multiMacs then [u.frame] else [] := by
  have h6 := h.addr_fits
  by_cases hw : u.Wanted ops s.p.rxMode s.p.multiMacs
  · have hdrop : ¬ Drops ops s.p skb := fun hd => h.drops_iff.mp hd hw
    obtain ⟨reads, pulls, hstep, -, -⟩ := complete_pass h.complete hdrop h6
    rw [if_pos hw]
    rcases headers_cases (s := { s with
        p.uleSkb := some (skb.strip s.p.uleDbit), p.reads := reads, p.pulls := pulls }) rfl
        (destOf s skb) with ⟨hlt, -, -⟩ | ⟨-, hgoto⟩
    · have hlt : s.p.uleSnduType < 1536 := hlt
      rw [h.type] at hlt
      exact absurd htype (Nat.not_le.mpr hlt)
    · rw [hgoto] at hstep
      obtain ⟨hpc, hh, hp, hrx⟩ := deliver_plain ops (s := Ule.goto { s with
        p.uleSkb := some (skb.strip s.p.uleDbit), p.reads := reads, p.pulls := pulls }
        (.deliver (destOf s skb))) rfl rfl h.bridged
      refine ⟨_, Leads.head hstep (Leads.single _), hpc, hh, ?_, ?_, ?_⟩
      · rw [hp]
        exact fresh_reset _
      · rw [hp]
        exact ⟨rfl, rfl, rfl, rfl⟩
      have hdata' : ETH_HLEN ≤ (skb.strip s.p.uleDbit).data := by
        unfold SkBuff.strip skbPull SkBuff.trim
        split_ifs <;> dsimp only <;> omega
      have hframe := pushEthHdr_frame ops hdata' (strip_end h.complete)
        (length_destAddr u) u.type
      rw [h.strip.1, h.strip.2, ← h.destAddr, ← h.type] at hframe
      rw [hrx, List.map_append, List.map_singleton]
      refine congrArg (fun f => _ ++ [f]) (hframe.trans ?_)
      rw [h.destAddr, h.type]
      rfl
  · have hdrop : Drops ops s.p skb := h.drops_iff.mpr hw
    obtain ⟨reads, -, hstep⟩ := complete_drop h.complete hdrop
      (h6.resolve_left (not_not.mpr hdrop.1))
    rw [if_neg hw, List.append_nil]
    exact ⟨_, Leads.head hstep (Leads.refl _), rfl, rfl, fresh_reset _, ⟨rfl, rfl, rfl, rfl⟩, rfl⟩

/-! ## Inside a cell -/

/-- What surrounds the bytes of a cell: the cells behind it, the continuity counter expected next,
the address filter, and the frames that have been handed up. -/
structure Ctx where
  cells : List TsPacket
  tscc : ℕ
  rxMode : RxMode
  multiMacs : List (List UInt8)
  out : List (List UInt8)

/-- The cells stand in the buffer from address `a` on, and nothing behind them. -/
def Ahead (h : DvbNetUleHandle) (a : ℕ) (cells : List TsPacket) : Prop :=
  a + TS_SZ * cells.length = h.tsEnd ∧
    h.buf.read a (TS_SZ * cells.length) = cells.flatMap TsPacket.bytes

/-- The bytes `bs` are left of the cell. -/
structure Cursor (h : DvbNetUleHandle) (bs : List UInt8) : Prop where
  from_where : h.fromWhere + bs.length = h.ts + TS_SZ
  remain : h.tsRemain = bs.length
  le : bs.length ≤ 184
  read : h.buf.read h.fromWhere bs.length = bs

/-- A cell of which `bs` is left is being processed. -/
structure Reading (E : Ctx) (bs : List UInt8) (s : Ule) : Prop where
  cursor : Cursor s.h bs
  ahead : Ahead s.h (s.h.ts + TS_SZ) E.cells
  needPusi : s.p.needPusi = false
  tscc : s.p.tscc = E.tscc
  rxMode : s.p.rxMode = E.rxMode
  multiMacs : s.p.multiMacs = E.multiMacs
  out : s.rx.map RxFrame.frame = E.out

variable {E : Ctx} {h : DvbNetUleHandle} {bs v rest : List UInt8} {b b' : UInt8}

/-- The cursor moves over `v`. -/
theorem Cursor.advance (hc : Cursor h (v ++ bs)) :
    Cursor { h with fromWhere := h.fromWhere + v.length, tsRemain := u8Sub h.tsRemain v.length }
      bs := by
  obtain ⟨hfrom, hremain, hle, hread⟩ := hc
  rw [List.length_append] at hfrom hremain hle hread
  have hsub : u8Sub h.tsRemain v.length = bs.length := by
    rw [u8Sub_of_le (by omega) (by omega), hremain, Nat.add_sub_cancel_left]
  have htail := ((Mem.read_eq_append_iff rfl).mp hread).2
  refine ⟨?_, hsub, Nat.le_trans (Nat.le_add_left _ _) hle, htail⟩
  change h.fromWhere + v.length + bs.length = h.ts + TS_SZ
  rw [Nat.add_assoc]
  exact hfrom

/-- The first byte that is left. -/
theorem Cursor.head (hc : Cursor h (b :: bs)) : h.buf h.fromWhere = b :=
  Mem.apply_of_read_eq hc.read (i := 0) (Nat.succ_pos _)

/-- The second byte that is left. -/
theorem Cursor.second (hc : Cursor h (b :: b' :: bs)) : h.buf (h.fromWhere + 1) = b' :=
  Mem.apply_of_read_eq hc.read (i := 1) (Nat.succ_lt_succ (Nat.succ_pos _))

theorem Cursor.read_take (hc : Cursor h (v ++ bs)) : h.buf.read h.fromWhere v.length = v :=
  ((Mem.read_eq_append_iff List.length_append).mp hc.read).1

/-- What stands behind the type field. -/
def Sndu.data (ops : UleOps) (u : Sndu) : List UInt8 := u.body ++ bytes32 (u.crc ops)

theorem length_data (ops : UleOps) (u : Sndu) : (u.data ops).length = u.len := List.length_append

theorem bytes_eq (ops : UleOps) (u : Sndu) :
    u.bytes ops = bytes16 u.lenWord ++ (bytes16 u.type ++ u.data ops) := by
  rw [Sndu.bytes, Sndu.header, Sndu.data, List.append_assoc, List.append_assoc]

theorem be16_bytes16 {w : ℕ} (hw : w < 65536) : be16 (.ofNat (w >>> 8)) (.ofNat w) = w := by
  rw [be16_eq, UInt8.toNat_ofNat', UInt8.toNat_ofNat', Nat.shiftRight_eq_div_pow]
  omega

theorem lenWord_lt (u : Sndu) : u.lenWord < 65536 := by
  have hle := u.len_le
  unfold Sndu.lenWord
  split_ifs <;> omega

theorem lenWord_and_len (u : Sndu) : u.lenWord &&& 0x7fff = u.len := by
  have hle := u.len_le
  have hmod : u.lenWord &&& 0x7fff = u.lenWord % 2 ^ 15 := Nat.and_two_pow_sub_one_eq_mod _ 15
  rw [hmod, Sndu.lenWord]
  split_ifs <;> omega

theorem lenWord_and_dbit (u : Sndu) : u.lenWord &&& 0x8000 ≠ 0 ↔ u.dest = none := by
  have hle := u.len_le
  have hbit : u.lenWord &&& 0x8000 = (u.lenWord.testBit 15).toNat * 2 ^ 15 := Nat.and_two_pow _ 15
  rw [hbit, Nat.testBit_eq_decide_div_mod_eq, Sndu.lenWord]
  by_cases hd : u.dest = none
  · rw [if_pos hd, decide_eq_true (by omega)]
    exact ⟨fun _ => hd, fun _ => by decide⟩
  · rw [if_neg hd, decide_eq_false (by omega)]
    exact ⟨fun h0 => absurd rfl h0, fun hd' => absurd hd' hd⟩

/-- The length field of `u` has been read. -/
structure Opened (u : Sndu) (p : DvbNetPriv) : Prop where
  sndLen : p.uleSnduLen = u.len
  dbit : p.uleDbit = if u.dest = none then 1 else 0
  bridged : p.uleBridged = false

/-- The step over the length field. -/
theorem payload_open (ops : UleOps) (hpc : s.pc = .payload) (hf : Fresh s.p)
    (hr : Reading E (bytes16 u.lenWord ++ bs) s) :
    (uleStep ops s).pc = .sndType ∧ Reading E bs (uleStep ops s) ∧ Opened u (uleStep ops s).p ∧
      (uleStep ops s).p.uleSkb = none ∧ (uleStep ops s).p.uleSnduType1 = false := by
  have hadv := hr.cursor.advance
  have h2 : ¬ s.h.tsRemain < 2 := by
    rw [hr.cursor.remain, List.length_append]
    exact Nat.not_lt.mpr (Nat.le_add_right 2 _)
  have h5 := u.five_le
  have hstep : uleStep ops s = (Ule.advance { s with
      p.uleSnduLen := u.len, p.uleDbit := if u.dest = none then 1 else 0 } 2).goto .sndType := by
    unfold uleStep
    rw [hpc]
    dsimp only
    rw [if_pos (by rw [hf.skb]; rfl), dvbNetUleNewPayload, if_neg h2, if_pos hf.sndLen]
    dsimp only
    rw [Cursor.head hr.cursor, Cursor.second hr.cursor, be16_bytes16 (lenWord_lt u),
      lenWord_and_len, if_neg (Nat.not_lt.mpr h5)]
    simp only [lenWord_and_dbit]
    rfl
  rw [hstep]
  exact ⟨rfl, ⟨hadv, hr.ahead, hr.needPusi, hr.tscc, hr.rxMode, hr.multiMacs, hr.out⟩,
    ⟨rfl, rfl, hf.bridged⟩, hf.skb, hf.type1⟩

/-! ## Collecting an SNDU -/

/-- The skb has been allocated; `sent` stands in it, and `rest` is missing. -/
structure Filling (ops : UleOps) (u : Sndu) (sent rest : List UInt8) (p : DvbNetPriv) : Prop where
  opened : Opened u p
  type : p.uleSnduType = u.type
  type1 : p.uleSnduType1 = false
  split : sent ++ rest = u.data ops
  remain : p.uleSnduRemain = rest.length
  skb : ∃ skb, p.uleSkb = some skb ∧ ETH_HLEN ≤ skb.data ∧ SkbInv u.len rest.length skb ∧
    skb.mem.read skb.data skb.len = sent

/-- What is missing of an SNDU whose length field has been read: everything from the type field on,
everything from its second byte on, or a part of the data. -/
inductive Awaited (ops : UleOps) (u : Sndu) (p : DvbNetPriv) : List UInt8 → Prop where
  | type : p.uleSkb = none → p.uleSnduType1 = false → Awaited ops u p (bytes16 u.type ++ u.data ops)
  | low : p.uleSkb = none → p.uleSnduType1 = true →
      p.uleSnduType = (UInt8.ofNat (u.type >>> 8)).toNat <<< 8 →
      Awaited ops u p (.ofNat u.type :: u.data ops)
  | data {sent rest : List UInt8} : Filling ops u sent rest p → Awaited ops u p rest

/-- The decoder between two cells, with `rest` of the SNDU still to come. -/
structure Pending (ops : UleOps) (u : Sndu) (rest : List UInt8) (p : DvbNetPriv) : Prop where
  opened : Opened u p
  needPusi : p.needPusi = false
  remain : p.uleSnduRemain = rest.length
  awaited : Awaited ops u p rest

/-- At the head of the loop, in front of a new cell. -/
structure AtCell (E : Ctx) (s : Ule) : Prop where
  pc : s.pc = .cell
  newTs : s.h.newTs = true
  ahead : Ahead s.h s.h.ts E.cells
  rxMode : s.p.rxMode = E.rxMode
  multiMacs : s.p.multiMacs = E.multiMacs
  out : s.rx.map RxFrame.frame = E.out

/-- The memory for an skb is always found. -/
def UleOps.AllocOk (ops : UleOps) : Prop := ∀ n len, (ops.devAllocSkb n len).isSome

/-- The allocation of the skb. -/
theorem alloc_fill (halloc : ops.AllocOk) (hr : Reading E bs s) (ho : Opened u s.p)
    (htype : s.p.uleSnduType = u.type) (h1 : s.p.uleSnduType1 = false) :
    (dvbNetUleAllocSkb ops s).pc = .copy ∧ Reading E bs (dvbNetUleAllocSkb ops s) ∧
      Filling ops u [] (u.data ops) (dvbNetUleAllocSkb ops s).p := by
  obtain ⟨⟨m, size⟩, hm⟩ := Option.isSome_iff_exists.mp
    (halloc s.allocs (s.p.uleSnduLen + ETH_HLEN + ETH_ALEN))
  have hinv := skbInv_new m (ops.le_size hm)
  rw [ho.sndLen] at hinv
  unfold dvbNetUleAllocSkb
  rw [hm]
  refine ⟨rfl, ⟨hr.cursor, hr.ahead, hr.needPusi, hr.tscc, hr.rxMode, hr.multiMacs, hr.out⟩,
    ⟨ho.sndLen, ho.dbit, ho.bridged⟩, htype, h1, rfl, ?_, _, rfl, ?_, ?_, rfl⟩
  · rw [length_data]
    exact ho.sndLen
  · exact Nat.le_add_right _ _
  · rw [length_data]
    exact hinv

/-- The step over the type field. -/
theorem sndType_all (halloc : ops.AllocOk) (hpc : s.pc = .sndType) (ho : Opened u s.p)
    (h1 : s.p.uleSnduType1 = false) (hr : Reading E (bytes16 u.type ++ bs) s) :
    (uleStep ops s).pc = .copy ∧ Reading E bs (uleStep ops s) ∧
      Filling ops u [] (u.data ops) (uleStep ops s).p := by
  have hadv := hr.cursor.advance
  have hrem : s.h.tsRemain = bs.length + 2 := by
    rw [hr.cursor.remain, List.length_append]
    exact Nat.add_comm _ _
  have hstep : uleStep ops s = dvbNetUleAllocSkb ops (Ule.advance { s with
      p.uleSnduRemain := s.p.uleSnduLen + 2, p.uleSnduType := u.type } 2) := by
    unfold uleStep
    rw [hpc]
    dsimp only
    unfold dvbNetUleSnduType
    rw [hrem]
    dsimp only
    rw [h1, Cursor.head hr.cursor, Cursor.second hr.cursor, be16_bytes16 u.type_lt]
    rfl
  rw [hstep]
  exact alloc_fill halloc
    ⟨hadv, hr.ahead, hr.needPusi, hr.tscc, hr.rxMode, hr.multiMacs, hr.out⟩
    ⟨ho.sndLen, ho.dbit, ho.bridged⟩ rfl h1

/-- The step over the second byte of the type field. -/
theorem sndType_low (halloc : ops.AllocOk) (hpc : s.pc = .sndType) (ho : Opened u s.p)
    (h1 : s.p.uleSnduType1 = true)
    (htype : s.p.uleSnduType = (UInt8.ofNat (u.type >>> 8)).toNat <<< 8)
    (hr : Reading E (.ofNat u.type :: bs) s) (hbs : bs ≠ []) :
    (uleStep ops s).pc = .copy ∧ Reading E bs (uleStep ops s) ∧
      Filling ops u [] (u.data ops) (uleStep ops s).p := by
  have hadv := Cursor.advance (v := [UInt8.ofNat u.type]) hr.cursor
  obtain ⟨b, bs', rfl⟩ := List.exists_cons_of_ne_nil hbs
  have hrem : s.h.tsRemain = bs'.length + 2 := hr.cursor.remain
  have hor : (UInt8.ofNat (u.type >>> 8)).toNat <<< 8 ||| (UInt8.ofNat u.type).toNat = u.type :=
    be16_bytes16 u.type_lt
  have hstep : uleStep ops s = dvbNetUleAllocSkb ops (Ule.advance { s with
      p.uleSnduRemain := s.p.uleSnduLen + 2, p.uleSnduType1 := false
      p.uleSnduType := u.type } 1) := by
    unfold uleStep
    rw [hpc]
    dsimp only
    unfold dvbNetUleSnduType
    rw [hrem]
    dsimp only
    rw [if_pos h1, htype, Cursor.head hr.cursor, hor]
    rfl
  rw [hstep]
  exact alloc_fill halloc
    ⟨hadv, hr.ahead, hr.needPusi, hr.tscc, hr.rxMode, hr.multiMacs, hr.out⟩
    ⟨ho.sndLen, ho.dbit, ho.bridged⟩ rfl rfl

/-- The copy of `v` into the skb. -/
theorem copy_step (ops : UleOps) (hpc : s.pc = .copy) (hskb : s.p.uleSkb = some skb)
    (hr : Reading E (v ++ bs) s) (hmin : min s.p.uleSnduRemain s.h.tsRemain = v.length) :
    uleStep ops s = (Ule.advance { s with
      p.uleSkb := some (skbPutData skb v)
      p.uleSnduRemain := s.p.uleSnduRemain - v.length } v.length).goto .complete := by
  unfold uleStep
  rw [hpc]
  dsimp only
  unfold dvbNetUleCopy
  rw [hmin, hskb]
  dsimp only
  rw [hr.cursor.read_take]
  rfl

/-- The copy into the skb, up to the end of the SNDU or of the cell. -/
theorem copy_fill {sent : List UInt8} (ops : UleOps) (hpc : s.pc = .copy)
    (hf : Filling ops u sent (v ++ rest) s.p) (hr : Reading E (v ++ bs) s)
    (hend : bs = [] ∨ rest = []) :
    (uleStep ops s).pc = .complete ∧ Reading E bs (uleStep ops s) ∧
      Filling ops u (sent ++ v) rest (uleStep ops s).p := by
  have hadv := hr.cursor.advance
  obtain ⟨skb, hskb, hdata, ⟨ht, hl, hs⟩, hsent⟩ := hf.skb
  rw [List.length_append] at hl hs
  have hmin : min s.p.uleSnduRemain s.h.tsRemain = v.length := by
    rw [hf.remain, hr.cursor.remain, List.length_append, List.length_append]
    rcases hend with rfl | rfl
    · exact Nat.min_eq_right (Nat.le_add_right _ _)
    · exact Nat.min_eq_left (Nat.le_add_right _ _)
  rw [copy_step ops hpc hskb hr hmin]
  refine ⟨rfl, ⟨hadv, hr.ahead, hr.needPusi, hr.tscc, hr.rxMode, hr.multiMacs, hr.out⟩,
    ⟨hf.opened.sndLen, hf.opened.dbit, hf.opened.bridged⟩, hf.type, hf.type1, ?_, ?_,
    _, rfl, hdata, ⟨?_, ?_, ?_⟩, ?_⟩
  · rw [List.append_assoc]
    exact hf.split
  · change s.p.uleSnduRemain - v.length = rest.length
    rw [hf.remain, List.length_append, Nat.add_sub_cancel_left]
  · change skb.tail + v.length = skb.data + (skb.len + v.length)
    omega
  · change skb.len + v.length + rest.length = u.len
    omega
  · change skb.tail + v.length + rest.length ≤ skb.size
    omega
  · change (skb.mem.write skb.tail v).read skb.data (skb.len + v.length) = sent ++ v
    rw [Mem.read_write_append _ v ht.symm, hsent]

/-- A filled skb holds the SNDU. -/
theorem Filling.holds {sent : List UInt8} (hpc : s.pc = .complete)
    (hf : Filling ops u sent [] s.p) : ∃ skb, Holds ops u s skb ∧ ETH_HLEN ≤ skb.data := by
  obtain ⟨skb, hskb, hdata, ⟨ht, hl, hs⟩, hsent⟩ := hf.skb
  have hsplit := hf.split
  rw [List.append_nil] at hsplit
  exact ⟨skb, ⟨hpc, hf.remain, hskb, hf.opened.sndLen, hf.type, hf.opened.dbit, hf.opened.bridged,
    hl, ht, hs, hsent.trans hsplit⟩, hdata⟩

/-- The surroundings when `u` has been handed up too, if it is wanted. -/
def Ctx.hand (ops : UleOps) (E : Ctx) (u : Sndu) : Ctx :=
  { E with out := E.out ++ if u.Wanted ops E.rxMode E.multiMacs then [u.frame] else [] }

/-- **The last bytes of an SNDU**: the frame is handed up. -/
theorem Filling.finish {sent : List UInt8} (hpc : s.pc = .copy)
    (htype : ETH_P_802_3_MIN ≤ u.type) (hf : Filling ops u sent v s.p)
    (hr : Reading E (v ++ bs) s) :
    ∃ t, Leads (uleStep ops) s t ∧ t.pc = .more ∧ Fresh t.p ∧ Reading (E.hand ops u) bs t := by
  rw [← List.append_nil v] at hf
  obtain ⟨hpc', hr', hf'⟩ := copy_fill ops hpc hf hr (Or.inr rfl)
  obtain ⟨skb, hholds, hdata⟩ := hf'.holds hpc'
  obtain ⟨t, hlead, hmore, hh, hfresh, hsame, hout⟩ := hholds.handed hdata htype
  refine ⟨t, Leads.head rfl hlead, hmore, hfresh, ?_⟩
  rw [hr'.rxMode, hr'.multiMacs, hr'.out] at hout
  have hcur := hr'.cursor
  have hahead := hr'.ahead
  rw [← hh] at hcur hahead
  exact ⟨hcur, hahead, hsame.needPusi.trans hr'.needPusi, hsame.tscc.trans hr'.tscc,
    hsame.rxMode.trans hr'.rxMode, hsame.multiMacs.trans hr'.multiMacs, hout⟩

/-- **The cell ends within the SNDU.** -/
theorem Filling.suspend {sent : List UInt8} (hpc : s.pc = .copy)
    (hf : Filling ops u sent (v ++ rest) s.p) (hrest : rest ≠ []) (hr : Reading E v s) :
    ∃ t, Leads (uleStep ops) s t ∧ AtCell E t ∧ Pending ops u rest t.p ∧ t.p.tscc = E.tscc := by
  rw [← List.append_nil v] at hr
  obtain ⟨hpc', hr', hf'⟩ := copy_fill ops hpc hf hr (Or.inl rfl)
  generalize ht : uleStep ops s = t at hpc' hr' hf'
  obtain ⟨skb, hskb, -, -, -⟩ := hf'.skb
  have hne : t.p.uleSnduRemain ≠ 0 := by
    rw [hf'.remain]
    exact fun h0 => hrest (List.length_eq_zero_iff.mp h0)
  have hcomplete : uleStep ops t = t.goto .more := by
    unfold uleStep
    rw [hpc']
    dsimp only
    rw [dvbNetUleComplete, if_neg hne]
  have hmore : uleStep ops (t.goto .more) = Ule.nextCell { t with h.newTs := true } := by
    unfold uleStep
    change dvbNetUleMore (t.goto .more) = _
    unfold dvbNetUleMore
    have hzero : (t.goto .more).h.tsRemain = 0 := hr'.cursor.remain
    have hsome : (t.goto .more).p.uleSkb = some skb := hskb
    dsimp only
    rw [if_neg (by rw [hzero]; exact fun h => absurd h.1 (by decide)), if_neg (by rw [hsome]; exact Bool.false_ne_true)]
    rfl
  refine ⟨_, (Leads.head ht (Leads.head hcomplete (Leads.single _))), ?_⟩
  rw [hmore]
  exact ⟨⟨rfl, rfl, hr'.ahead, hr'.rxMode, hr'.multiMacs, hr'.out⟩,
    ⟨⟨hf'.opened.sndLen, hf'.opened.dbit, hf'.opened.bridged⟩, hr'.needPusi, hf'.remain,
      .data ⟨⟨hf'.opened.sndLen, hf'.opened.dbit, hf'.opened.bridged⟩, hf'.type, hf'.type1,
        hf'.split, hf'.remain, hf'.skb⟩⟩, hr'.tscc⟩

theorem exists_two_cons {v : List UInt8} (h : 2 ≤ v.length) : ∃ b b' v', v = b :: b' :: v' := by
  rcases v with _ | ⟨b, _ | ⟨b', v⟩⟩
  · cases h
  · exact absurd h (Nat.lt_irrefl 1)
  · exact ⟨b, b', v, rfl⟩

/-- A cell that ends behind the length field or within the type field. -/
theorem sndType_suspend (ops : UleOps) (hpc : s.pc = .sndType) (ho : Opened u s.p)
    (hskb : s.p.uleSkb = none) (h1 : s.p.uleSnduType1 = false) (hr : Reading E v s)
    (hsplit : v ++ rest = bytes16 u.type ++ u.data ops) (hv : v.length < 2) :
    ∃ t, Leads (uleStep ops) s t ∧ AtCell E t ∧ Pending ops u rest t.p ∧ t.p.tscc = E.tscc := by
  have hlen := congrArg List.length hsplit
  rw [List.length_append, List.length_append, length_data] at hlen
  have hlen : v.length + rest.length = 2 + u.len := hlen
  rcases v with _ | ⟨b, _ | ⟨b', v⟩⟩
  · have hzero : s.h.tsRemain = 0 := hr.cursor.remain
    have hstep : uleStep ops s = Ule.nextCell { s with
        p.uleSnduRemain := s.p.uleSnduLen + 2, h.newTs := true } := by
      unfold uleStep
      rw [hpc]
      dsimp only
      unfold dvbNetUleSnduType
      dsimp only
      split
      · omega
      · rfl
      · exact absurd hzero (by assumption)
    have hrest : rest = bytes16 u.type ++ u.data ops := hsplit
    refine ⟨_, Leads.single _, ?_⟩
    rw [hstep]
    refine ⟨⟨rfl, rfl, hr.ahead, hr.rxMode, hr.multiMacs, hr.out⟩,
      ⟨⟨ho.sndLen, ho.dbit, ho.bridged⟩, hr.needPusi, ?_, ?_⟩, hr.tscc⟩
    · change s.p.uleSnduLen + 2 = rest.length
      rw [ho.sndLen]
      exact (Nat.add_comm _ _).trans (hlen.symm.trans (Nat.zero_add _))
    · rw [hrest]
      exact .type hskb h1
  · have hone : s.h.tsRemain = 1 := hr.cursor.remain
    obtain ⟨rfl, hrest⟩ := List.cons_eq_cons.mp hsplit
    have hstep : uleStep ops s = (Ule.advance { s with
        p.uleSnduRemain := s.p.uleSnduLen + 1
        p.uleSnduType := (UInt8.ofNat (u.type >>> 8)).toNat <<< 8
        p.uleSnduType1 := true, h.newTs := true } 1).nextCell := by
      unfold uleStep
      rw [hpc]
      dsimp only
      unfold dvbNetUleSnduType
      dsimp only
      rw [Cursor.head hr.cursor]
      split
      · rfl
      · omega
      · exact absurd hone (by assumption)
    have hrest : rest = .ofNat u.type :: u.data ops := hrest
    refine ⟨_, Leads.single _, ?_⟩
    rw [hstep]
    refine ⟨⟨rfl, rfl, hr.ahead, hr.rxMode, hr.multiMacs, hr.out⟩,
      ⟨⟨ho.sndLen, ho.dbit, ho.bridged⟩, hr.needPusi, ?_, ?_⟩, hr.tscc⟩
    · change s.p.uleSnduLen + 1 = rest.length
      rw [ho.sndLen]
      have hlen : 1 + rest.length = 2 + u.len := hlen
      omega
    · rw [hrest]
      exact .low hskb rfl rfl
  · exact absurd hv (Nat.not_lt.mpr (Nat.le_add_left 2 _))

/-- The step into an SNDU of which the length field has been read. -/
theorem payload_resume (ops : UleOps) (hpc : s.pc = .payload) (hskb : s.p.uleSkb = none)
    (hlen : s.p.uleSnduLen ≠ 0) (h2 : 2 ≤ s.h.tsRemain) :
    uleStep ops s = s.goto .sndType := by
  unfold uleStep
  rw [hpc]
  dsimp only
  rw [if_pos (by rw [hskb]; rfl), dvbNetUleNewPayload, if_neg (Nat.not_lt.mpr h2), if_neg hlen]

/-- The step into an SNDU that has an skb. -/
theorem payload_copy (ops : UleOps) (hpc : s.pc = .payload) (hskb : s.p.uleSkb = some skb) :
    uleStep ops s = s.goto .copy := by
  unfold uleStep
  rw [hpc]
  dsimp only
  rw [if_neg (by rw [hskb]; exact Bool.false_ne_true)]

theorem Opened.ne_zero {p : DvbNetPriv} (ho : Opened u p) : p.uleSnduLen ≠ 0 := by
  have h5 := u.five_le
  rw [ho.sndLen]
  omega

theorem Reading.goto (hr : Reading E bs s) (pc : Pc) : Reading E bs (s.goto pc) :=
  ⟨hr.cursor, hr.ahead, hr.needPusi, hr.tscc, hr.rxMode, hr.multiMacs, hr.out⟩

/-- **A cell that has the rest of the SNDU in progress.** -/
theorem Pending.finish (halloc : ops.AllocOk) (htype : ETH_P_802_3_MIN ≤ u.type)
    (hpc : s.pc = .payload) (hp : Pending ops u rest s.p) (hr : Reading E (rest ++ bs) s)
    (h2 : 2 ≤ (rest ++ bs).length) :
    ∃ t, Leads (uleStep ops) s t ∧ t.pc = .more ∧ Fresh t.p ∧ Reading (E.hand ops u) bs t := by
  rw [← hr.cursor.remain] at h2
  obtain ⟨ho, -, -, haw⟩ := hp
  cases haw with
  | type hskb h1 =>
    have hresume := payload_resume ops hpc hskb ho.ne_zero h2
    rw [List.append_assoc] at hr
    obtain ⟨hpc', hr', hf'⟩ := sndType_all halloc (s := s.goto .sndType) rfl ho h1 (hr.goto _)
    obtain ⟨t, hlead, ht⟩ := hf'.finish hpc' htype hr'
    exact ⟨t, Leads.head hresume (Leads.head rfl hlead), ht⟩
  | low hskb h1 hhi =>
    have hresume := payload_resume ops hpc hskb ho.ne_zero h2
    have hne : u.data ops ++ bs ≠ [] := by
      refine List.append_ne_nil_of_left_ne_nil (fun h0 => ?_) _
      have h5 := u.five_le
      have hlen := length_data ops u
      rw [h0] at hlen
      exact absurd hlen (by rw [List.length_nil]; omega)
    obtain ⟨hpc', hr', hf'⟩ :=
      sndType_low halloc (s := s.goto .sndType) rfl ho h1 hhi (hr.goto _) hne
    obtain ⟨t, hlead, ht⟩ := hf'.finish hpc' htype hr'
    exact ⟨t, Leads.head hresume (Leads.head rfl hlead), ht⟩
  | data hf =>
    obtain ⟨skb, hskb, -⟩ := hf.skb
    obtain ⟨t, hlead, ht⟩ := Filling.finish (s := s.goto .copy) rfl htype hf (hr.goto _)
    exact ⟨t, Leads.head (payload_copy ops hpc hskb) hlead, ht⟩

/-- **A cell that is full of the SNDU in progress.** -/
theorem Pending.suspend (halloc : ops.AllocOk) (hpc : s.pc = .payload)
    (hp : Pending ops u (v ++ rest) s.p) (hrest : rest ≠ []) (hr : Reading E v s)
    (h3 : 3 ≤ v.length) :
    ∃ t, Leads (uleStep ops) s t ∧ AtCell E t ∧ Pending ops u rest t.p ∧ t.p.tscc = E.tscc := by
  have h2 : 2 ≤ s.h.tsRemain := by
    rw [hr.cursor.remain]
    omega
  obtain ⟨ho, -, -, haw⟩ := hp
  generalize hall : v ++ rest = all at haw
  cases haw with
  | type hskb h1 =>
    have hresume := payload_resume ops hpc hskb ho.ne_zero h2
    obtain ⟨b, b', v, rfl⟩ := exists_two_cons (Nat.le_of_succ_le h3)
    obtain ⟨rfl, htail₁⟩ := List.cons_eq_cons.mp hall
    obtain ⟨rfl, htail⟩ := List.cons_eq_cons.mp htail₁
    obtain ⟨hpc', hr', hf'⟩ := sndType_all halloc (s := s.goto .sndType) rfl ho h1
      (show Reading E (bytes16 u.type ++ v) (s.goto .sndType) from hr.goto _)
    rw [show u.data ops = v ++ rest from htail.symm] at hf'
    obtain ⟨t, hlead, ht⟩ := hf'.suspend hpc' hrest hr'
    exact ⟨t, Leads.head hresume (Leads.head rfl hlead), ht⟩
  | low hskb h1 hhi =>
    have hresume := payload_resume ops hpc hskb ho.ne_zero h2
    obtain ⟨b, v, rfl⟩ := List.exists_cons_of_length_pos (by omega : 0 < v.length)
    obtain ⟨rfl, htail⟩ := List.cons_eq_cons.mp hall
    have hne : v ≠ [] := by
      rintro rfl
      exact absurd h3 (by rw [List.length_singleton]; omega)
    obtain ⟨hpc', hr', hf'⟩ :=
      sndType_low halloc (s := s.goto .sndType) rfl ho h1 hhi (hr.goto _) hne
    rw [show u.data ops = v ++ rest from htail.symm] at hf'
    obtain ⟨t, hlead, ht⟩ := hf'.suspend hpc' hrest hr'
    exact ⟨t, Leads.head hresume (Leads.head rfl hlead), ht⟩
  | data hf =>
    subst hall
    obtain ⟨skb, hskb, -⟩ := hf.skb
    obtain ⟨t, hlead, ht⟩ := Filling.suspend (s := s.goto .copy) rfl hf hrest (hr.goto _)
    exact ⟨t, Leads.head (payload_copy ops hpc hskb) hlead, ht⟩

/-- **An SNDU that starts and ends in the cell.** -/
theorem unit_run (halloc : ops.AllocOk) (htype : ETH_P_802_3_MIN ≤ u.type) (hpc : s.pc = .payload)
    (hf : Fresh s.p) (hr : Reading E (u.bytes ops ++ bs) s) :
    ∃ t, Leads (uleStep ops) s t ∧ t.pc = .more ∧ Fresh t.p ∧ Reading (E.hand ops u) bs t := by
  rw [bytes_eq, List.append_assoc, List.append_assoc] at hr
  obtain ⟨hpc₁, hr₁, ho₁, hskb₁, h1₁⟩ := payload_open ops hpc hf hr
  obtain ⟨hpc₂, hr₂, hf₂⟩ := sndType_all halloc hpc₁ ho₁ h1₁ hr₁
  obtain ⟨t, hlead, ht⟩ := hf₂.finish hpc₂ htype hr₂
  exact ⟨t, Leads.head rfl (Leads.head rfl hlead), ht⟩

/-- **An SNDU that starts in the cell and does not end in it.** -/
theorem part_run (halloc : ops.AllocOk) (hpc : s.pc = .payload) (hf : Fresh s.p)
    (hr : Reading E v s) (h2 : 2 ≤ v.length) (hsplit : v ++ rest = u.bytes ops) (hrest : rest ≠ []) :
    ∃ t, Leads (uleStep ops) s t ∧ AtCell E t ∧ Pending ops u rest t.p ∧ t.p.tscc = E.tscc := by
  rw [bytes_eq] at hsplit
  obtain ⟨b, b', v, rfl⟩ := exists_two_cons h2
  obtain ⟨rfl, hsplit₁⟩ := List.cons_eq_cons.mp hsplit
  obtain ⟨rfl, htail⟩ := List.cons_eq_cons.mp hsplit₁
  have htail : v ++ rest = bytes16 u.type ++ u.data ops := htail
  obtain ⟨hpc₁, hr₁, ho₁, hskb₁, h1₁⟩ := payload_open ops hpc hf
    (show Reading E (bytes16 u.lenWord ++ v) s from hr)
  by_cases hv : v.length < 2
  · obtain ⟨t, hlead, ht⟩ := sndType_suspend ops hpc₁ ho₁ hskb₁ h1₁ hr₁ htail hv
    exact ⟨t, Leads.head rfl hlead, ht⟩
  · obtain ⟨b, b', v, rfl⟩ := exists_two_cons (Nat.not_lt.mp hv)
    obtain ⟨rfl, htail₁⟩ := List.cons_eq_cons.mp htail
    obtain ⟨rfl, htail₂⟩ := List.cons_eq_cons.mp htail₁
    obtain ⟨hpc₂, hr₂, hf₂⟩ := sndType_all halloc hpc₁ ho₁ h1₁
      (show Reading E (bytes16 u.type ++ v) (uleStep ops s) from hr₁)
    rw [show u.data ops = v ++ rest from htail₂.symm] at hf₂
    obtain ⟨t, hlead, ht⟩ := hf₂.suspend hpc₂ hrest hr₂
    exact ⟨t, Leads.head rfl (Leads.head rfl hlead), ht⟩

/-! ## Behind an SNDU -/

/-- The decoder between two cells: idle, or with the rest of an SNDU still to come. -/
inductive Between (ops : UleOps) (tscc : ℕ) (p : DvbNetPriv) : List Sndu → List UInt8 → Prop where
  | idle : p.needPusi = true → Fresh p → Between ops tscc p [] []
  | within (u : Sndu) (rest : List UInt8) : u.Plain → rest ≠ [] → Pending ops u rest p →
      p.tscc = tscc → Between ops tscc p [u] rest

/-- What a cell ends with: padding, or the first part of an SNDU, of which `rest` remains. -/
inductive Ends (ops : UleOps) : List UInt8 → List Sndu → List UInt8 → Prop where
  | fill (m : ℕ) : Ends ops (List.replicate m 0xff) [] []
  | part (u : Sndu) (v rest : List UInt8) : u.Plain → 2 ≤ v.length → rest ≠ [] →
      v ++ rest = u.bytes ops → Ends ops v [u] rest

/-- The surroundings when `us` have been handed up too. -/
def Ctx.handAll (ops : UleOps) (E : Ctx) (us : List Sndu) : Ctx :=
  { E with out := E.out ++ (us.filter fun u => u.Wanted ops E.rxMode E.multiMacs).map Sndu.frame }

theorem handAll_nil (ops : UleOps) (E : Ctx) : E.handAll ops [] = E := by
  rw [Ctx.handAll, List.filter_nil, List.map_nil, List.append_nil]

theorem handAll_cons (ops : UleOps) (E : Ctx) (u : Sndu) (us : List Sndu) :
    E.handAll ops (u :: us) = (E.hand ops u).handAll ops us := by
  rw [Ctx.handAll, Ctx.hand, Ctx.handAll, List.filter_cons]
  by_cases hw : u.Wanted ops E.rxMode E.multiMacs
  · simp [hw]
  · simp [hw]

/-- Behind an SNDU the decoder stops, and waits for PUSI, at the End Indicator, or with less than a
length field left. -/
theorem more_stop (ops : UleOps) (hpc : s.pc = .more) (hf : Fresh s.p) (hr : Reading E bs s)
    (hend : bs.length < 2 ∨ ∃ bs', bs = 0xff :: 0xff :: bs') :
    AtCell E (uleStep ops s) ∧ Between ops E.tscc (uleStep ops s).p [] [] := by
  have hstop : ¬ (s.h.tsRemain ≥ 2 ∧
      ¬ (s.h.buf s.h.fromWhere = 0xff ∧ s.h.buf (s.h.fromWhere + 1) = 0xff)) := by
    rintro ⟨h2, hne⟩
    rw [hr.cursor.remain] at h2
    rcases hend with hlt | ⟨bs', rfl⟩
    · exact absurd hlt (Nat.not_lt.mpr h2)
    · exact hne ⟨hr.cursor.head, hr.cursor.second⟩
  have hstep : uleStep ops s = Ule.nextCell { s with
      h.newTs := true, p.needPusi := true, p.uleSnduType1 := false, p.uleSnduLen := 0 } := by
    unfold uleStep
    rw [hpc]
    dsimp only
    unfold dvbNetUleMore
    rw [if_neg hstop]
    dsimp only
    rw [if_pos (by rw [hf.skb]; rfl)]
    rfl
  rw [hstep]
  exact ⟨⟨rfl, rfl, hr.ahead, hr.rxMode, hr.multiMacs, hr.out⟩,
    .idle rfl ⟨hf.skb, rfl, hf.remain, rfl, hf.bridged⟩⟩

/-- Padding stops the decoder. -/
theorem replicate_stops (m : ℕ) :
    (List.replicate m (0xff : UInt8)).length < 2 ∨
      ∃ bs', List.replicate m (0xff : UInt8) = 0xff :: 0xff :: bs' := by
  rcases m with _ | _ | m
  · exact Or.inl (by decide)
  · exact Or.inl (by decide)
  · exact Or.inr ⟨List.replicate m 0xff, rfl⟩

theorem Ahead.lt {a : ℕ} {cells : List TsPacket} (ha : Ahead h (a + TS_SZ) cells) : a < h.tsEnd := by
  have hs : TS_SZ = 188 := rfl
  have h1 := ha.1
  omega

/-- An SNDU behind an SNDU: the decoder starts with it. -/
theorem more_next (ops : UleOps) (hpc : s.pc = .more) (hf : Fresh s.p)
    (hr : Reading E (b :: b' :: bs) s) (hne : ¬ (b = 0xff ∧ b' = 0xff)) :
    ∃ t, Leads (uleStep ops) s t ∧ t.pc = .payload ∧ Fresh t.p ∧ Reading E (b :: b' :: bs) t := by
  have hgo : s.h.tsRemain ≥ 2 ∧
      ¬ (s.h.buf s.h.fromWhere = 0xff ∧ s.h.buf (s.h.fromWhere + 1) = 0xff) := by
    rw [hr.cursor.remain, hr.cursor.head, hr.cursor.second]
    exact ⟨Nat.le_add_left _ _, hne⟩
  have hstep : uleStep ops s = { s with
      pc := .cell, h.newTs := false
      p.uleSkb := none, p.uleSnduType1 := false, p.uleSnduLen := 0 } := by
    unfold uleStep
    rw [hpc]
    dsimp only
    rw [dvbNetUleMore, if_pos hgo]
  generalize ht : uleStep ops s = t at hstep
  have hlt : t.h.ts < t.h.tsEnd := by
    rw [hstep]
    exact hr.ahead.lt
  have hnew : ¬ t.h.newTs = true := by
    rw [hstep]
    exact Bool.false_ne_true
  have hneed : ¬ t.p.needPusi = true := by
    rw [hstep]
    change ¬ s.p.needPusi = true
    rw [hr.needPusi]
    exact Bool.false_ne_true
  have h1 : uleStep ops t = t.goto .pusi := by
    unfold uleStep
    rw [show t.pc = .cell by rw [hstep]]
    dsimp only
    rw [if_pos hlt, if_neg hnew]
  have h2 : uleStep ops (t.goto .pusi) = t.goto .newTs := if_neg hneed
  have h3 : uleStep ops (t.goto .newTs) = t.goto .payload := if_neg hnew
  refine ⟨t.goto .payload,
    Leads.head ht (Leads.head h1 (Leads.head h2 (Leads.head h3 (Leads.refl _)))), rfl, ?_, ?_⟩
  · rw [hstep]
    exact ⟨rfl, rfl, hf.remain, rfl, hf.bridged⟩
  · rw [hstep]
    exact ⟨⟨hr.cursor.from_where, hr.cursor.remain, hr.cursor.le, hr.cursor.read⟩, hr.ahead,
      hr.needPusi, hr.tscc, hr.rxMode, hr.multiMacs, hr.out⟩

/-- The length field of a plain SNDU is not the End Indicator. -/
theorem Sndu.Plain.start_ne (hu : u.Plain) :
    ¬ (UInt8.ofNat (u.lenWord >>> 8) = 0xff ∧ UInt8.ofNat u.lenWord = 0xff) := by
  rintro ⟨hhi, hlo⟩
  have hword := be16_bytes16 (lenWord_lt u)
  rw [hhi, hlo] at hword
  exact hu.lenWord hword.symm

/-- **From the start of an SNDU to the end of the cell.** -/
theorem units_run (halloc : ops.AllocOk) {pend : List Sndu} {tail : List UInt8}
    (hends : Ends ops tail pend rest) (us : List Sndu) (hplain : ∀ u ∈ us, u.Plain) :
    ∀ {E : Ctx} {s : Ule}, Fresh s.p → Reading E ((us.map (Sndu.bytes ops)).flatten ++ tail) s →
      s.pc = .more ∨ s.pc = .payload ∧ (us ≠ [] ∨ pend ≠ []) →
      ∃ t, Leads (uleStep ops) s t ∧ AtCell (E.handAll ops us) t ∧
        Between ops E.tscc t.p pend rest := by
  induction us with
  | nil =>
    intro E s hf hr hpc
    rw [handAll_nil]
    cases hends with
    | fill m =>
      rcases hpc with hpc | ⟨-, hne⟩
      · obtain ⟨hat, hbet⟩ := more_stop ops hpc hf hr (replicate_stops m)
        exact ⟨_, Leads.single _, hat, hbet⟩
      · rcases hne with hne | hne <;> exact absurd rfl hne
    | part u v rest hu h2 hrest hsplit =>
      have hr : Reading E tail s := hr
      obtain ⟨b, b', v, rfl⟩ := exists_two_cons h2
      have hstart : ¬ (b = 0xff ∧ b' = 0xff) := by
        have hs := hsplit
        rw [bytes_eq] at hs
        obtain ⟨rfl, hs₁⟩ := List.cons_eq_cons.mp hs
        obtain ⟨rfl, -⟩ := List.cons_eq_cons.mp hs₁
        exact hu.start_ne
      obtain ⟨s', hlead, hpc', hf', hr'⟩ : ∃ s', Leads (uleStep ops) s s' ∧ s'.pc = .payload ∧
          Fresh s'.p ∧ Reading E (b :: b' :: v) s' := by
        rcases hpc with hpc | ⟨hpc, -⟩
        · exact more_next ops hpc hf hr hstart
        · exact ⟨s, Leads.refl s, hpc, hf, hr⟩
      obtain ⟨t, hlead', hat, hpend, htscc⟩ := part_run halloc hpc' hf' hr' h2 hsplit hrest
      exact ⟨t, hlead.trans hlead', hat, .within u rest hu hrest hpend htscc⟩
  | cons u us ih =>
    intro E s hf hr hpc
    have hu := hplain u (List.mem_cons_self ..)
    rw [List.map_cons, List.flatten_cons, List.append_assoc] at hr
    obtain ⟨s', hlead, hpc', hf', hr'⟩ : ∃ s', Leads (uleStep ops) s s' ∧ s'.pc = .payload ∧
        Fresh s'.p ∧
        Reading E (u.bytes ops ++ ((us.map (Sndu.bytes ops)).flatten ++ tail)) s' := by
      rcases hpc with hpc | ⟨hpc, -⟩
      · exact more_next ops hpc hf hr hu.start_ne
      · exact ⟨s, Leads.refl s, hpc, hf, hr⟩
    obtain ⟨s₂, hlead₂, hpc₂, hf₂, hr₂⟩ := unit_run halloc hu.type hpc' hf' hr'
    obtain ⟨t, hlead₃, hat, hbet⟩ := ih (fun w hw => hplain w (List.mem_cons_of_mem _ hw)) hf₂ hr₂
      (Or.inl hpc₂)
    rw [handAll_cons]
    exact ⟨t, (hlead.trans hlead₂).trans hlead₃, hat, hbet⟩

end Net
end TbsMedia
