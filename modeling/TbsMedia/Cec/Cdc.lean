import TbsMedia.Cec.Operands

/-!
# Capability discovery and control

All messages of this feature have the one opcode `CEC_MSG_CDC_MESSAGE`; which of them it is stands in
byte 4, behind the physical address of the sender, which the framework fills in.

* `CdcMessage`: the messages with their arguments; `cecMsgCdc` builds them, one case for each
  `cec_msg_cdc_*` function.
* `cecOpsCdc`: the `cec_ops_cdc_*` function that byte 4 selects, and what it reads.
* `cdc_comesBack_iff`: the functions are each other's inverses, but for two slips.  `HEC_REPORT_STATE` is read
  with the state of the host in the place of the state of the ENC, and `HEC_SET_STATE` is sent under the
  opcode of `HEC_INQUIRE_STATE`.
-/

namespace TbsMedia
namespace Cec

open Lib.Octets

def CEC_PHYS_ADDR_INVALID : UInt16 := 0xffff

def CEC_MSG_CDC_HEC_INQUIRE_STATE : UInt8 := 0x00
def CEC_MSG_CDC_HEC_REPORT_STATE : UInt8 := 0x01
def CEC_MSG_CDC_HEC_SET_STATE_ADJACENT : UInt8 := 0x02
def CEC_MSG_CDC_HEC_SET_STATE : UInt8 := 0x03
def CEC_MSG_CDC_HEC_REQUEST_DEACTIVATION : UInt8 := 0x04
def CEC_MSG_CDC_HEC_NOTIFY_ALIVE : UInt8 := 0x05
def CEC_MSG_CDC_HEC_DISCOVER : UInt8 := 0x06
def CEC_MSG_CDC_HPD_SET_STATE : UInt8 := 0x10
def CEC_MSG_CDC_HPD_REPORT_STATE : UInt8 := 0x11

/-- The messages and their arguments. -/
inductive CdcMessage where
  | hecInquireState (physAddr1 physAddr2 : UInt16)
  | hecReportState (targetPhysAddr : UInt16) (hecFuncState hostFuncState encFuncState cdcErrcode hasField : UInt8)
      (hecField : UInt16)
  | hecSetState (physAddr1 physAddr2 : UInt16) (hecSetState : UInt8) (physAddr3 physAddr4 physAddr5 : UInt16)
  | hecSetStateAdjacent (physAddr1 : UInt16) (hecSetState : UInt8)
  | hecRequestDeactivation (physAddr1 physAddr2 physAddr3 : UInt16)
  | hecNotifyAlive
  | hecDiscover
  | hpdSetState (inputPort hpdState : UInt8)
  | hpdReportState (hpdState hpdError : UInt8)
deriving DecidableEq

/-! ## Building -/

/-- The lines that all builders share.  Bytes 2 and 3 are left to the framework. -/
def cdcMessage (msg : CecMsg) (len : ℕ) (opcode : UInt8) (operands : List UInt8) : CecMsg :=
  ((msg.toAll.write 1 [CEC_MSG_CDC_MESSAGE]).write 4 (opcode :: operands)).setLen len

def cecMsgCdcHecInquireState (msg : CecMsg) (physAddr1 physAddr2 : UInt16) : CecMsg :=
  cdcMessage msg 9 CEC_MSG_CDC_HEC_INQUIRE_STATE [hi8 physAddr1, lo8 physAddr1, hi8 physAddr2, lo8 physAddr2]

def cecMsgCdcHecReportState (msg : CecMsg) (targetPhysAddr : UInt16)
    (hecFuncState hostFuncState encFuncState cdcErrcode hasField : UInt8) (hecField : UInt16) : CecMsg :=
  let states := hecFuncState <<< 6 ||| hostFuncState <<< 4 ||| encFuncState <<< 2 ||| cdcErrcode
  let built := cdcMessage msg (if hasField ≠ 0 then 10 else 8) CEC_MSG_CDC_HEC_REPORT_STATE
    [hi8 targetPhysAddr, lo8 targetPhysAddr, states]
  if hasField ≠ 0 then built.write 8 [hi8 hecField, lo8 hecField] else built

/-- One address behind the last operand. -/
def pushAddr (msg : CecMsg) (physAddr : UInt16) : CecMsg :=
  (msg.push (hi8 physAddr)).push (lo8 physAddr)

/-- The opcode is the one that the source writes, not the message's own. -/
def cecMsgCdcHecSetState (msg : CecMsg) (physAddr1 physAddr2 : UInt16) (hecSetState : UInt8)
    (physAddr3 physAddr4 physAddr5 : UInt16) : CecMsg :=
  let built := cdcMessage msg 10 CEC_MSG_CDC_HEC_INQUIRE_STATE
    [hi8 physAddr1, lo8 physAddr1, hi8 physAddr2, lo8 physAddr2, hecSetState]
  if physAddr3 ≠ CEC_PHYS_ADDR_INVALID then
    let built := pushAddr built physAddr3
    if physAddr4 ≠ CEC_PHYS_ADDR_INVALID then
      let built := pushAddr built physAddr4
      if physAddr5 ≠ CEC_PHYS_ADDR_INVALID then pushAddr built physAddr5 else built
    else built
  else built

def cecMsgCdcHecSetStateAdjacent (msg : CecMsg) (physAddr1 : UInt16) (hecSetState : UInt8) : CecMsg :=
  cdcMessage msg 8 CEC_MSG_CDC_HEC_SET_STATE_ADJACENT [hi8 physAddr1, lo8 physAddr1, hecSetState]

def cecMsgCdcHecRequestDeactivation (msg : CecMsg) (physAddr1 physAddr2 physAddr3 : UInt16) : CecMsg :=
  cdcMessage msg 11 CEC_MSG_CDC_HEC_REQUEST_DEACTIVATION
    [hi8 physAddr1, lo8 physAddr1, hi8 physAddr2, lo8 physAddr2, hi8 physAddr3, lo8 physAddr3]

def cecMsgCdcHecNotifyAlive (msg : CecMsg) : CecMsg :=
  cdcMessage msg 5 CEC_MSG_CDC_HEC_NOTIFY_ALIVE []

def cecMsgCdcHecDiscover (msg : CecMsg) : CecMsg :=
  cdcMessage msg 5 CEC_MSG_CDC_HEC_DISCOVER []

def cecMsgCdcHpdSetState (msg : CecMsg) (inputPort hpdState : UInt8) : CecMsg :=
  cdcMessage msg 6 CEC_MSG_CDC_HPD_SET_STATE [inputPort <<< 4 ||| hpdState]

def cecMsgCdcHpdReportState (msg : CecMsg) (hpdState hpdError : UInt8) : CecMsg :=
  cdcMessage msg 6 CEC_MSG_CDC_HPD_REPORT_STATE [hpdState <<< 4 ||| hpdError]

/-- The builder of a message, applied to its arguments. -/
def cecMsgCdc (msg : CecMsg) : CdcMessage → CecMsg
  | .hecInquireState a b => cecMsgCdcHecInquireState msg a b
  | .hecReportState t hec host enc err has field => cecMsgCdcHecReportState msg t hec host enc err has field
  | .hecSetState a b s c d e => cecMsgCdcHecSetState msg a b s c d e
  | .hecSetStateAdjacent a s => cecMsgCdcHecSetStateAdjacent msg a s
  | .hecRequestDeactivation a b c => cecMsgCdcHecRequestDeactivation msg a b c
  | .hecNotifyAlive => cecMsgCdcHecNotifyAlive msg
  | .hecDiscover => cecMsgCdcHecDiscover msg
  | .hpdSetState p s => cecMsgCdcHpdSetState msg p s
  | .hpdReportState s e => cecMsgCdcHpdReportState msg s e

/-! ## Reading -/

/-- What a reader returns: the address of the sender, and the arguments. -/
structure CdcRead where
  physAddr : UInt16
  message : CdcMessage
deriving DecidableEq

def cecOpsCdcHecInquireState (msg : CecMsg) : CdcRead :=
  ⟨msg.word 2, .hecInquireState (msg.word 5) (msg.word 7)⟩

/-- The state of the ENC is read from the bits of the host, as the source has it. -/
def cecOpsCdcHecReportState (msg : CecMsg) : CdcRead :=
  let hasField : UInt8 := if 10 ≤ msg.len then 1 else 0
  ⟨msg.word 2, .hecReportState (msg.word 5) (msg.msg 7 >>> 6) (msg.msg 7 >>> 4 &&& 3) (msg.msg 7 >>> 4 &&& 3)
    (msg.msg 7 &&& 3) hasField (if hasField ≠ 0 then msg.word 8 else 0)⟩

def cecOpsCdcHecSetState (msg : CecMsg) : CdcRead :=
  ⟨msg.word 2, .hecSetState (msg.word 5) (msg.word 7) (msg.msg 9)
    (if 12 ≤ msg.len then msg.word 10 else CEC_PHYS_ADDR_INVALID)
    (if 14 ≤ msg.len then msg.word 12 else CEC_PHYS_ADDR_INVALID)
    (if 16 ≤ msg.len then msg.word 14 else CEC_PHYS_ADDR_INVALID)⟩

def cecOpsCdcHecSetStateAdjacent (msg : CecMsg) : CdcRead :=
  ⟨msg.word 2, .hecSetStateAdjacent (msg.word 5) (msg.msg 7)⟩

def cecOpsCdcHecRequestDeactivation (msg : CecMsg) : CdcRead :=
  ⟨msg.word 2, .hecRequestDeactivation (msg.word 5) (msg.word 7) (msg.word 9)⟩

def cecOpsCdcHecNotifyAlive (msg : CecMsg) : CdcRead :=
  ⟨msg.word 2, .hecNotifyAlive⟩

def cecOpsCdcHecDiscover (msg : CecMsg) : CdcRead :=
  ⟨msg.word 2, .hecDiscover⟩

def cecOpsCdcHpdSetState (msg : CecMsg) : CdcRead :=
  ⟨msg.word 2, .hpdSetState (msg.msg 5 >>> 4) (msg.msg 5 &&& 0xf)⟩

def cecOpsCdcHpdReportState (msg : CecMsg) : CdcRead :=
  ⟨msg.word 2, .hpdReportState (msg.msg 5 >>> 4) (msg.msg 5 &&& 0xf)⟩

/-- The reader of each opcode. -/
def cdcReaders : List (UInt8 × (CecMsg → CdcRead)) :=
  [ (CEC_MSG_CDC_HEC_INQUIRE_STATE, cecOpsCdcHecInquireState),
    (CEC_MSG_CDC_HEC_REPORT_STATE, cecOpsCdcHecReportState),
    (CEC_MSG_CDC_HEC_SET_STATE_ADJACENT, cecOpsCdcHecSetStateAdjacent),
    (CEC_MSG_CDC_HEC_SET_STATE, cecOpsCdcHecSetState),
    (CEC_MSG_CDC_HEC_REQUEST_DEACTIVATION, cecOpsCdcHecRequestDeactivation),
    (CEC_MSG_CDC_HEC_NOTIFY_ALIVE, cecOpsCdcHecNotifyAlive),
    (CEC_MSG_CDC_HEC_DISCOVER, cecOpsCdcHecDiscover),
    (CEC_MSG_CDC_HPD_SET_STATE, cecOpsCdcHpdSetState),
    (CEC_MSG_CDC_HPD_REPORT_STATE, cecOpsCdcHpdReportState) ]

/-- The message read with the reader that byte 4 selects. -/
def cecOpsCdc (msg : CecMsg) : Option CdcRead :=
  (cdcReaders.lookup (msg.msg 4)).map fun ops => ops msg

/-! ## What is to come back -/

namespace CdcMessage

/-- The arguments are within the widths of their fields. -/
def Fits : CdcMessage → Prop
  | .hecReportState _ hec host enc err _ _ => hec < 4 ∧ host < 4 ∧ enc < 4 ∧ err < 4
  | .hpdSetState p s => p < 16 ∧ s < 16
  | .hpdReportState s e => s < 16 ∧ e < 16
  | _ => True

/-- The arguments as the message carries them: a field that is said not to be there counts as zero, and
behind an invalid address there are no others. -/
def carried : CdcMessage → CdcMessage
  | .hecReportState t hec host enc err has field =>
    .hecReportState t hec host enc err (if has ≠ 0 then 1 else 0) (if has ≠ 0 then field else 0)
  | .hecSetState a b s c d e =>
    .hecSetState a b s c (if c ≠ CEC_PHYS_ADDR_INVALID then d else CEC_PHYS_ADDR_INVALID)
      (if c ≠ CEC_PHYS_ADDR_INVALID ∧ d ≠ CEC_PHYS_ADDR_INVALID then e else CEC_PHYS_ADDR_INVALID)
  | c => c

/-- The messages that the slips do not touch. -/
def Spared : CdcMessage → Prop
  | .hecSetState .. => False
  | .hecReportState _ _ host enc _ _ _ => enc = host
  | _ => True

end CdcMessage

/-- Byte 4 of the built message selects the reader of its kind, and this returns the arguments. -/
def CdcComesBack (msg : CecMsg) (c : CdcMessage) : Prop :=
  (cecOpsCdc (cecMsgCdc msg c)).map CdcRead.message = some c.carried

/-! ## Fields -/

/-- Two fields of four bits. -/
theorem nibbles {a b : UInt8} (ha : a < 16) (hb : b < 16) :
    (a <<< 4 ||| b) >>> 4 = a ∧ (a <<< 4 ||| b) &&& 0xf = b := by
  have ha' : a.toNat < 16 := ha
  exact two_fields 4 rfl rfl (by decide) (by omega) hb

/-- Four fields of two bits. -/
theorem toNat_quarters {a b c d : UInt8} (ha : a < 4) (hb : b < 4) (hc : c < 4) (hd : d < 4) :
    (a <<< 6 ||| b <<< 4 ||| c <<< 2 ||| d).toNat = a.toNat * 64 + b.toNat * 16 + c.toNat * 4 + d.toNat := by
  have ha' : a.toNat < 4 := ha
  have hb' : b.toNat < 4 := hb
  have hc' : c.toNat < 4 := hc
  have hd' : d.toNat < 4 := hd
  have h6 : (a <<< 6).toNat = a.toNat * 2 ^ 6 := toNat_shiftLeft 6 rfl (by decide) (by omega)
  have h4 : (b <<< 4).toNat = b.toNat * 2 ^ 4 := toNat_shiftLeft 4 rfl (by decide) (by omega)
  have h2 : (c <<< 2).toNat = c.toNat * 2 ^ 2 := toNat_shiftLeft 2 rfl (by decide) (by omega)
  have hab : (a <<< 6 ||| b <<< 4).toNat = a.toNat * 64 + b.toNat * 16 := by
    rw [toNat_lor 6 (by omega) (by omega), h6, h4]
    rfl
  have habc : (a <<< 6 ||| b <<< 4 ||| c <<< 2).toNat = a.toNat * 64 + b.toNat * 16 + c.toNat * 4 := by
    rw [toNat_lor 4 (by omega) (by omega), hab, h2]
    rfl
  rw [toNat_lor 2 (by omega) hd', habc]

/-- The fields of a report, read from their own bits. -/
theorem quarters {a b c d : UInt8} (ha : a < 4) (hb : b < 4) (hc : c < 4) (hd : d < 4) :
    (a <<< 6 ||| b <<< 4 ||| c <<< 2 ||| d) >>> 6 = a ∧
      (a <<< 6 ||| b <<< 4 ||| c <<< 2 ||| d) >>> 4 &&& 3 = b ∧
        (a <<< 6 ||| b <<< 4 ||| c <<< 2 ||| d) &&& 3 = d := by
  have hsum := toNat_quarters ha hb hc hd
  have hb' : b.toNat < 4 := hb
  have hc' : c.toNat < 4 := hc
  have hd' : d.toNat < 4 := hd
  refine ⟨?_, ?_, ?_⟩
  · apply UInt8.toNat_inj.mp
    rw [toNat_shiftRight 6 rfl (by decide), hsum]
    omega
  · apply UInt8.toNat_inj.mp
    rw [toNat_land 2 rfl, toNat_shiftRight 4 rfl (by decide), hsum]
    omega
  · apply UInt8.toNat_inj.mp
    rw [toNat_land 2 rfl, hsum]
    omega

/-! ## One kind at a time -/

variable (msg : CecMsg)

theorem hecInquireState_built (a b : UInt16) :
    cecOpsCdc (cecMsgCdcHecInquireState msg a b) = some ⟨msg.word 2, .hecInquireState a b⟩ := by
  show some (⟨msg.word 2, .hecInquireState (be16 (hi8 a) (lo8 a)) (be16 (hi8 b) (lo8 b))⟩ : CdcRead) = _
  rw [be16_hi8_lo8, be16_hi8_lo8]

/-- What a report is read as: the state of the host stands twice. -/
theorem hecReportState_built (t : UInt16) {hec host enc err : UInt8} (has : UInt8) (field : UInt16)
    (hhec : hec < 4) (hhost : host < 4) (henc : enc < 4) (herr : err < 4) :
    cecOpsCdc (cecMsgCdcHecReportState msg t hec host enc err has field) =
      some ⟨msg.word 2,
        .hecReportState t hec host host err (if has ≠ 0 then 1 else 0) (if has ≠ 0 then field else 0)⟩ := by
  obtain ⟨hupper, hmiddle, hlower⟩ := quarters hhec hhost henc herr
  generalize hbyte : hec <<< 6 ||| host <<< 4 ||| enc <<< 2 ||| err = states at hupper hmiddle hlower
  by_cases hhas : has ≠ 0
  · have hbuilt : cecMsgCdcHecReportState msg t hec host enc err has field =
        (cdcMessage msg 10 CEC_MSG_CDC_HEC_REPORT_STATE [hi8 t, lo8 t, states]).write 8 [hi8 field, lo8 field] := by
      rw [cecMsgCdcHecReportState, hbyte, if_pos hhas, if_pos hhas]
    rw [hbuilt, if_pos hhas, if_pos hhas]
    show some (⟨msg.word 2, .hecReportState (be16 (hi8 t) (lo8 t)) (states >>> 6) (states >>> 4 &&& 3)
      (states >>> 4 &&& 3) (states &&& 3) 1 (be16 (hi8 field) (lo8 field))⟩ : CdcRead) = _
    rw [be16_hi8_lo8, be16_hi8_lo8, hupper, hmiddle, hlower]
  · have hbuilt : cecMsgCdcHecReportState msg t hec host enc err has field =
        cdcMessage msg 8 CEC_MSG_CDC_HEC_REPORT_STATE [hi8 t, lo8 t, states] := by
      rw [cecMsgCdcHecReportState, hbyte, if_neg hhas, if_neg hhas]
    rw [hbuilt, if_neg hhas, if_neg hhas]
    show some (⟨msg.word 2, .hecReportState (be16 (hi8 t) (lo8 t)) (states >>> 6) (states >>> 4 &&& 3)
      (states >>> 4 &&& 3) (states &&& 3) 0 0⟩ : CdcRead) = _
    rw [be16_hi8_lo8, hupper, hmiddle, hlower]

/-- The operands that are pushed stand behind the ones that are written. -/
theorem push_cdcMessage (opcode b : UInt8) (operands : List UInt8) :
    (cdcMessage msg (5 + operands.length) opcode operands).push b =
      cdcMessage msg (5 + (operands ++ [b]).length) opcode (operands ++ [b]) := by
  have hpush := CecMsg.push_write (msg.toAll.write 1 [CEC_MSG_CDC_MESSAGE]) 4 (opcode :: operands) b
  rw [List.length_cons, show 4 + (operands.length + 1) = 5 + operands.length by omega] at hpush
  rw [cdcMessage, hpush, cdcMessage, List.length_append, List.length_singleton, List.cons_append, ← Nat.add_assoc]

theorem pushAddr_cdcMessage (opcode : UInt8) (operands : List UInt8) (physAddr : UInt16) :
    pushAddr (cdcMessage msg (5 + operands.length) opcode operands) physAddr =
      cdcMessage msg (5 + (operands ++ [hi8 physAddr, lo8 physAddr]).length) opcode
        (operands ++ [hi8 physAddr, lo8 physAddr]) := by
  rw [pushAddr, push_cdcMessage, push_cdcMessage, List.append_assoc]
  rfl

/-- The addresses that a `HEC_SET_STATE` carries. -/
def laterAddrs (c d e : UInt16) : List UInt8 :=
  if c ≠ CEC_PHYS_ADDR_INVALID then
    [hi8 c, lo8 c] ++ if d ≠ CEC_PHYS_ADDR_INVALID then
      [hi8 d, lo8 d] ++ if e ≠ CEC_PHYS_ADDR_INVALID then [hi8 e, lo8 e] else []
    else []
  else []

theorem cecMsgCdcHecSetState_eq (a b : UInt16) (s : UInt8) (c d e : UInt16) :
    cecMsgCdcHecSetState msg a b s c d e =
      cdcMessage msg (10 + (laterAddrs c d e).length) CEC_MSG_CDC_HEC_INQUIRE_STATE
        ([hi8 a, lo8 a, hi8 b, lo8 b, s] ++ laterAddrs c d e) := by
  have h3 : pushAddr (cdcMessage msg 10 CEC_MSG_CDC_HEC_INQUIRE_STATE [hi8 a, lo8 a, hi8 b, lo8 b, s]) c =
      cdcMessage msg 12 CEC_MSG_CDC_HEC_INQUIRE_STATE [hi8 a, lo8 a, hi8 b, lo8 b, s, hi8 c, lo8 c] :=
    pushAddr_cdcMessage msg _ [hi8 a, lo8 a, hi8 b, lo8 b, s] c
  have h4 : pushAddr (cdcMessage msg 12 CEC_MSG_CDC_HEC_INQUIRE_STATE
      [hi8 a, lo8 a, hi8 b, lo8 b, s, hi8 c, lo8 c]) d =
      cdcMessage msg 14 CEC_MSG_CDC_HEC_INQUIRE_STATE
        [hi8 a, lo8 a, hi8 b, lo8 b, s, hi8 c, lo8 c, hi8 d, lo8 d] :=
    pushAddr_cdcMessage msg _ [hi8 a, lo8 a, hi8 b, lo8 b, s, hi8 c, lo8 c] d
  have h5 : pushAddr (cdcMessage msg 14 CEC_MSG_CDC_HEC_INQUIRE_STATE
      [hi8 a, lo8 a, hi8 b, lo8 b, s, hi8 c, lo8 c, hi8 d, lo8 d]) e =
      cdcMessage msg 16 CEC_MSG_CDC_HEC_INQUIRE_STATE
        [hi8 a, lo8 a, hi8 b, lo8 b, s, hi8 c, lo8 c, hi8 d, lo8 d, hi8 e, lo8 e] :=
    pushAddr_cdcMessage msg _ [hi8 a, lo8 a, hi8 b, lo8 b, s, hi8 c, lo8 c, hi8 d, lo8 d] e
  unfold cecMsgCdcHecSetState laterAddrs
  dsimp only
  rw [h3, h4, h5]
  by_cases hc : c ≠ CEC_PHYS_ADDR_INVALID
  · rw [if_pos hc, if_pos hc]
    by_cases hd : d ≠ CEC_PHYS_ADDR_INVALID
    · rw [if_pos hd, if_pos hd]
      by_cases he : e ≠ CEC_PHYS_ADDR_INVALID
      · rw [if_pos he, if_pos he]
        rfl
      · rw [if_neg he, if_neg he]
        rfl
    · rw [if_neg hd, if_neg hd]
      rfl
  · rw [if_neg hc, if_neg hc]
    rfl

/-- What is pushed behind the operands of `HEC_SET_STATE` does not reach byte 4. -/
theorem hecSetState_built (a b : UInt16) (s : UInt8) (c d e : UInt16) :
    cecOpsCdc (cecMsgCdcHecSetState msg a b s c d e) = some ⟨msg.word 2, .hecInquireState a b⟩ := by
  have hread : cecOpsCdc (cecMsgCdcHecSetState msg a b s c d e) =
      some ⟨msg.word 2, .hecInquireState (be16 (hi8 a) (lo8 a)) (be16 (hi8 b) (lo8 b))⟩ := by
    rw [cecMsgCdcHecSetState_eq]
    unfold laterAddrs
    split_ifs <;> rfl
  rw [hread, be16_hi8_lo8, be16_hi8_lo8]

theorem hecSetStateAdjacent_built (a : UInt16) (s : UInt8) :
    cecOpsCdc (cecMsgCdcHecSetStateAdjacent msg a s) = some ⟨msg.word 2, .hecSetStateAdjacent a s⟩ := by
  show some (⟨msg.word 2, .hecSetStateAdjacent (be16 (hi8 a) (lo8 a)) s⟩ : CdcRead) = _
  rw [be16_hi8_lo8]

theorem hecRequestDeactivation_built (a b c : UInt16) :
    cecOpsCdc (cecMsgCdcHecRequestDeactivation msg a b c) =
      some ⟨msg.word 2, .hecRequestDeactivation a b c⟩ := by
  show some (⟨msg.word 2, .hecRequestDeactivation (be16 (hi8 a) (lo8 a)) (be16 (hi8 b) (lo8 b))
    (be16 (hi8 c) (lo8 c))⟩ : CdcRead) = _
  rw [be16_hi8_lo8, be16_hi8_lo8, be16_hi8_lo8]

theorem hpdSetState_built {p s : UInt8} (hp : p < 16) (hs : s < 16) :
    cecOpsCdc (cecMsgCdcHpdSetState msg p s) = some ⟨msg.word 2, .hpdSetState p s⟩ := by
  show some (⟨msg.word 2, .hpdSetState ((p <<< 4 ||| s) >>> 4) ((p <<< 4 ||| s) &&& 0xf)⟩ : CdcRead) = _
  rw [(nibbles hp hs).1, (nibbles hp hs).2]

theorem hpdReportState_built {s e : UInt8} (hs : s < 16) (he : e < 16) :
    cecOpsCdc (cecMsgCdcHpdReportState msg s e) = some ⟨msg.word 2, .hpdReportState s e⟩ := by
  show some (⟨msg.word 2, .hpdReportState ((s <<< 4 ||| e) >>> 4) ((s <<< 4 ||| e) &&& 0xf)⟩ : CdcRead) = _
  rw [(nibbles hs he).1, (nibbles hs he).2]

/-! ## All kinds -/

/-- **The builders and readers of the feature are inverse to each other, but for two slips.**  The message that is
built from arguments within their fields is dispatched to the reader of its kind and comes back with its
arguments exactly where it is not `HEC_SET_STATE`, and where a `HEC_REPORT_STATE` tells the same state of
the host and of the ENC. -/
theorem cdc_comesBack_iff (c : CdcMessage) (h : c.Fits) : CdcComesBack msg c ↔ c.Spared := by
  unfold CdcComesBack
  rcases c with ⟨a, b⟩ | ⟨t, hec, host, enc, err, has, field⟩ | ⟨a, b, s, c, d, e⟩ | ⟨a, s⟩ | ⟨a, b, c⟩ |
    _ | _ | ⟨p, s⟩ | ⟨s, e⟩
  · exact iff_of_true (congrArg _ (hecInquireState_built msg a b)) trivial
  · obtain ⟨hhec, hhost, henc, herr⟩ := h
    have hbuilt := hecReportState_built msg t has field hhec hhost henc herr
    constructor
    · intro hback
      have hread := hback.symm.trans (congrArg _ hbuilt)
      exact (CdcMessage.hecReportState.inj (Option.some.inj hread)).2.2.2.1
    · intro hsame
      rw [show enc = host from hsame] at hbuilt ⊢
      exact congrArg _ hbuilt
  · refine iff_of_false ?_ not_false
    intro hback
    have hread := hback.symm.trans (congrArg _ (hecSetState_built msg a b s c d e))
    exact CdcMessage.noConfusion (Option.some.inj hread)
  · exact iff_of_true (congrArg _ (hecSetStateAdjacent_built msg a s)) trivial
  · exact iff_of_true (congrArg _ (hecRequestDeactivation_built msg a b c)) trivial
  · exact iff_of_true rfl trivial
  · exact iff_of_true rfl trivial
  · exact iff_of_true (congrArg _ (hpdSetState_built msg h.1 h.2)) trivial
  · exact iff_of_true (congrArg _ (hpdReportState_built msg h.1 h.2)) trivial

/-- A report of an active host and an active ENC, with an error and a field. -/
theorem cdc_comesBack_iff_report : (CdcMessage.hecReportState 0x1000 2 1 1 3 1 0x0102).Fits ∧
    (CdcComesBack CecMsg.blank (.hecReportState 0x1000 2 1 1 3 1 0x0102) ↔
      (CdcMessage.hecReportState 0x1000 2 1 1 3 1 0x0102).Spared) := by
  have hfits : (CdcMessage.hecReportState 0x1000 2 1 1 3 1 0x0102).Fits :=
    ⟨by decide, by decide, by decide, by decide⟩
  exact ⟨hfits, cdc_comesBack_iff CecMsg.blank _ hfits⟩

/-- A report of an inactive host and an active ENC is read as one of an inactive ENC, and a request to activate
a channel is read as an inquiry. -/
theorem not_cdc_comesBack :
    (CdcMessage.hecReportState 0x1000 2 1 2 0 0 0).Fits ∧
      ¬ CdcComesBack CecMsg.blank (.hecReportState 0x1000 2 1 2 0 0 0) ∧
        (CdcMessage.hecSetState 0x1000 0x2000 1 0xffff 0xffff 0xffff).Fits ∧
          ¬ CdcComesBack CecMsg.blank (.hecSetState 0x1000 0x2000 1 0xffff 0xffff 0xffff) := by
  refine ⟨⟨by decide, by decide, by decide, by decide⟩, ?_, trivial, ?_⟩
  · unfold CdcComesBack
    decide +kernel
  · unfold CdcComesBack
    decide +kernel

end Cec
end TbsMedia
