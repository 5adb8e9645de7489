import Mathlib

/-!
# CEC messages

* `CecMsg`: `struct cec_msg`, with the readers of its header block.
* `cecMsgSize`: the table of `cec-adap.c` with the least length of each opcode and the ways it may be
  addressed.
* `cecMsgSize_broadcast`: an opcode that may be broadcast by any version may be broadcast from version 2.0 on.
-/

namespace TbsMedia
namespace Cec

abbrev CEC_MAX_MSG_SIZE : ℕ := 16

instance : NeZero CEC_MAX_MSG_SIZE := ⟨by decide⟩

def CEC_LOG_ADDR_UNREGISTERED : UInt8 := 15

def CEC_TX_STATUS_OK : UInt8 := 0x01
def CEC_TX_STATUS_ARB_LOST : UInt8 := 0x02
def CEC_TX_STATUS_NACK : UInt8 := 0x04
def CEC_TX_STATUS_LOW_DRIVE : UInt8 := 0x08
def CEC_TX_STATUS_ERROR : UInt8 := 0x10
def CEC_TX_STATUS_MAX_RETRIES : UInt8 := 0x20
def CEC_TX_STATUS_ABORTED : UInt8 := 0x40
def CEC_TX_STATUS_TIMEOUT : UInt8 := 0x80

def CEC_RX_STATUS_OK : UInt8 := 0x01
def CEC_RX_STATUS_TIMEOUT : UInt8 := 0x02
def CEC_RX_STATUS_FEATURE_ABORT : UInt8 := 0x04
def CEC_RX_STATUS_ABORTED : UInt8 := 0x08

def CEC_OP_CEC_VERSION_1_4 : UInt8 := 5
def CEC_OP_CEC_VERSION_2_0 : UInt8 := 6

def CEC_OP_PROG_INFO_NOT_ENOUGH_SPACE : UInt8 := 0x09
def CEC_OP_PROG_INFO_MIGHT_NOT_BE_ENOUGH_SPACE : UInt8 := 0x0b
def CEC_OP_PROG_ERROR_DUPLICATE : UInt8 := 0x0e

def CEC_OP_RECORD_SRC_OWN : UInt8 := 1
def CEC_OP_RECORD_SRC_DIGITAL : UInt8 := 2
def CEC_OP_RECORD_SRC_ANALOG : UInt8 := 3
def CEC_OP_RECORD_SRC_EXT_PLUG : UInt8 := 4
def CEC_OP_RECORD_SRC_EXT_PHYS_ADDR : UInt8 := 5

/-! ## The message -/

/-- A `struct cec_msg`. -/
structure CecMsg where
  txTs : ℕ
  rxTs : ℕ
  len : ℕ
  timeout : ℕ
  sequence : ℕ
  flags : UInt32
  msg : Fin CEC_MAX_MSG_SIZE → UInt8
  reply : UInt8
  rxStatus : UInt8
  txStatus : UInt8
  txArbLostCnt : UInt8
  txNackCnt : UInt8
  txLowDriveCnt : UInt8
  txErrorCnt : UInt8

namespace CecMsg

/-- `cec_msg_initiator`. -/
def initiator (m : CecMsg) : UInt8 :=
  m.msg 0 >>> 4

/-- `cec_msg_destination`. -/
def destination (m : CecMsg) : UInt8 :=
  m.msg 0 &&& 0xf

/-- `cec_msg_is_broadcast`. -/
def isBroadcast (m : CecMsg) : Bool :=
  m.msg 0 &&& 0xf == 0xf

end CecMsg

/-! ## Opcodes -/

def CEC_MSG_ACTIVE_SOURCE : UInt8 := 0x82
def CEC_MSG_IMAGE_VIEW_ON : UInt8 := 0x04
def CEC_MSG_TEXT_VIEW_ON : UInt8 := 0x0d
def CEC_MSG_INACTIVE_SOURCE : UInt8 := 0x9d
def CEC_MSG_REQUEST_ACTIVE_SOURCE : UInt8 := 0x85
def CEC_MSG_ROUTING_CHANGE : UInt8 := 0x80
def CEC_MSG_ROUTING_INFORMATION : UInt8 := 0x81
def CEC_MSG_SET_STREAM_PATH : UInt8 := 0x86
def CEC_MSG_STANDBY : UInt8 := 0x36
def CEC_MSG_RECORD_OFF : UInt8 := 0x0b
def CEC_MSG_RECORD_ON : UInt8 := 0x09
def CEC_MSG_RECORD_STATUS : UInt8 := 0x0a
def CEC_MSG_RECORD_TV_SCREEN : UInt8 := 0x0f
def CEC_MSG_CLEAR_ANALOGUE_TIMER : UInt8 := 0x33
def CEC_MSG_CLEAR_DIGITAL_TIMER : UInt8 := 0x99
def CEC_MSG_CLEAR_EXT_TIMER : UInt8 := 0xa1
def CEC_MSG_SET_ANALOGUE_TIMER : UInt8 := 0x34
def CEC_MSG_SET_DIGITAL_TIMER : UInt8 := 0x97
def CEC_MSG_SET_EXT_TIMER : UInt8 := 0xa2
def CEC_MSG_SET_TIMER_PROGRAM_TITLE : UInt8 := 0x67
def CEC_MSG_TIMER_CLEARED_STATUS : UInt8 := 0x43
def CEC_MSG_TIMER_STATUS : UInt8 := 0x35
def CEC_MSG_CEC_VERSION : UInt8 := 0x9e
def CEC_MSG_GET_CEC_VERSION : UInt8 := 0x9f
def CEC_MSG_GIVE_PHYSICAL_ADDR : UInt8 := 0x83
def CEC_MSG_GET_MENU_LANGUAGE : UInt8 := 0x91
def CEC_MSG_REPORT_PHYSICAL_ADDR : UInt8 := 0x84
def CEC_MSG_SET_MENU_LANGUAGE : UInt8 := 0x32
def CEC_MSG_REPORT_FEATURES : UInt8 := 0xa6
def CEC_MSG_GIVE_FEATURES : UInt8 := 0xa5
def CEC_MSG_DECK_CONTROL : UInt8 := 0x42
def CEC_MSG_DECK_STATUS : UInt8 := 0x1b
def CEC_MSG_GIVE_DECK_STATUS : UInt8 := 0x1a
def CEC_MSG_PLAY : UInt8 := 0x41
def CEC_MSG_GIVE_TUNER_DEVICE_STATUS : UInt8 := 0x08
def CEC_MSG_SELECT_ANALOGUE_SERVICE : UInt8 := 0x92
def CEC_MSG_SELECT_DIGITAL_SERVICE : UInt8 := 0x93
def CEC_MSG_TUNER_DEVICE_STATUS : UInt8 := 0x07
def CEC_MSG_TUNER_STEP_DECREMENT : UInt8 := 0x06
def CEC_MSG_TUNER_STEP_INCREMENT : UInt8 := 0x05
def CEC_MSG_DEVICE_VENDOR_ID : UInt8 := 0x87
def CEC_MSG_GIVE_DEVICE_VENDOR_ID : UInt8 := 0x8c
def CEC_MSG_VENDOR_COMMAND : UInt8 := 0x89
def CEC_MSG_VENDOR_COMMAND_WITH_ID : UInt8 := 0xa0
def CEC_MSG_VENDOR_REMOTE_BUTTON_DOWN : UInt8 := 0x8a
def CEC_MSG_VENDOR_REMOTE_BUTTON_UP : UInt8 := 0x8b
def CEC_MSG_SET_OSD_STRING : UInt8 := 0x64
def CEC_MSG_GIVE_OSD_NAME : UInt8 := 0x46
def CEC_MSG_SET_OSD_NAME : UInt8 := 0x47
def CEC_MSG_MENU_REQUEST : UInt8 := 0x8d
def CEC_MSG_MENU_STATUS : UInt8 := 0x8e
def CEC_MSG_USER_CONTROL_PRESSED : UInt8 := 0x44
def CEC_MSG_USER_CONTROL_RELEASED : UInt8 := 0x45
def CEC_MSG_GIVE_DEVICE_POWER_STATUS : UInt8 := 0x8f
def CEC_MSG_REPORT_POWER_STATUS : UInt8 := 0x90
def CEC_MSG_FEATURE_ABORT : UInt8 := 0x00
def CEC_MSG_ABORT : UInt8 := 0xff
def CEC_MSG_GIVE_AUDIO_STATUS : UInt8 := 0x71
def CEC_MSG_GIVE_SYSTEM_AUDIO_MODE_STATUS : UInt8 := 0x7d
def CEC_MSG_REPORT_AUDIO_STATUS : UInt8 := 0x7a
def CEC_MSG_REPORT_SHORT_AUDIO_DESCRIPTOR : UInt8 := 0xa3
def CEC_MSG_REQUEST_SHORT_AUDIO_DESCRIPTOR : UInt8 := 0xa4
def CEC_MSG_SET_SYSTEM_AUDIO_MODE : UInt8 := 0x72
def CEC_MSG_SYSTEM_AUDIO_MODE_REQUEST : UInt8 := 0x70
def CEC_MSG_SYSTEM_AUDIO_MODE_STATUS : UInt8 := 0x7e
def CEC_MSG_SET_AUDIO_RATE : UInt8 := 0x9a
def CEC_MSG_INITIATE_ARC : UInt8 := 0xc0
def CEC_MSG_REPORT_ARC_INITIATED : UInt8 := 0xc1
def CEC_MSG_REPORT_ARC_TERMINATED : UInt8 := 0xc2
def CEC_MSG_REQUEST_ARC_INITIATION : UInt8 := 0xc3
def CEC_MSG_REQUEST_ARC_TERMINATION : UInt8 := 0xc4
def CEC_MSG_TERMINATE_ARC : UInt8 := 0xc5
def CEC_MSG_REQUEST_CURRENT_LATENCY : UInt8 := 0xa7
def CEC_MSG_REPORT_CURRENT_LATENCY : UInt8 := 0xa8
def CEC_MSG_CDC_MESSAGE : UInt8 := 0xf8

def DIRECTED : UInt8 := 0x80
def BCAST1_4 : UInt8 := 0x40
def BCAST2_0 : UInt8 := 0x20
def BCAST : UInt8 := BCAST1_4 ||| BCAST2_0
def BOTH : UInt8 := BCAST ||| DIRECTED

/-- The entries of `cec_msg_size` that are not zero. -/
def cecMsgSizes : List (UInt8 × UInt8) :=
  [ (CEC_MSG_ACTIVE_SOURCE, 4 ||| BCAST),
    (CEC_MSG_IMAGE_VIEW_ON, 2 ||| DIRECTED),
    (CEC_MSG_TEXT_VIEW_ON, 2 ||| DIRECTED),
    (CEC_MSG_INACTIVE_SOURCE, 4 ||| DIRECTED),
    (CEC_MSG_REQUEST_ACTIVE_SOURCE, 2 ||| BCAST),
    (CEC_MSG_ROUTING_CHANGE, 6 ||| BCAST),
    (CEC_MSG_ROUTING_INFORMATION, 4 ||| BCAST),
    (CEC_MSG_SET_STREAM_PATH, 4 ||| BCAST),
    (CEC_MSG_STANDBY, 2 ||| BOTH),
    (CEC_MSG_RECORD_OFF, 2 ||| DIRECTED),
    (CEC_MSG_RECORD_ON, 3 ||| DIRECTED),
    (CEC_MSG_RECORD_STATUS, 3 ||| DIRECTED),
    (CEC_MSG_RECORD_TV_SCREEN, 2 ||| DIRECTED),
    (CEC_MSG_CLEAR_ANALOGUE_TIMER, 13 ||| DIRECTED),
    (CEC_MSG_CLEAR_DIGITAL_TIMER, 16 ||| DIRECTED),
    (CEC_MSG_CLEAR_EXT_TIMER, 13 ||| DIRECTED),
    (CEC_MSG_SET_ANALOGUE_TIMER, 13 ||| DIRECTED),
    (CEC_MSG_SET_DIGITAL_TIMER, 16 ||| DIRECTED),
    (CEC_MSG_SET_EXT_TIMER, 13 ||| DIRECTED),
    (CEC_MSG_SET_TIMER_PROGRAM_TITLE, 2 ||| DIRECTED),
    (CEC_MSG_TIMER_CLEARED_STATUS, 3 ||| DIRECTED),
    (CEC_MSG_TIMER_STATUS, 3 ||| DIRECTED),
    (CEC_MSG_CEC_VERSION, 3 ||| DIRECTED),
    (CEC_MSG_GET_CEC_VERSION, 2 ||| DIRECTED),
    (CEC_MSG_GIVE_PHYSICAL_ADDR, 2 ||| DIRECTED),
    (CEC_MSG_GET_MENU_LANGUAGE, 2 ||| DIRECTED),
    (CEC_MSG_REPORT_PHYSICAL_ADDR, 5 ||| BCAST),
    (CEC_MSG_SET_MENU_LANGUAGE, 5 ||| BCAST),
    (CEC_MSG_REPORT_FEATURES, 6 ||| BCAST),
    (CEC_MSG_GIVE_FEATURES, 2 ||| DIRECTED),
    (CEC_MSG_DECK_CONTROL, 3 ||| DIRECTED),
    (CEC_MSG_DECK_STATUS, 3 ||| DIRECTED),
    (CEC_MSG_GIVE_DECK_STATUS, 3 ||| DIRECTED),
    (CEC_MSG_PLAY, 3 ||| DIRECTED),
    (CEC_MSG_GIVE_TUNER_DEVICE_STATUS, 3 ||| DIRECTED),
    (CEC_MSG_SELECT_ANALOGUE_SERVICE, 6 ||| DIRECTED),
    (CEC_MSG_SELECT_DIGITAL_SERVICE, 9 ||| DIRECTED),
    (CEC_MSG_TUNER_DEVICE_STATUS, 7 ||| DIRECTED),
    (CEC_MSG_TUNER_STEP_DECREMENT, 2 ||| DIRECTED),
    (CEC_MSG_TUNER_STEP_INCREMENT, 2 ||| DIRECTED),
    (CEC_MSG_DEVICE_VENDOR_ID, 5 ||| BCAST),
    (CEC_MSG_GIVE_DEVICE_VENDOR_ID, 2 ||| DIRECTED),
    (CEC_MSG_VENDOR_COMMAND, 2 ||| DIRECTED),
    (CEC_MSG_VENDOR_COMMAND_WITH_ID, 5 ||| BOTH),
    (CEC_MSG_VENDOR_REMOTE_BUTTON_DOWN, 2 ||| BOTH),
    (CEC_MSG_VENDOR_REMOTE_BUTTON_UP, 2 ||| BOTH),
    (CEC_MSG_SET_OSD_STRING, 3 ||| DIRECTED),
    (CEC_MSG_GIVE_OSD_NAME, 2 ||| DIRECTED),
    (CEC_MSG_SET_OSD_NAME, 2 ||| DIRECTED),
    (CEC_MSG_MENU_REQUEST, 3 ||| DIRECTED),
    (CEC_MSG_MENU_STATUS, 3 ||| DIRECTED),
    (CEC_MSG_USER_CONTROL_PRESSED, 3 ||| DIRECTED),
    (CEC_MSG_USER_CONTROL_RELEASED, 2 ||| DIRECTED),
    (CEC_MSG_GIVE_DEVICE_POWER_STATUS, 2 ||| DIRECTED),
    (CEC_MSG_REPORT_POWER_STATUS, 3 ||| DIRECTED ||| BCAST2_0),
    (CEC_MSG_FEATURE_ABORT, 4 ||| DIRECTED),
    (CEC_MSG_ABORT, 2 ||| DIRECTED),
    (CEC_MSG_GIVE_AUDIO_STATUS, 2 ||| DIRECTED),
    (CEC_MSG_GIVE_SYSTEM_AUDIO_MODE_STATUS, 2 ||| DIRECTED),
    (CEC_MSG_REPORT_AUDIO_STATUS, 3 ||| DIRECTED),
    (CEC_MSG_REPORT_SHORT_AUDIO_DESCRIPTOR, 2 ||| DIRECTED),
    (CEC_MSG_REQUEST_SHORT_AUDIO_DESCRIPTOR, 2 ||| DIRECTED),
    (CEC_MSG_SET_SYSTEM_AUDIO_MODE, 3 ||| BOTH),
    (CEC_MSG_SYSTEM_AUDIO_MODE_REQUEST, 2 ||| DIRECTED),
    (CEC_MSG_SYSTEM_AUDIO_MODE_STATUS, 3 ||| DIRECTED),
    (CEC_MSG_SET_AUDIO_RATE, 3 ||| DIRECTED),
    (CEC_MSG_INITIATE_ARC, 2 ||| DIRECTED),
    (CEC_MSG_REPORT_ARC_INITIATED, 2 ||| DIRECTED),
    (CEC_MSG_REPORT_ARC_TERMINATED, 2 ||| DIRECTED),
    (CEC_MSG_REQUEST_ARC_INITIATION, 2 ||| DIRECTED),
    (CEC_MSG_REQUEST_ARC_TERMINATION, 2 ||| DIRECTED),
    (CEC_MSG_TERMINATE_ARC, 2 ||| DIRECTED),
    (CEC_MSG_REQUEST_CURRENT_LATENCY, 4 ||| BCAST),
    (CEC_MSG_REPORT_CURRENT_LATENCY, 6 ||| BCAST),
    (CEC_MSG_CDC_MESSAGE, 2 ||| BCAST) ]

/-- `cec_msg_size`: the least length of a message and the ways it may be addressed. -/
def cecMsgSize (cmd : UInt8) : UInt8 :=
  (cecMsgSizes.lookup cmd).getD 0

/-- An entry of the table is one of the listed ones, or zero. -/
theorem cecMsgSize_mem (cmd : UInt8) : (cmd, cecMsgSize cmd) ∈ cecMsgSizes ∨ cecMsgSize cmd = 0 := by
  unfold cecMsgSize
  rcases h : cecMsgSizes.lookup cmd with _ | size
  · exact Or.inr rfl
  · obtain ⟨before, after, hl, -⟩ := List.lookup_eq_some_iff.mp h
    left
    rw [hl]
    simp

/-- What any version may broadcast, version 2.0 may broadcast. -/
theorem cecMsgSize_broadcast (cmd : UInt8) (h : cecMsgSize cmd &&& BCAST1_4 ≠ 0) :
    cecMsgSize cmd &&& BCAST2_0 ≠ 0 := by
  have hall : cecMsgSizes.all (fun e => e.2 &&& BCAST1_4 == 0 || e.2 &&& BCAST2_0 != 0) = true := by decide
  rcases cecMsgSize_mem cmd with hm | hz
  · have hentry := List.all_eq_true.mp hall _ hm
    rw [Bool.or_eq_true, beq_iff_eq, bne_iff_ne] at hentry
    exact hentry.resolve_left h
  · rw [hz] at h
    exact absurd rfl h

/-- A listed opcode has a least length. -/
theorem cecMsgSize_minLen (cmd : UInt8) (h : cecMsgSize cmd ≠ 0) : cecMsgSize cmd &&& 0x1f ≠ 0 := by
  have hall : cecMsgSizes.all (fun e => e.2 &&& 0x1f != 0) = true := by decide
  rcases cecMsgSize_mem cmd with hm | hz
  · exact bne_iff_ne.mp (List.all_eq_true.mp hall _ hm)
  · exact absurd hz h

end Cec
end TbsMedia
