import TbsMedia.Cec.Operands

/-!
# Messages with structured operands

The messages of `cec-funcs.h` that carry services, channels, times, strings and descriptors: the `cec_msg_*`
function that builds each of them, and the `cec_ops_*` function that reads it.

* `CecStructured`: the messages with their arguments; the members of a union stand side by side, and one that
  its tag does not select counts as zero.
* `cecMsgStructured`, `cecOpsStructured`: all builders and all readers.
-/

namespace TbsMedia
namespace Cec

open Lib.Octets

/-! ## The arguments -/

/-- `struct cec_op_channel_data`. -/
structure ChannelData where
  channelNumberFmt : UInt8
  major : UInt16
  minor : UInt16
deriving DecidableEq

/-- `struct cec_op_digital_service_id`.  The ARIB and the DVB member of the union are the same three words; of
these the ATSC member has the first two, and calls the second one the program number. -/
structure DigitalServiceId where
  serviceIdMethod : UInt8
  digBcastSystem : UInt8
  channel : ChannelData
  transportId : UInt16
  serviceId : UInt16
  origNetworkId : UInt16
deriving DecidableEq

structure AnalogService where
  anaBcastType : UInt8
  anaFreq : UInt16
  bcastSystem : UInt8
deriving DecidableEq

/-- `struct cec_op_record_src`, one case for each type. -/
inductive RecordSrc where
  | own
  | digital (d : DigitalServiceId)
  | analog (a : AnalogService)
  | extPlug (plug : UInt8)
  | extPhysAddr (physAddr : UInt16)
deriving DecidableEq

/-- The first arguments of the six timer messages. -/
structure TimerSlot where
  day : UInt8
  month : UInt8
  startHr : UInt8
  startMin : UInt8
  durationHr : UInt8
  durationMin : UInt8
  recordingSeq : UInt8
deriving DecidableEq

/-- The last arguments of the messages about timers of an external source. -/
structure ExtSource where
  extSrcSpec : UInt8
  plug : UInt8
  physAddr : UInt16
deriving DecidableEq

/-- The arguments of `cec_msg_timer_status`. -/
structure TimerStatus where
  timerOverlapWarning : UInt8
  mediaInfo : UInt8
  progInfo : UInt8
  progError : UInt8
  durationHr : UInt8
  durationMin : UInt8
deriving DecidableEq

/-- The union of `struct cec_op_tuner_device_info`; `is_analog` is its tag. -/
inductive TunerService where
  | analog (a : AnalogService)
  | digital (d : DigitalServiceId)
deriving DecidableEq

/-- `struct cec_op_tuner_device_info`. -/
structure TunerDeviceInfo where
  recFlag : UInt8
  tunerDisplayInfo : UInt8
  service : TunerService
deriving DecidableEq

/-- `struct cec_op_ui_command`.  `play_mode` stands for all members of one byte. -/
structure UiCommand where
  uiCmd : UInt8
  hasOptArg : UInt8
  channelIdentifier : ChannelData
  playMode : UInt8
deriving DecidableEq

/-- The arguments of `cec_msg_report_current_latency`. -/
structure Latency where
  physAddr : UInt16
  videoLatency : UInt8
  lowLatencyMode : UInt8
  audioOutCompensated : UInt8
  audioOutDelay : UInt8
deriving DecidableEq

/-- The messages. -/
inductive CecStructured where
  | recordOn (src : RecordSrc)
  | recordStatus (recStatus : UInt8)
  | timerStatus (status : TimerStatus)
  | timerClearedStatus (timerClearedStatus : UInt8)
  | clearAnalogueTimer (slot : TimerSlot) (a : AnalogService)
  | clearDigitalTimer (slot : TimerSlot) (d : DigitalServiceId)
  | clearExtTimer (slot : TimerSlot) (e : ExtSource)
  | setAnalogueTimer (slot : TimerSlot) (a : AnalogService)
  | setDigitalTimer (slot : TimerSlot) (d : DigitalServiceId)
  | setExtTimer (slot : TimerSlot) (e : ExtSource)
  | setTimerProgramTitle (progTitle : List UInt8)
  | tunerDeviceStatus (info : TunerDeviceInfo)
  | selectAnalogueService (a : AnalogService)
  | selectDigitalService (d : DigitalServiceId)
  | deviceVendorId (vendorId : UInt32)
  | vendorCommand (vendorCmd : List UInt8)
  | vendorCommandWithId (vendorId : UInt32) (vendorCmd : List UInt8)
  | vendorRemoteButtonDown (rcCode : List UInt8)
  | setOsdString (dispCtl : UInt8) (osd : List UInt8)
  | setOsdName (name : List UInt8)
  | userControlPressed (ui : UiCommand)
  | reportShortAudioDescriptor (descriptors : List UInt32)
  | requestShortAudioDescriptor (formats : List (UInt8 × UInt8))
  | reportCurrentLatency (latency : Latency)
  | requestCurrentLatency (physAddr : UInt16)
deriving DecidableEq

/-! ## Services and channels -/

def CEC_OP_SERVICE_ID_METHOD_BY_CHANNEL : UInt8 := 1
def CEC_OP_DIG_SERVICE_BCAST_SYSTEM_ATSC_GEN : UInt8 := 0x01
def CEC_OP_DIG_SERVICE_BCAST_SYSTEM_ATSC_CABLE : UInt8 := 0x10
def CEC_OP_DIG_SERVICE_BCAST_SYSTEM_ATSC_SAT : UInt8 := 0x11
def CEC_OP_DIG_SERVICE_BCAST_SYSTEM_ATSC_T : UInt8 := 0x12

/-- The broadcast systems that `cec_set_digital_service_id` treats as ATSC. -/
def isAtsc (digBcastSystem : UInt8) : Bool :=
  digBcastSystem = CEC_OP_DIG_SERVICE_BCAST_SYSTEM_ATSC_GEN ||
    digBcastSystem = CEC_OP_DIG_SERVICE_BCAST_SYSTEM_ATSC_CABLE ||
    digBcastSystem = CEC_OP_DIG_SERVICE_BCAST_SYSTEM_ATSC_SAT ||
    digBcastSystem = CEC_OP_DIG_SERVICE_BCAST_SYSTEM_ATSC_T

/-- A channel in four bytes: six bits of format, ten of the major number, sixteen of the minor one. -/
def channelBytes (c : ChannelData) : List UInt8 :=
  [c.channelNumberFmt <<< 2 ||| hi8 c.major, lo8 c.major, hi8 c.minor, lo8 c.minor]

/-- The bytes that `cec_set_digital_service_id` writes. -/
def cecSetDigitalServiceId (d : DigitalServiceId) : List UInt8 :=
  (d.serviceIdMethod <<< 7 ||| d.digBcastSystem) ::
    if d.serviceIdMethod = CEC_OP_SERVICE_ID_METHOD_BY_CHANNEL then channelBytes d.channel ++ [0, 0]
    else if isAtsc d.digBcastSystem then
      [hi8 d.transportId, lo8 d.transportId, hi8 d.serviceId, lo8 d.serviceId, 0, 0]
    else
      [hi8 d.transportId, lo8 d.transportId, hi8 d.serviceId, lo8 d.serviceId, hi8 d.origNetworkId,
        lo8 d.origNetworkId]

/-- The two upper bits of the major number are shifted by six places, as the source has it. -/
def channelMajor (upper lower : UInt8) : UInt16 :=
  (upper &&& 3).toUInt16 <<< 6 ||| lower.toUInt16

/-- The channel that stands from byte `i` on. -/
def getChannel (m : CecMsg) (i : Fin CEC_MAX_MSG_SIZE) : ChannelData :=
  ⟨m.msg i >>> 2, channelMajor (m.msg i) (m.msg (i + 1)), m.word (i + 2)⟩

/-- `cec_get_digital_service_id`, from byte `i` on. -/
def cecGetDigitalServiceId (m : CecMsg) (i : Fin CEC_MAX_MSG_SIZE) : DigitalServiceId :=
  if m.msg i >>> 7 = CEC_OP_SERVICE_ID_METHOD_BY_CHANNEL then
    ⟨m.msg i >>> 7, m.msg i &&& 0x7f, getChannel m (i + 1), 0, 0, 0⟩
  else
    ⟨m.msg i >>> 7, m.msg i &&& 0x7f, ⟨0, 0, 0⟩, m.word (i + 1), m.word (i + 3), m.word (i + 5)⟩

/-- An analogue service in four bytes. -/
def analogBytes (a : AnalogService) : List UInt8 :=
  [a.anaBcastType, hi8 a.anaFreq, lo8 a.anaFreq, a.bcastSystem]

/-- The analogue service that stands from byte `i` on. -/
def getAnalog (m : CecMsg) (i : Fin CEC_MAX_MSG_SIZE) : AnalogService :=
  ⟨m.msg i, m.word (i + 1), m.msg (i + 3)⟩

/-! ## Recording -/

/-- The lines that nearly all builders share: the length, and the bytes behind the header. -/
def structuredMessage (msg : CecMsg) (len : ℕ) (bytes : List UInt8) : CecMsg :=
  (msg.write 1 bytes).setLen len

/-- `cec_msg_record_on`, with the builder of each type in it. -/
def cecMsgRecordOn (msg : CecMsg) (reply : Bool) (src : RecordSrc) : CecMsg :=
  let built := match src with
    | .own => structuredMessage msg 3 [CEC_MSG_RECORD_ON, CEC_OP_RECORD_SRC_OWN]
    | .digital d =>
      structuredMessage msg 10 ([CEC_MSG_RECORD_ON, CEC_OP_RECORD_SRC_DIGITAL] ++ cecSetDigitalServiceId d)
    | .analog a => structuredMessage msg 7 ([CEC_MSG_RECORD_ON, CEC_OP_RECORD_SRC_ANALOG] ++ analogBytes a)
    | .extPlug plug => structuredMessage msg 4 [CEC_MSG_RECORD_ON, CEC_OP_RECORD_SRC_EXT_PLUG, plug]
    | .extPhysAddr physAddr =>
      structuredMessage msg 5
        [CEC_MSG_RECORD_ON, CEC_OP_RECORD_SRC_EXT_PHYS_ADDR, hi8 physAddr, lo8 physAddr]
  built.setReply reply CEC_MSG_RECORD_STATUS

/-- `cec_ops_record_on`; nothing is read of a type that is not known. -/
def cecOpsRecordOn (msg : CecMsg) : Option RecordSrc :=
  if msg.msg 2 = CEC_OP_RECORD_SRC_OWN then some .own
  else if msg.msg 2 = CEC_OP_RECORD_SRC_DIGITAL then some (.digital (cecGetDigitalServiceId msg 3))
  else if msg.msg 2 = CEC_OP_RECORD_SRC_ANALOG then some (.analog (getAnalog msg 3))
  else if msg.msg 2 = CEC_OP_RECORD_SRC_EXT_PLUG then some (.extPlug (msg.msg 3))
  else if msg.msg 2 = CEC_OP_RECORD_SRC_EXT_PHYS_ADDR then some (.extPhysAddr (msg.word 3))
  else none

def cecMsgRecordStatus (msg : CecMsg) (recStatus : UInt8) : CecMsg :=
  structuredMessage msg 3 [CEC_MSG_RECORD_STATUS, recStatus]

/-! ## Timers -/

/-- A status that comes with a duration. -/
def hasDuration (progInfo progError : UInt8) : Bool :=
  progInfo = CEC_OP_PROG_INFO_NOT_ENOUGH_SPACE || progInfo = CEC_OP_PROG_INFO_MIGHT_NOT_BE_ENOUGH_SPACE ||
    progError = CEC_OP_PROG_ERROR_DUPLICATE

def cecMsgTimerStatus (msg : CecMsg) (s : TimerStatus) : CecMsg :=
  let status := s.timerOverlapWarning <<< 7 ||| s.mediaInfo <<< 5 ||| (if s.progInfo ≠ 0 then 0x10 else 0) |||
    (if s.progInfo ≠ 0 then s.progInfo else s.progError)
  let built := structuredMessage msg 3 [CEC_MSG_TIMER_STATUS, status]
  if hasDuration s.progInfo s.progError then
    (built.setLen 5).write 3 [toBcd s.durationHr, toBcd s.durationMin]
  else built

def cecOpsTimerStatus (msg : CecMsg) : TimerStatus :=
  let progInfo := if msg.msg 2 &&& 0x10 ≠ 0 then msg.msg 2 &&& 0xf else 0
  let progError := if msg.msg 2 &&& 0x10 ≠ 0 then 0 else msg.msg 2 &&& 0xf
  if hasDuration progInfo progError then
    ⟨msg.msg 2 >>> 7, msg.msg 2 >>> 5 &&& 3, progInfo, progError, ofBcd (msg.msg 3), ofBcd (msg.msg 4)⟩
  else ⟨msg.msg 2 >>> 7, msg.msg 2 >>> 5 &&& 3, progInfo, progError, 0, 0⟩

def cecMsgTimerClearedStatus (msg : CecMsg) (timerClearedStatus : UInt8) : CecMsg :=
  structuredMessage msg 3 [CEC_MSG_TIMER_CLEARED_STATUS, timerClearedStatus]

/-- The bytes of the first arguments of a timer; hours and minutes are in BCD format. -/
def slotBytes (t : TimerSlot) : List UInt8 :=
  [t.day, t.month, toBcd t.startHr, toBcd t.startMin, toBcd t.durationHr, toBcd t.durationMin, t.recordingSeq]

def getSlot (msg : CecMsg) : TimerSlot :=
  ⟨msg.msg 2, msg.msg 3, ofBcd (msg.msg 4), ofBcd (msg.msg 5), ofBcd (msg.msg 6), ofBcd (msg.msg 7), msg.msg 8⟩

/-- The timers of an analogue service. -/
def analogueTimer (opcode replyOpcode : UInt8) (msg : CecMsg) (reply : Bool) (t : TimerSlot) (a : AnalogService) :
    CecMsg :=
  (structuredMessage msg 13 (opcode :: (slotBytes t ++ analogBytes a))).setReply reply replyOpcode

/-- The timers of a digital service. -/
def digitalTimer (opcode replyOpcode : UInt8) (msg : CecMsg) (reply : Bool) (t : TimerSlot)
    (d : DigitalServiceId) : CecMsg :=
  (structuredMessage msg 16 (opcode :: (slotBytes t ++ cecSetDigitalServiceId d))).setReply reply replyOpcode

/-- The timers of an external source. -/
def extTimer (opcode replyOpcode : UInt8) (msg : CecMsg) (reply : Bool) (t : TimerSlot) (e : ExtSource) : CecMsg :=
  (structuredMessage msg 13
    (opcode :: (slotBytes t ++ [e.extSrcSpec, e.plug, hi8 e.physAddr, lo8 e.physAddr]))).setReply reply replyOpcode

def getExtSource (msg : CecMsg) : ExtSource :=
  ⟨msg.msg 9, msg.msg 10, msg.word 11⟩

def cecMsgClearAnalogueTimer := analogueTimer CEC_MSG_CLEAR_ANALOGUE_TIMER CEC_MSG_TIMER_CLEARED_STATUS
def cecMsgClearDigitalTimer := digitalTimer CEC_MSG_CLEAR_DIGITAL_TIMER CEC_MSG_TIMER_CLEARED_STATUS
def cecMsgClearExtTimer := extTimer CEC_MSG_CLEAR_EXT_TIMER CEC_MSG_TIMER_CLEARED_STATUS
def cecMsgSetAnalogueTimer := analogueTimer CEC_MSG_SET_ANALOGUE_TIMER CEC_MSG_TIMER_STATUS
def cecMsgSetDigitalTimer := digitalTimer CEC_MSG_SET_DIGITAL_TIMER CEC_MSG_TIMER_STATUS
def cecMsgSetExtTimer := extTimer CEC_MSG_SET_EXT_TIMER CEC_MSG_TIMER_STATUS

/-! ## Strings and vendor data -/

/-- At most `most` bytes behind the opcode and the operands `front`. -/
def bytesMessage (most : ℕ) (msg : CecMsg) (opcode : UInt8) (front bytes : List UInt8) : CecMsg :=
  structuredMessage msg (2 + front.length + min bytes.length most) (opcode :: (front ++ bytes.take most))

/-- The bytes of a string behind `front` operands, at most `most` of them. -/
def getBytes (most front : ℕ) (msg : CecMsg) : List UInt8 :=
  msg.read (2 + front) (min (msg.len - (2 + front)) most)

/-- The bytes behind `front` operands that are no string: their number is computed in eight bits. -/
def getVendorBytes (most front : ℕ) (msg : CecMsg) : List UInt8 :=
  msg.read (2 + front) (min ((msg.len + 256 - (2 + front)) % 256) most)

def cecMsgSetTimerProgramTitle (msg : CecMsg) (progTitle : List UInt8) : CecMsg :=
  bytesMessage 14 msg CEC_MSG_SET_TIMER_PROGRAM_TITLE [] progTitle

def cecMsgVendorCommand (msg : CecMsg) (vendorCmd : List UInt8) : CecMsg :=
  bytesMessage 14 msg CEC_MSG_VENDOR_COMMAND [] vendorCmd

def cecMsgVendorRemoteButtonDown (msg : CecMsg) (rcCode : List UInt8) : CecMsg :=
  bytesMessage 14 msg CEC_MSG_VENDOR_REMOTE_BUTTON_DOWN [] rcCode

def cecMsgSetOsdName (msg : CecMsg) (name : List UInt8) : CecMsg :=
  bytesMessage 14 msg CEC_MSG_SET_OSD_NAME [] name

def cecMsgSetOsdString (msg : CecMsg) (dispCtl : UInt8) (osd : List UInt8) : CecMsg :=
  bytesMessage 13 msg CEC_MSG_SET_OSD_STRING [dispCtl] osd

def cecMsgVendorCommandWithId (msg : CecMsg) (vendorId : UInt32) (vendorCmd : List UInt8) : CecMsg :=
  bytesMessage 11 msg CEC_MSG_VENDOR_COMMAND_WITH_ID (octets24 vendorId) vendorCmd

def cecMsgDeviceVendorId (msg : CecMsg) (vendorId : UInt32) : CecMsg :=
  structuredMessage msg.toAll 5 (CEC_MSG_DEVICE_VENDOR_ID :: octets24 vendorId)

/-- The vendor id, the same three bytes in both messages that carry it. -/
def getVendorId (msg : CecMsg) : UInt32 :=
  be24 (msg.msg 2) (msg.msg 3) (msg.msg 4)

/-! ## The tuner -/

/-- `cec_msg_tuner_device_status`, with the builder of each kind of service in it. -/
def cecMsgTunerDeviceStatus (msg : CecMsg) (info : TunerDeviceInfo) : CecMsg :=
  let flags := info.recFlag <<< 7 ||| info.tunerDisplayInfo
  match info.service with
  | .analog a => structuredMessage msg 7 ([CEC_MSG_TUNER_DEVICE_STATUS, flags] ++ analogBytes a)
  | .digital d => structuredMessage msg 10 ([CEC_MSG_TUNER_DEVICE_STATUS, flags] ++ cecSetDigitalServiceId d)

/-- `cec_ops_tuner_device_status`: the length tells the kind of service. -/
def cecOpsTunerDeviceStatus (msg : CecMsg) : TunerDeviceInfo :=
  ⟨msg.msg 2 >>> 7, msg.msg 2 &&& 0x7f,
    if msg.len < 10 then .analog (getAnalog msg 3) else .digital (cecGetDigitalServiceId msg 3)⟩

def cecMsgSelectAnalogueService (msg : CecMsg) (a : AnalogService) : CecMsg :=
  structuredMessage msg 6 (CEC_MSG_SELECT_ANALOGUE_SERVICE :: analogBytes a)

def cecMsgSelectDigitalService (msg : CecMsg) (d : DigitalServiceId) : CecMsg :=
  structuredMessage msg 9 (CEC_MSG_SELECT_DIGITAL_SERVICE :: cecSetDigitalServiceId d)

/-! ## User control -/

/-- The commands with an optional operand of one byte. -/
def uiByteOperand (uiCmd : UInt8) : Bool :=
  uiCmd ∈ ([0x56, 0x57, 0x60, 0x68, 0x69, 0x6a] : List UInt8)

def cecMsgUserControlPressed (msg : CecMsg) (ui : UiCommand) : CecMsg :=
  let built := structuredMessage msg 3 [CEC_MSG_USER_CONTROL_PRESSED, ui.uiCmd]
  if ui.hasOptArg = 0 then built
  else if uiByteOperand ui.uiCmd then (built.setLen 4).write 3 [ui.playMode]
  else if ui.uiCmd = 0x67 then (built.setLen 7).write 3 (channelBytes ui.channelIdentifier)
  else built

def cecOpsUserControlPressed (msg : CecMsg) : UiCommand :=
  if msg.len = 3 then ⟨msg.msg 2, 0, ⟨0, 0, 0⟩, 0⟩
  else if uiByteOperand (msg.msg 2) then ⟨msg.msg 2, 1, ⟨0, 0, 0⟩, msg.msg 3⟩
  else if msg.msg 2 = 0x67 then
    if msg.len < 7 then ⟨msg.msg 2, 0, ⟨0, 0, 0⟩, 0⟩ else ⟨msg.msg 2, 1, getChannel msg 3, 0⟩
  else ⟨msg.msg 2, 0, ⟨0, 0, 0⟩, 0⟩

/-! ## Audio -/

def cecMsgReportShortAudioDescriptor (msg : CecMsg) (descriptors : List UInt32) : CecMsg :=
  structuredMessage msg (2 + min descriptors.length 4 * 3)
    (CEC_MSG_REPORT_SHORT_AUDIO_DESCRIPTOR :: (descriptors.take 4).flatMap octets24)

def cecOpsReportShortAudioDescriptor (msg : CecMsg) : List UInt32 :=
  (List.range (min ((msg.len + 2 ^ 32 - 2) % 2 ^ 32 / 3 % 256) 4)).map fun i =>
    be24 (msg.msg (Fin.ofNat _ (2 + i * 3))) (msg.msg (Fin.ofNat _ (3 + i * 3))) (msg.msg (Fin.ofNat _ (4 + i * 3)))

/-- The id and the code of an audio format in one byte. -/
def formatByte (format : UInt8 × UInt8) : UInt8 :=
  format.1 <<< 6 ||| (format.2 &&& 0x3f)

def getFormat (b : UInt8) : UInt8 × UInt8 :=
  (b >>> 6, b &&& 0x3f)

def cecMsgRequestShortAudioDescriptor (msg : CecMsg) (reply : Bool) (formats : List (UInt8 × UInt8)) : CecMsg :=
  (structuredMessage msg (2 + min formats.length 4)
    (CEC_MSG_REQUEST_SHORT_AUDIO_DESCRIPTOR ::
      (formats.take 4).map formatByte)).setReply reply CEC_MSG_REPORT_SHORT_AUDIO_DESCRIPTOR

def cecOpsRequestShortAudioDescriptor (msg : CecMsg) : List (UInt8 × UInt8) :=
  (getVendorBytes 4 0 msg).map getFormat

def cecMsgReportCurrentLatency (msg : CecMsg) (l : Latency) : CecMsg :=
  let built := structuredMessage msg.toAll 6 [CEC_MSG_REPORT_CURRENT_LATENCY, hi8 l.physAddr, lo8 l.physAddr,
    l.videoLatency, l.lowLatencyMode <<< 2 ||| l.audioOutCompensated]
  if l.audioOutCompensated = 3 then built.push l.audioOutDelay else built

def cecOpsReportCurrentLatency (msg : CecMsg) : Latency :=
  ⟨msg.word 2, msg.msg 4, msg.msg 5 >>> 2 &&& 1, msg.msg 5 &&& 3,
    if msg.msg 5 &&& 3 = 3 ∧ 7 ≤ msg.len then msg.msg 6 else 0⟩

def cecMsgRequestCurrentLatency (msg : CecMsg) (reply : Bool) (physAddr : UInt16) : CecMsg :=
  (structuredMessage msg.toAll 4 [CEC_MSG_REQUEST_CURRENT_LATENCY, hi8 physAddr, lo8 physAddr]).setReply reply
    CEC_MSG_REPORT_CURRENT_LATENCY

/-! ## All of them -/

/-- The builder of a message, applied to its arguments. -/
def cecMsgStructured (msg : CecMsg) (reply : Bool) : CecStructured → CecMsg
  | .recordOn src => cecMsgRecordOn msg reply src
  | .recordStatus s => cecMsgRecordStatus msg s
  | .timerStatus s => cecMsgTimerStatus msg s
  | .timerClearedStatus s => cecMsgTimerClearedStatus msg s
  | .clearAnalogueTimer t a => cecMsgClearAnalogueTimer msg reply t a
  | .clearDigitalTimer t d => cecMsgClearDigitalTimer msg reply t d
  | .clearExtTimer t e => cecMsgClearExtTimer msg reply t e
  | .setAnalogueTimer t a => cecMsgSetAnalogueTimer msg reply t a
  | .setDigitalTimer t d => cecMsgSetDigitalTimer msg reply t d
  | .setExtTimer t e => cecMsgSetExtTimer msg reply t e
  | .setTimerProgramTitle s => cecMsgSetTimerProgramTitle msg s
  | .tunerDeviceStatus info => cecMsgTunerDeviceStatus msg info
  | .selectAnalogueService a => cecMsgSelectAnalogueService msg a
  | .selectDigitalService d => cecMsgSelectDigitalService msg d
  | .deviceVendorId v => cecMsgDeviceVendorId msg v
  | .vendorCommand bs => cecMsgVendorCommand msg bs
  | .vendorCommandWithId v bs => cecMsgVendorCommandWithId msg v bs
  | .vendorRemoteButtonDown bs => cecMsgVendorRemoteButtonDown msg bs
  | .setOsdString c s => cecMsgSetOsdString msg c s
  | .setOsdName s => cecMsgSetOsdName msg s
  | .userControlPressed ui => cecMsgUserControlPressed msg ui
  | .reportShortAudioDescriptor ds => cecMsgReportShortAudioDescriptor msg ds
  | .requestShortAudioDescriptor fs => cecMsgRequestShortAudioDescriptor msg reply fs
  | .reportCurrentLatency l => cecMsgReportCurrentLatency msg l
  | .requestCurrentLatency a => cecMsgRequestCurrentLatency msg reply a

/-- The reader of each opcode. -/
def structuredReaders : List (UInt8 × (CecMsg → Option CecStructured)) :=
  [ (CEC_MSG_RECORD_ON, fun m => (cecOpsRecordOn m).map .recordOn),
    (CEC_MSG_RECORD_STATUS, fun m => some (.recordStatus (m.msg 2))),
    (CEC_MSG_TIMER_STATUS, fun m => some (.timerStatus (cecOpsTimerStatus m))),
    (CEC_MSG_TIMER_CLEARED_STATUS, fun m => some (.timerClearedStatus (m.msg 2))),
    (CEC_MSG_CLEAR_ANALOGUE_TIMER, fun m => some (.clearAnalogueTimer (getSlot m) (getAnalog m 9))),
    (CEC_MSG_CLEAR_DIGITAL_TIMER, fun m => some (.clearDigitalTimer (getSlot m) (cecGetDigitalServiceId m 9))),
    (CEC_MSG_CLEAR_EXT_TIMER, fun m => some (.clearExtTimer (getSlot m) (getExtSource m))),
    (CEC_MSG_SET_ANALOGUE_TIMER, fun m => some (.setAnalogueTimer (getSlot m) (getAnalog m 9))),
    (CEC_MSG_SET_DIGITAL_TIMER, fun m => some (.setDigitalTimer (getSlot m) (cecGetDigitalServiceId m 9))),
    (CEC_MSG_SET_EXT_TIMER, fun m => some (.setExtTimer (getSlot m) (getExtSource m))),
    (CEC_MSG_SET_TIMER_PROGRAM_TITLE, fun m => some (.setTimerProgramTitle (getBytes 14 0 m))),
    (CEC_MSG_TUNER_DEVICE_STATUS, fun m => some (.tunerDeviceStatus (cecOpsTunerDeviceStatus m))),
    (CEC_MSG_SELECT_ANALOGUE_SERVICE, fun m => some (.selectAnalogueService (getAnalog m 2))),
    (CEC_MSG_SELECT_DIGITAL_SERVICE, fun m => some (.selectDigitalService (cecGetDigitalServiceId m 2))),
    (CEC_MSG_DEVICE_VENDOR_ID, fun m => some (.deviceVendorId (getVendorId m))),
    (CEC_MSG_VENDOR_COMMAND, fun m => some (.vendorCommand (getVendorBytes 14 0 m))),
    (CEC_MSG_VENDOR_COMMAND_WITH_ID, fun m => some (.vendorCommandWithId (getVendorId m) (getVendorBytes 11 3 m))),
    (CEC_MSG_VENDOR_REMOTE_BUTTON_DOWN, fun m => some (.vendorRemoteButtonDown (getVendorBytes 14 0 m))),
    (CEC_MSG_SET_OSD_STRING, fun m => some (.setOsdString (m.msg 2) (getBytes 13 1 m))),
    (CEC_MSG_SET_OSD_NAME, fun m => some (.setOsdName (getBytes 14 0 m))),
    (CEC_MSG_USER_CONTROL_PRESSED, fun m => some (.userControlPressed (cecOpsUserControlPressed m))),
    (CEC_MSG_REPORT_SHORT_AUDIO_DESCRIPTOR,
      fun m => some (.reportShortAudioDescriptor (cecOpsReportShortAudioDescriptor m))),
    (CEC_MSG_REQUEST_SHORT_AUDIO_DESCRIPTOR,
      fun m => some (.requestShortAudioDescriptor (cecOpsRequestShortAudioDescriptor m))),
    (CEC_MSG_REPORT_CURRENT_LATENCY, fun m => some (.reportCurrentLatency (cecOpsReportCurrentLatency m))),
    (CEC_MSG_REQUEST_CURRENT_LATENCY, fun m => some (.requestCurrentLatency (m.word 2))) ]

/-- The message read with the reader of its opcode. -/
def cecOpsStructured (msg : CecMsg) : Option CecStructured :=
  (structuredReaders.lookup (msg.msg 1)).bind fun ops => ops msg

end Cec
end TbsMedia
