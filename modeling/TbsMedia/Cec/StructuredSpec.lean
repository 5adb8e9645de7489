import TbsMedia.Cec.Structured

/-!
# Structured operands come back

* `CecStructured.Fits`: arguments within the widths of their fields.
* `CecStructured.carried`: the arguments as the message carries them, an operand that is left out counting as
  zero.
* `cecOpsStructured_built`: what the reader of a built message returns.  All arguments come back but for the major
  number of a channel, whose upper bits are put two places too low.
* `structured_comesBack_iff`: so a message comes back exactly where its major number is below 256.
-/

namespace TbsMedia
namespace Cec

open Lib.Octets

/-! ## Arguments -/

def ChannelData.Fits (c : ChannelData) : Prop :=
  c.channelNumberFmt < 64 ∧ c.major < 1024

/-- The service is identified by its channel. -/
def DigitalServiceId.ByChannel (d : DigitalServiceId) : Prop :=
  d.serviceIdMethod = CEC_OP_SERVICE_ID_METHOD_BY_CHANNEL

instance (d : DigitalServiceId) : Decidable d.ByChannel :=
  inferInstanceAs (Decidable (_ = _))

def DigitalServiceId.Fits (d : DigitalServiceId) : Prop :=
  d.serviceIdMethod < 2 ∧ d.digBcastSystem < 128 ∧ (d.ByChannel → d.channel.Fits)

def RecordSrc.Fits : RecordSrc → Prop
  | .digital d => d.Fits
  | _ => True

def TimerSlot.Fits (t : TimerSlot) : Prop :=
  t.startHr < 100 ∧ t.startMin < 100 ∧ t.durationHr < 100 ∧ t.durationMin < 100

/-- At most one of the two kinds of information is given. -/
def TimerStatus.Fits (s : TimerStatus) : Prop :=
  s.timerOverlapWarning < 2 ∧ s.mediaInfo < 4 ∧ s.progInfo < 16 ∧ s.progError < 16 ∧
    (s.progInfo = 0 ∨ s.progError = 0) ∧ s.durationHr < 100 ∧ s.durationMin < 100

def TunerService.Fits : TunerService → Prop
  | .analog _ => True
  | .digital d => d.Fits

def TunerDeviceInfo.Fits (i : TunerDeviceInfo) : Prop :=
  i.recFlag < 2 ∧ i.tunerDisplayInfo < 128 ∧ i.service.Fits

/-- The command is sent with a channel. -/
def UiCommand.HasChannel (u : UiCommand) : Prop :=
  u.hasOptArg ≠ 0 ∧ u.uiCmd = 0x67

instance (u : UiCommand) : Decidable u.HasChannel :=
  inferInstanceAs (Decidable (_ ∧ _))

def UiCommand.Fits (u : UiCommand) : Prop :=
  u.HasChannel → u.channelIdentifier.Fits

def Latency.Fits (l : Latency) : Prop :=
  l.lowLatencyMode < 2 ∧ l.audioOutCompensated < 4

/-- The arguments are within the widths of their fields. -/
def CecStructured.Fits : CecStructured → Prop
  | .recordOn src => src.Fits
  | .timerStatus s => s.Fits
  | .clearAnalogueTimer t _ => t.Fits
  | .clearDigitalTimer t d => t.Fits ∧ d.Fits
  | .clearExtTimer t _ => t.Fits
  | .setAnalogueTimer t _ => t.Fits
  | .setDigitalTimer t d => t.Fits ∧ d.Fits
  | .setExtTimer t _ => t.Fits
  | .setTimerProgramTitle s => s.length ≤ 14
  | .tunerDeviceStatus i => i.Fits
  | .selectDigitalService d => d.Fits
  | .deviceVendorId v => v.toNat < 2 ^ 24
  | .vendorCommand bs => bs.length ≤ 14
  | .vendorCommandWithId v bs => v.toNat < 2 ^ 24 ∧ bs.length ≤ 11
  | .vendorRemoteButtonDown bs => bs.length ≤ 14
  | .setOsdString _ s => s.length ≤ 13
  | .setOsdName s => s.length ≤ 14
  | .userControlPressed u => u.Fits
  | .reportShortAudioDescriptor ds => ds.length ≤ 4 ∧ ∀ d ∈ ds, d.toNat < 2 ^ 24
  | .requestShortAudioDescriptor fs => fs.length ≤ 4 ∧ ∀ f ∈ fs, f.1 < 4 ∧ f.2 < 64
  | .reportCurrentLatency l => l.Fits
  | _ => True

/-! ## What a message carries -/

/-- The member of the union that is sent, with the third word only where it is. -/
def DigitalServiceId.carried (d : DigitalServiceId) : DigitalServiceId :=
  if d.ByChannel then { d with transportId := 0, serviceId := 0, origNetworkId := 0 }
  else { d with channel := ⟨0, 0, 0⟩, origNetworkId := if isAtsc d.digBcastSystem then 0 else d.origNetworkId }

def RecordSrc.carried : RecordSrc → RecordSrc
  | .digital d => .digital d.carried
  | src => src

def TimerStatus.carried (s : TimerStatus) : TimerStatus :=
  if hasDuration s.progInfo s.progError then s else { s with durationHr := 0, durationMin := 0 }

def TunerService.carried : TunerService → TunerService
  | .digital d => .digital d.carried
  | service => service

/-- The operand is sent with the commands that have one. -/
def UiCommand.carried (u : UiCommand) : UiCommand :=
  if u.hasOptArg = 0 then ⟨u.uiCmd, 0, ⟨0, 0, 0⟩, 0⟩
  else if uiByteOperand u.uiCmd then ⟨u.uiCmd, 1, ⟨0, 0, 0⟩, u.playMode⟩
  else if u.uiCmd = 0x67 then ⟨u.uiCmd, 1, u.channelIdentifier, 0⟩
  else ⟨u.uiCmd, 0, ⟨0, 0, 0⟩, 0⟩

def Latency.carried (l : Latency) : Latency :=
  { l with audioOutDelay := if l.audioOutCompensated = 3 then l.audioOutDelay else 0 }

/-- The arguments as the message carries them. -/
def CecStructured.carried : CecStructured → CecStructured
  | .recordOn src => .recordOn src.carried
  | .timerStatus s => .timerStatus s.carried
  | .clearDigitalTimer t d => .clearDigitalTimer t d.carried
  | .setDigitalTimer t d => .setDigitalTimer t d.carried
  | .tunerDeviceStatus i => .tunerDeviceStatus { i with service := i.service.carried }
  | .selectDigitalService d => .selectDigitalService d.carried
  | .userControlPressed u => .userControlPressed u.carried
  | .reportCurrentLatency l => .reportCurrentLatency l.carried
  | c => c

/-! ## What comes back -/

/-- A major number as it is read. -/
def majorRead (major : UInt16) : UInt16 :=
  channelMajor (hi8 major) (lo8 major)

def ChannelData.read (c : ChannelData) : ChannelData :=
  { c with major := majorRead c.major }

def DigitalServiceId.read (d : DigitalServiceId) : DigitalServiceId :=
  { d.carried with channel := d.carried.channel.read }

def RecordSrc.read : RecordSrc → RecordSrc
  | .digital d => .digital d.read
  | src => src

def TunerService.read : TunerService → TunerService
  | .digital d => .digital d.read
  | service => service

def UiCommand.read (u : UiCommand) : UiCommand :=
  { u.carried with channelIdentifier := u.carried.channelIdentifier.read }

/-- The arguments that are read of a built message. -/
def CecStructured.read : CecStructured → CecStructured
  | .recordOn src => .recordOn src.read
  | .clearDigitalTimer t d => .clearDigitalTimer t d.read
  | .setDigitalTimer t d => .setDigitalTimer t d.read
  | .tunerDeviceStatus i => .tunerDeviceStatus { i with service := i.service.read }
  | .selectDigitalService d => .selectDigitalService d.read
  | .userControlPressed u => .userControlPressed u.read
  | c => c.carried

/-- The channels that a message carries. -/
def CecStructured.channels : CecStructured → List ChannelData
  | .recordOn (.digital d) => if d.ByChannel then [d.channel] else []
  | .clearDigitalTimer _ d => if d.ByChannel then [d.channel] else []
  | .setDigitalTimer _ d => if d.ByChannel then [d.channel] else []
  | .tunerDeviceStatus ⟨_, _, .digital d⟩ => if d.ByChannel then [d.channel] else []
  | .selectDigitalService d => if d.ByChannel then [d.channel] else []
  | .userControlPressed u => if u.HasChannel then [u.channelIdentifier] else []
  | _ => []

/-- No channel has a major number that needs its upper bits. -/
def CecStructured.LowMajor (c : CecStructured) : Prop :=
  ∀ channel ∈ c.channels, channel.major < 256

/-- The length is one that a message of the opcode may have. -/
def CecMsg.LengthOk (m : CecMsg) : Prop :=
  2 ≤ m.len ∧ m.len ≤ CEC_MAX_MSG_SIZE ∧ (cecMsgSize (m.msg 1) &&& 0x1f).toNat ≤ m.len

/-- The reader returns the arguments of the builder, and the message is long enough. -/
def StructuredComesBack (msg : CecMsg) (reply : Bool) (c : CecStructured) : Prop :=
  cecOpsStructured (cecMsgStructured msg reply c) = some c.carried ∧ (cecMsgStructured msg reply c).LengthOk

/-! ## Channels -/

theorem toNat_majorRead {major : UInt16} (h : major < 1024) :
    (majorRead major).toNat = major.toNat / 256 * 64 ||| major.toNat % 256 := by
  have hmajor : major.toNat < 1024 := h
  have hupper : (hi8 major &&& 3).toNat = major.toNat / 256 := by
    rw [toNat_land 2 rfl, toNat_hi8]
    omega
  rw [majorRead, channelMajor, UInt16.toNat_or, UInt16.toNat_shiftLeft, UInt8.toNat_toUInt16, UInt8.toNat_toUInt16,
    hupper, toNat_lo8]
  show (major.toNat / 256) <<< 6 % 65536 ||| major.toNat % 256 = _
  rw [Nat.shiftLeft_eq, Nat.mod_eq_of_lt (by omega)]

/-- A major number is read as it is exactly where it needs no upper bits. -/
theorem majorRead_eq_iff {major : UInt16} (h : major < 1024) : majorRead major = major ↔ major < 256 := by
  have hmajor : major.toNat < 1024 := h
  rw [← UInt16.toNat_inj, toNat_majorRead h, UInt16.lt_iff_toNat_lt]
  constructor
  · intro heq
    have hlt : major.toNat / 256 * 64 ||| major.toNat % 256 < 2 ^ 8 :=
      Nat.or_lt_two_pow (by omega) (by omega)
    rwa [heq] at hlt
  · intro hlow
    have hlow' : major.toNat < 256 := hlow
    rw [Nat.div_eq_of_lt hlow', Nat.mod_eq_of_lt hlow', Nat.zero_mul, Nat.zero_or]

/-- The member of the union that is not sent is not there. -/
theorem ChannelData.read_none : (⟨0, 0, 0⟩ : ChannelData).read = ⟨0, 0, 0⟩ := by
  decide

/-! ## Bytes of a message -/

variable (msg : CecMsg)

theorem msg_structuredMessage (len : ℕ) (bytes : List UInt8) (j : Fin CEC_MAX_MSG_SIZE) (hj : 1 ≤ j.val)
    (hlen : j.val < 1 + bytes.length) : (structuredMessage msg len bytes).msg j = bytes.getD (j.val - 1) 0 := by
  rw [structuredMessage, CecMsg.msg_setLen, CecMsg.msg_write, if_pos ⟨hj, hlen⟩]

theorem opcode_structuredMessage (len : ℕ) (opcode : UInt8) (bytes : List UInt8) :
    (structuredMessage msg len (opcode :: bytes)).msg 1 = opcode :=
  msg_structuredMessage msg len (opcode :: bytes) 1 (by decide)
    (by rw [List.length_cons]; exact Nat.lt_add_of_pos_right (Nat.succ_pos _))

/-- A stretch of the bytes that were written. -/
theorem read_structuredMessage (len : ℕ) (front bytes back : List UInt8)
    (h : 1 + front.length + bytes.length ≤ CEC_MAX_MSG_SIZE) :
    (structuredMessage msg len (front ++ (bytes ++ back))).read (1 + front.length) bytes.length = bytes := by
  refine List.ext_getElem (by rw [CecMsg.read, List.length_map, List.length_range]) fun k hk hk' => ?_
  have hval : (Fin.ofNat CEC_MAX_MSG_SIZE (1 + front.length + k)).val = 1 + front.length + k :=
    Nat.mod_eq_of_lt (by omega)
  have hlen : 1 + front.length + k < 1 + (front ++ (bytes ++ back)).length := by
    rw [List.length_append, List.length_append]
    omega
  simp only [CecMsg.read, List.getElem_map, List.getElem_range]
  rw [msg_structuredMessage _ _ _ _ (by omega) (by rw [hval]; exact hlen), hval,
    show 1 + front.length + k - 1 = front.length + k by omega, List.getD_append_right _ _ _ _ (by omega),
    Nat.add_sub_cancel_left, List.getD_append _ _ _ _ hk', List.getD_eq_getElem _ _ hk']

/-- The reader that an opcode selects. -/
theorem cecOpsStructured_of_opcode {m : CecMsg} {opcode : UInt8} {ops : CecMsg → Option CecStructured}
    (h : m.msg 1 = opcode) (hops : structuredReaders.lookup opcode = some ops) : cecOpsStructured m = ops m := by
  rw [cecOpsStructured, h, hops]
  rfl

theorem cecOpsStructured_of_read {m : CecMsg} {opcode : UInt8} {ops : CecMsg → CecStructured} {c : CecStructured}
    (h : m.msg 1 = opcode) (hops : structuredReaders.lookup opcode = some fun m => some (ops m)) (hread : ops m = c) :
    cecOpsStructured m = some c := by
  rw [cecOpsStructured_of_opcode h hops, hread]

/-- The bytes of a channel are read as the channel, with the major number as it is read. -/
theorem getChannel_of_bytes (m : CecMsg) (i : Fin CEC_MAX_MSG_SIZE) {c : ChannelData} (h : c.Fits)
    (hbytes : [m.msg i, m.msg (i + 1), m.msg (i + 2), m.msg (i + 2 + 1)] = channelBytes c) :
    getChannel m i = c.read := by
  obtain ⟨hfmt, hmajor⟩ := h
  have hfmt' : c.channelNumberFmt.toNat < 64 := hfmt
  have hmajor' : c.major.toNat < 1024 := hmajor
  have hhi : (hi8 c.major).toNat < 2 ^ 2 := by
    rw [toNat_hi8]
    omega
  have hfields := two_fields (s := 2) (m := 3) 2 rfl rfl (by decide) (by omega : c.channelNumberFmt.toNat * 2 ^ 2 < 256)
    hhi
  have hlow : hi8 c.major &&& 3 = hi8 c.major := by
    apply UInt8.toNat_inj.mp
    rw [toNat_land 2 rfl, Nat.mod_eq_of_lt hhi]
  rw [channelBytes, List.cons.injEq, List.cons.injEq, List.cons.injEq, List.cons.injEq] at hbytes
  obtain ⟨h0, h1, h2, h3, -⟩ := hbytes
  rw [getChannel, CecMsg.word, h0, h1, h2, h3, be16_hi8_lo8, channelMajor, hfields.1, hfields.2, ChannelData.read,
    majorRead, channelMajor, hlow]

theorem DigitalServiceId.carried_of_byChannel {d : DigitalServiceId} (h : d.ByChannel) :
    d.carried = ⟨d.serviceIdMethod, d.digBcastSystem, d.channel, 0, 0, 0⟩ :=
  if_pos h

theorem DigitalServiceId.carried_of_not_byChannel {d : DigitalServiceId} (h : ¬ d.ByChannel) :
    d.carried = ⟨d.serviceIdMethod, d.digBcastSystem, ⟨0, 0, 0⟩, d.transportId, d.serviceId,
      if isAtsc d.digBcastSystem then 0 else d.origNetworkId⟩ :=
  if_neg h

/-- The seven bytes of a service are read as the service. -/
theorem cecGetDigitalServiceId_of_bytes (m : CecMsg) (i : Fin CEC_MAX_MSG_SIZE) {d : DigitalServiceId} (h : d.Fits)
    (hbytes : [m.msg i, m.msg (i + 1), m.msg (i + 1 + 1), m.msg (i + 3), m.msg (i + 3 + 1), m.msg (i + 5),
      m.msg (i + 5 + 1)] = cecSetDigitalServiceId d) :
    cecGetDigitalServiceId m i = d.read := by
  obtain ⟨hmethod, hsystem, hchannel⟩ := h
  have hmethod' : d.serviceIdMethod.toNat < 2 := hmethod
  have hfields := two_fields (s := 7) (m := 0x7f) 7 rfl rfl (by decide)
    (by omega : d.serviceIdMethod.toNat * 2 ^ 7 < 256) (show d.digBcastSystem.toNat < 2 ^ 7 from hsystem)
  rw [cecSetDigitalServiceId, List.cons.injEq] at hbytes
  obtain ⟨h0, hrest⟩ := hbytes
  rw [cecGetDigitalServiceId, h0, hfields.1, hfields.2]
  by_cases hby : d.serviceIdMethod = CEC_OP_SERVICE_ID_METHOD_BY_CHANNEL
  · have hread : d.read = ⟨d.serviceIdMethod, d.digBcastSystem, d.channel.read, 0, 0, 0⟩ := by
      rw [DigitalServiceId.read, DigitalServiceId.carried_of_byChannel hby]
    have h12 : i + 1 + 2 = i + 3 := add_assoc i 1 2
    rw [if_pos hby, channelBytes, List.cons_append, List.cons_append, List.cons_append, List.cons_append,
      List.cons.injEq, List.cons.injEq, List.cons.injEq, List.cons.injEq] at hrest
    obtain ⟨h1, h2, h3, h4, -⟩ := hrest
    rw [if_pos hby, hread, getChannel_of_bytes m (i + 1) (hchannel hby) (by rw [h12, h1, h2, h3, h4]; rfl)]
  · have hread : d.read = ⟨d.serviceIdMethod, d.digBcastSystem, ⟨0, 0, 0⟩, d.transportId, d.serviceId,
        if isAtsc d.digBcastSystem then 0 else d.origNetworkId⟩ := by
      rw [DigitalServiceId.read, DigitalServiceId.carried_of_not_byChannel hby, ChannelData.read_none]
    rw [if_neg hby] at hrest ⊢
    rw [hread, CecMsg.word, CecMsg.word, CecMsg.word]
    by_cases hatsc : isAtsc d.digBcastSystem
    · rw [if_pos hatsc] at hrest ⊢
      simp only [List.cons.injEq] at hrest
      obtain ⟨h1, h2, h3, h4, h5, h6, -⟩ := hrest
      rw [h1, h2, h3, h4, h5, h6, be16_hi8_lo8, be16_hi8_lo8]
      rfl
    · rw [if_neg hatsc] at hrest ⊢
      simp only [List.cons.injEq] at hrest
      obtain ⟨h1, h2, h3, h4, h5, h6, -⟩ := hrest
      rw [h1, h2, h3, h4, h5, h6, be16_hi8_lo8, be16_hi8_lo8, be16_hi8_lo8]

theorem length_cecSetDigitalServiceId (d : DigitalServiceId) : (cecSetDigitalServiceId d).length = 7 := by
  unfold cecSetDigitalServiceId
  split_ifs <;> rfl

/-- The service that stands behind the bytes `front`. -/
theorem read_digital (len : ℕ) (front : List UInt8) (d : DigitalServiceId) (h : front.length ≤ 8) :
    (structuredMessage msg len (front ++ cecSetDigitalServiceId d)).read (1 + front.length) 7 =
      cecSetDigitalServiceId d := by
  have hlen := length_cecSetDigitalServiceId d
  have hread := read_structuredMessage msg len front (cecSetDigitalServiceId d) []
    (by rw [hlen]; exact Nat.add_le_add_right (Nat.add_le_add_left h 1) 7)
  rwa [hlen, List.append_nil] at hread

theorem getAnalog_of_bytes (m : CecMsg) (i : Fin CEC_MAX_MSG_SIZE) {a : AnalogService}
    (hbytes : [m.msg i, m.msg (i + 1), m.msg (i + 1 + 1), m.msg (i + 3)] = analogBytes a) : getAnalog m i = a := by
  rw [analogBytes, List.cons.injEq, List.cons.injEq, List.cons.injEq, List.cons.injEq] at hbytes
  obtain ⟨h0, h1, h2, h3, -⟩ := hbytes
  rw [getAnalog, CecMsg.word, h0, h1, h2, h3, be16_hi8_lo8]

theorem getSlot_of_bytes (m : CecMsg) {t : TimerSlot} (h : t.Fits) (hbytes : m.read 2 7 = slotBytes t) :
    getSlot m = t := by
  obtain ⟨hstartHr, hstartMin, hdurationHr, hdurationMin⟩ := h
  have hlist : [m.msg 2, m.msg 3, m.msg 4, m.msg 5, m.msg 6, m.msg 7, m.msg 8] = slotBytes t := hbytes
  simp only [slotBytes, List.cons.injEq] at hlist
  obtain ⟨h0, h1, h2, h3, h4, h5, h6, -⟩ := hlist
  rw [getSlot, h0, h1, h2, h3, h4, h5, h6, ofBcd_toBcd hstartHr, ofBcd_toBcd hstartMin, ofBcd_toBcd hdurationHr,
    ofBcd_toBcd hdurationMin]

/-- The first arguments of a timer, whatever follows them. -/
theorem getSlot_built (len : ℕ) (opcode : UInt8) {t : TimerSlot} (rest : List UInt8) (h : t.Fits) :
    getSlot (structuredMessage msg len (opcode :: (slotBytes t ++ rest))) = t :=
  getSlot_of_bytes _ h (read_structuredMessage msg len [opcode] (slotBytes t) rest (show 1 + 1 + 7 ≤ 16 by decide))

/-- The bytes of a string or of vendor data, if they are not too many. -/
theorem getBytes_built {most : ℕ} (opcode : UInt8) (front : List UInt8) {bytes : List UInt8}
    (h : bytes.length ≤ most) (hmost : 2 + front.length + most ≤ CEC_MAX_MSG_SIZE) :
    getBytes most front.length (bytesMessage most msg opcode front bytes) = bytes := by
  have hread := read_structuredMessage msg (2 + front.length + bytes.length) (opcode :: front) bytes []
    (by rw [List.length_cons]; omega)
  rw [List.append_nil, List.length_cons, show 1 + (front.length + 1) = 2 + front.length by omega] at hread
  rw [getBytes, bytesMessage, List.take_of_length_le h, Nat.min_eq_left h, structuredMessage, CecMsg.len_setLen,
    Nat.add_sub_cancel_left, Nat.min_eq_left h]
  exact hread

/-- In a message that was built, their number fits in eight bits. -/
theorem getVendorBytes_built {most : ℕ} (opcode : UInt8) (front : List UInt8) {bytes : List UInt8}
    (h : bytes.length ≤ most) (hmost : 2 + front.length + most ≤ CEC_MAX_MSG_SIZE) :
    getVendorBytes most front.length (bytesMessage most msg opcode front bytes) = bytes := by
  have hlen : (bytesMessage most msg opcode front bytes).len = 2 + front.length + bytes.length := by
    rw [bytesMessage, structuredMessage, CecMsg.len_setLen, Nat.min_eq_left h]
  have hsize : (bytesMessage most msg opcode front bytes).len + 256 - (2 + front.length) = bytes.length + 256 := by
    omega
  have hbytes := getBytes_built msg opcode front h hmost
  unfold getBytes at hbytes
  unfold CEC_MAX_MSG_SIZE at hmost
  rw [getVendorBytes, hsize, Nat.add_mod_right, Nat.mod_eq_of_lt (by omega)]
  rwa [hlen, Nat.add_sub_cancel_left] at hbytes

/-! ## Short descriptors -/

/-- The octets of the descriptors, one after the other. -/
theorem getD_flatMap_octets24 {ds : List UInt32} {i k : ℕ} (hi : i < ds.length) (hk : k < 3) :
    (ds.flatMap octets24).getD (i * 3 + k) 0 = (octets24 (ds.getD i 0)).getD k 0 := by
  induction ds generalizing i with
  | nil => exact absurd hi (Nat.not_lt_zero _)
  | cons d ds ih =>
    rw [List.flatMap_cons]
    have hlen : (octets24 d).length = 3 := rfl
    rcases i with _ | i
    · rw [Nat.zero_mul, Nat.zero_add, List.getD_append _ _ _ _ (by omega), List.getD_cons_zero]
    · rw [List.getD_append_right _ _ _ _ (by omega), hlen, show (i + 1) * 3 + k - 3 = i * 3 + k by omega,
        List.getD_cons_succ]
      exact ih (Nat.lt_of_succ_lt_succ hi)

theorem length_flatMap_octets24 (ds : List UInt32) : (ds.flatMap octets24).length = ds.length * 3 := by
  induction ds with
  | nil => rfl
  | cons d ds ih =>
    rw [List.flatMap_cons, List.length_append, ih, List.length_cons, Nat.succ_mul, Nat.add_comm]
    rfl

/-- Byte `k` of descriptor `i`. -/
theorem msg_reportShortAudioDescriptor {ds : List UInt32} (h : ds.length ≤ 4) {i k : ℕ} (hi : i < ds.length)
    (hk : k < 3) :
    (cecMsgReportShortAudioDescriptor msg ds).msg (Fin.ofNat _ (2 + k + i * 3)) =
      (octets24 (ds.getD i 0)).getD k 0 := by
  have hval : (Fin.ofNat CEC_MAX_MSG_SIZE (2 + k + i * 3)).val = 2 + k + i * 3 := by
    refine Nat.mod_eq_of_lt ?_
    show 2 + k + i * 3 < 16
    omega
  rw [cecMsgReportShortAudioDescriptor, List.take_of_length_le h,
    msg_structuredMessage _ _ _ _ (by rw [hval]; omega)
      (by rw [hval, List.length_cons, length_flatMap_octets24]; omega),
    hval, show 2 + k + i * 3 - 1 = (i * 3 + k) + 1 by omega, List.getD_cons_succ, getD_flatMap_octets24 hi hk]

theorem reportShortAudioDescriptor_built {ds : List UInt32} (h : ds.length ≤ 4) (hw : ∀ d ∈ ds, d.toNat < 2 ^ 24) :
    cecOpsReportShortAudioDescriptor (cecMsgReportShortAudioDescriptor msg ds) = ds := by
  have hlen : (cecMsgReportShortAudioDescriptor msg ds).len = 2 + ds.length * 3 := by
    rw [cecMsgReportShortAudioDescriptor, structuredMessage, CecMsg.len_setLen, Nat.min_eq_left h]
  have hcount : min ((2 + ds.length * 3 + 2 ^ 32 - 2) % 2 ^ 32 / 3 % 256) 4 = ds.length := by
    have hsize : (2 + ds.length * 3 + 2 ^ 32 - 2) % 2 ^ 32 = ds.length * 3 := by omega
    rw [hsize, Nat.mul_div_cancel _ (by decide), Nat.mod_eq_of_lt (by omega), Nat.min_eq_left h]
  rw [cecOpsReportShortAudioDescriptor, hlen, hcount]
  refine List.ext_getElem (by rw [List.length_map, List.length_range]) fun i hi hi' => ?_
  have h0 := msg_reportShortAudioDescriptor msg h hi' (show 0 < 3 by decide)
  have h1 := msg_reportShortAudioDescriptor msg h hi' (show 1 < 3 by decide)
  have h2 := msg_reportShortAudioDescriptor msg h hi' (show 2 < 3 by decide)
  rw [List.getD_eq_getElem _ _ hi'] at h0 h1 h2
  rw [List.getElem_map, List.getElem_range, h0, h1, h2]
  exact be24_octets24 (hw _ (List.getElem_mem hi'))

theorem getFormat_formatByte {f : UInt8 × UInt8} (h : f.1 < 4 ∧ f.2 < 64) : getFormat (formatByte f) = f := by
  have hid : f.1.toNat < 4 := h.1
  have hcode : f.2.toNat < 2 ^ 6 := h.2
  have hmask : f.2 &&& 0x3f = f.2 := by
    apply UInt8.toNat_inj.mp
    rw [toNat_land 6 rfl, Nat.mod_eq_of_lt hcode]
  have hfields := two_fields (s := 6) (m := 0x3f) 6 rfl rfl (by decide) (by omega : f.1.toNat * 2 ^ 6 < 256) hcode
  rw [getFormat, formatByte, hmask, hfields.1, hfields.2]

theorem requestShortAudioDescriptor_built (reply : Bool) {fs : List (UInt8 × UInt8)} (h : fs.length ≤ 4)
    (hw : ∀ f ∈ fs, f.1 < 4 ∧ f.2 < 64) :
    cecOpsRequestShortAudioDescriptor (cecMsgRequestShortAudioDescriptor msg reply fs) = fs := by
  have hlen : (fs.map formatByte).length = fs.length := List.length_map _
  have hbytes : getVendorBytes 4 0 (bytesMessage 4 msg CEC_MSG_REQUEST_SHORT_AUDIO_DESCRIPTOR [] (fs.map formatByte)) =
      fs.map formatByte := getVendorBytes_built msg _ [] (by rw [hlen]; exact h) (by decide)
  have hbuilt : getVendorBytes 4 0 (cecMsgRequestShortAudioDescriptor msg reply fs) = fs.map formatByte := by
    rw [bytesMessage, hlen, List.nil_append, ← List.map_take] at hbytes
    exact hbytes
  rw [cecOpsRequestShortAudioDescriptor, hbuilt, List.map_map]
  exact (List.map_congr_left fun f hf => getFormat_formatByte (hw f hf)).trans (List.map_id fs)

/-! ## Status, commands and latency -/

/-- The byte of a timer status. -/
theorem toNat_statusByte {w m f l : UInt8} (hw : w < 2) (hm : m < 4) (hf : f = 0 ∨ f = 0x10) (hl : l < 16) :
    (w <<< 7 ||| m <<< 5 ||| f ||| l).toNat = w.toNat * 128 + m.toNat * 32 + f.toNat + l.toNat := by
  have hw' : w.toNat < 2 := hw
  have hm' : m.toNat < 4 := hm
  have hl' : l.toNat < 16 := hl
  have hf' : f.toNat = 0 ∨ f.toNat = 16 := by
    rcases hf with rfl | rfl
    · exact Or.inl rfl
    · exact Or.inr rfl
  have h7 : (w <<< 7).toNat = w.toNat * 2 ^ 7 := toNat_shiftLeft 7 rfl (by decide) (by omega)
  have h5 : (m <<< 5).toNat = m.toNat * 2 ^ 5 := toNat_shiftLeft 5 rfl (by decide) (by omega)
  have hwm : (w <<< 7 ||| m <<< 5).toNat = w.toNat * 128 + m.toNat * 32 := by
    rw [toNat_lor 7 (by omega) (by omega), h7, h5]
    rfl
  have hwmf : (w <<< 7 ||| m <<< 5 ||| f).toNat = w.toNat * 128 + m.toNat * 32 + f.toNat := by
    rw [toNat_lor 5 (by omega) (by omega), hwm]
  rw [toNat_lor 4 (by omega) hl', hwmf]

/-- The fields of the byte of a timer status. -/
theorem statusByte_fields {w m f l : UInt8} (hw : w < 2) (hm : m < 4) (hf : f = 0 ∨ f = 0x10) (hl : l < 16) :
    (w <<< 7 ||| m <<< 5 ||| f ||| l) >>> 7 = w ∧ (w <<< 7 ||| m <<< 5 ||| f ||| l) >>> 5 &&& 3 = m ∧
      (w <<< 7 ||| m <<< 5 ||| f ||| l) &&& 0xf = l ∧ ((w <<< 7 ||| m <<< 5 ||| f ||| l) &&& 0x10 ≠ 0 ↔ f ≠ 0) := by
  have hsum := toNat_statusByte hw hm hf hl
  have hw' : w.toNat < 2 := hw
  have hm' : m.toNat < 4 := hm
  have hl' : l.toNat < 16 := hl
  have hf' : f.toNat = 0 ∨ f.toNat = 16 := by
    rcases hf with rfl | rfl
    · exact Or.inl rfl
    · exact Or.inr rfl
  refine ⟨?_, ?_, ?_, ?_⟩
  · apply UInt8.toNat_inj.mp
    rw [toNat_shiftRight 7 rfl (by decide), hsum]
    omega
  · apply UInt8.toNat_inj.mp
    rw [toNat_land 2 rfl, toNat_shiftRight 5 rfl (by decide), hsum]
    omega
  · apply UInt8.toNat_inj.mp
    rw [toNat_land 4 rfl, hsum]
    omega
  · rw [ne_eq, ne_eq, ← UInt8.toNat_inj, ← UInt8.toNat_inj, UInt8.toNat_and, hsum]
    show ¬ (w.toNat * 128 + m.toNat * 32 + f.toNat + l.toNat &&& 16) = 0 ↔ ¬ f.toNat = 0
    rw [Lib.land_eq_zero_iff (show 16 = 2 ^ 4 from rfl)]
    omega

/-- The status is read as it was given: the flag tells which of its two kinds it is. -/
theorem timerStatus_kinds {s : TimerStatus} (h : s.Fits) {b : UInt8}
    (hflag : b &&& 0x10 ≠ 0 ↔ s.progInfo ≠ 0)
    (hlow : b &&& 0xf = if s.progInfo ≠ 0 then s.progInfo else s.progError) :
    (if b &&& 0x10 ≠ 0 then b &&& 0xf else 0) = s.progInfo ∧
      (if b &&& 0x10 ≠ 0 then 0 else b &&& 0xf) = s.progError := by
  by_cases hinfo : s.progInfo ≠ 0
  · have herror : s.progError = 0 := h.2.2.2.2.1.resolve_left hinfo
    rw [if_pos hinfo] at hlow
    rw [if_pos (hflag.mpr hinfo), if_pos (hflag.mpr hinfo), hlow, herror]
    exact ⟨rfl, rfl⟩
  · rw [if_neg hinfo] at hlow
    rw [if_neg (mt hflag.mp hinfo), if_neg (mt hflag.mp hinfo), hlow, not_not.mp hinfo]
    exact ⟨rfl, rfl⟩

theorem timerStatus_built {s : TimerStatus} (h : s.Fits) :
    cecOpsTimerStatus (cecMsgTimerStatus msg s) = s.carried := by
  have hkinds := @timerStatus_kinds s h
  obtain ⟨hw, hm, hinfo, herror, -, hhr, hmin⟩ := h
  have hflag : (if s.progInfo ≠ 0 then (0x10 : UInt8) else 0) = 0 ∨
      (if s.progInfo ≠ 0 then (0x10 : UInt8) else 0) = 0x10 := by
    split
    · exact Or.inr rfl
    · exact Or.inl rfl
  have hlow : (if s.progInfo ≠ 0 then s.progInfo else s.progError) < 16 := by
    split
    · exact hinfo
    · exact herror
  have hset : (if s.progInfo ≠ 0 then (0x10 : UInt8) else 0) ≠ 0 ↔ s.progInfo ≠ 0 := by
    split
    · exact iff_of_true (by decide) ‹_›
    · exact iff_of_false (not_not.mpr rfl) ‹_›
  obtain ⟨h7, h5, h0, h4⟩ := statusByte_fields hw hm hflag hlow
  unfold cecMsgTimerStatus
  dsimp only
  generalize s.timerOverlapWarning <<< 7 ||| s.mediaInfo <<< 5 ||| (if s.progInfo ≠ 0 then (0x10 : UInt8) else 0) |||
    (if s.progInfo ≠ 0 then s.progInfo else s.progError) = b at h7 h5 h0 h4 ⊢
  obtain ⟨hinfo', herror'⟩ := hkinds (h4.trans hset) h0
  rw [TimerStatus.carried]
  by_cases hdur : hasDuration s.progInfo s.progError
  · rw [if_pos hdur, if_pos hdur, cecOpsTimerStatus]
    show (if hasDuration (if b &&& 0x10 ≠ 0 then b &&& 0xf else 0) (if b &&& 0x10 ≠ 0 then 0 else b &&& 0xf) then
      (⟨b >>> 7, b >>> 5 &&& 3, if b &&& 0x10 ≠ 0 then b &&& 0xf else 0, if b &&& 0x10 ≠ 0 then 0 else b &&& 0xf,
        ofBcd (toBcd s.durationHr), ofBcd (toBcd s.durationMin)⟩ : TimerStatus) else _) = _
    rw [hinfo', herror', if_pos hdur, h7, h5, ofBcd_toBcd hhr, ofBcd_toBcd hmin]
  · rw [if_neg hdur, if_neg hdur, cecOpsTimerStatus]
    show (if hasDuration (if b &&& 0x10 ≠ 0 then b &&& 0xf else 0) (if b &&& 0x10 ≠ 0 then 0 else b &&& 0xf) then
      _ else (⟨b >>> 7, b >>> 5 &&& 3, if b &&& 0x10 ≠ 0 then b &&& 0xf else 0,
        if b &&& 0x10 ≠ 0 then 0 else b &&& 0xf, 0, 0⟩ : TimerStatus)) = _
    rw [hinfo', herror', if_neg hdur, h7, h5]

/-- A command is read with the operand that it was sent with. -/
theorem userControlPressed_built {u : UiCommand} (h : u.Fits) :
    cecOpsUserControlPressed (cecMsgUserControlPressed msg u) = u.read := by
  rw [UiCommand.read]
  unfold UiCommand.carried cecMsgUserControlPressed
  dsimp only
  by_cases hopt : u.hasOptArg = 0
  · rw [if_pos hopt, if_pos hopt, ChannelData.read_none]
    rfl
  · rw [if_neg hopt, if_neg hopt]
    by_cases hbyte : uiByteOperand u.uiCmd
    · rw [if_pos hbyte, if_pos hbyte, ChannelData.read_none, cecOpsUserControlPressed,
        if_neg (by show ¬ (4 : ℕ) = 3; decide)]
      exact if_pos hbyte
    · rw [if_neg hbyte, if_neg hbyte]
      by_cases hchan : u.uiCmd = 0x67
      · rw [if_pos hchan, if_pos hchan, cecOpsUserControlPressed, if_neg (by show ¬ (7 : ℕ) = 3; decide)]
        have hget := getChannel_of_bytes (((structuredMessage msg 3
          [CEC_MSG_USER_CONTROL_PRESSED, u.uiCmd]).setLen 7).write 3 (channelBytes u.channelIdentifier)) 3
          (h ⟨hopt, hchan⟩) rfl
        rw [hget]
        refine (if_neg hbyte).trans ((if_pos hchan).trans (if_neg (by show ¬ (7 : ℕ) < 7; decide)))
      · rw [if_neg hchan, if_neg hchan, ChannelData.read_none]
        rfl

/-- The latency that is read, given the operands that are always there. -/
theorem cecOpsReportCurrentLatency_of_bytes (m : CecMsg) {l : Latency} (h : l.Fits) (hword : m.word 2 = l.physAddr)
    (h4 : m.msg 4 = l.videoLatency) (h5 : m.msg 5 = l.lowLatencyMode <<< 2 ||| l.audioOutCompensated) :
    cecOpsReportCurrentLatency m = { l with
      audioOutDelay := if l.audioOutCompensated = 3 ∧ 7 ≤ m.len then m.msg 6 else 0 } := by
  have hmode : l.lowLatencyMode.toNat < 2 := h.1
  have hcomp : l.audioOutCompensated.toNat < 2 ^ 2 := h.2
  obtain ⟨hupper, hlower⟩ := two_fields (s := 2) (m := 3) 2 rfl rfl (by decide)
    (by omega : l.lowLatencyMode.toNat * 2 ^ 2 < 256) hcomp
  have hone : l.lowLatencyMode &&& 1 = l.lowLatencyMode := by
    apply UInt8.toNat_inj.mp
    rw [toNat_land 1 rfl]
    exact Nat.mod_eq_of_lt hmode
  rw [cecOpsReportCurrentLatency, hword, h4, h5, hupper, hlower, hone]

theorem reportCurrentLatency_built {l : Latency} (h : l.Fits) :
    cecOpsReportCurrentLatency (cecMsgReportCurrentLatency msg l) = l.carried := by
  have hpush : (structuredMessage msg.toAll 6 [CEC_MSG_REPORT_CURRENT_LATENCY, hi8 l.physAddr, lo8 l.physAddr,
      l.videoLatency, l.lowLatencyMode <<< 2 ||| l.audioOutCompensated]).push l.audioOutDelay =
      structuredMessage msg.toAll 7 [CEC_MSG_REPORT_CURRENT_LATENCY, hi8 l.physAddr, lo8 l.physAddr,
        l.videoLatency, l.lowLatencyMode <<< 2 ||| l.audioOutCompensated, l.audioOutDelay] :=
    CecMsg.push_write msg.toAll 1 _ l.audioOutDelay
  have hshort := cecOpsReportCurrentLatency_of_bytes (structuredMessage msg.toAll 6
    [CEC_MSG_REPORT_CURRENT_LATENCY, hi8 l.physAddr, lo8 l.physAddr, l.videoLatency,
      l.lowLatencyMode <<< 2 ||| l.audioOutCompensated]) h (be16_hi8_lo8 l.physAddr) rfl rfl
  have hlong := cecOpsReportCurrentLatency_of_bytes (structuredMessage msg.toAll 7
    [CEC_MSG_REPORT_CURRENT_LATENCY, hi8 l.physAddr, lo8 l.physAddr, l.videoLatency,
      l.lowLatencyMode <<< 2 ||| l.audioOutCompensated, l.audioOutDelay]) h (be16_hi8_lo8 l.physAddr) rfl rfl
  unfold cecMsgReportCurrentLatency Latency.carried
  dsimp only
  by_cases hthree : l.audioOutCompensated = 3
  · rw [if_pos hthree, if_pos hthree, hpush, hlong]
    exact congrArg (fun delay => { l with audioOutDelay := delay }) (if_pos (And.intro hthree (Nat.le_refl 7)))
  · rw [if_neg hthree, if_neg hthree, hshort, if_neg fun hc => hthree (And.left hc)]

/-! ## All messages -/

theorem recordOn_built (reply : Bool) {src : RecordSrc} (h : src.Fits) :
    cecOpsRecordOn (cecMsgRecordOn msg reply src) = some src.read := by
  rcases src with _ | d | a | plug | physAddr
  · rfl
  · have hget := cecGetDigitalServiceId_of_bytes (cecMsgRecordOn msg reply (.digital d)) 3 h
      (read_digital msg 10 [CEC_MSG_RECORD_ON, CEC_OP_RECORD_SRC_DIGITAL] d (by decide))
    rw [RecordSrc.read, ← hget]
    rfl
  · have hget := getAnalog_of_bytes (cecMsgRecordOn msg reply (.analog a)) 3 (a := a) rfl
    show some (RecordSrc.analog (getAnalog (cecMsgRecordOn msg reply (.analog a)) 3)) = _
    rw [hget]
    rfl
  · rfl
  · show some (RecordSrc.extPhysAddr (be16 (hi8 physAddr) (lo8 physAddr))) = _
    rw [be16_hi8_lo8]
    rfl

theorem tunerDeviceStatus_built {info : TunerDeviceInfo} (h : info.Fits) :
    cecOpsTunerDeviceStatus (cecMsgTunerDeviceStatus msg info) = { info with service := info.service.read } := by
  obtain ⟨rec, display, service⟩ := info
  obtain ⟨hrec, hdisplay, hservice⟩ := h
  have hrec' : rec.toNat < 2 := hrec
  obtain ⟨hupper, hlower⟩ := two_fields (s := 7) (m := 0x7f) 7 rfl rfl (by decide)
    (by omega : rec.toNat * 2 ^ 7 < 256) (show display.toNat < 2 ^ 7 from hdisplay)
  rcases service with a | d
  · have hget := getAnalog_of_bytes (cecMsgTunerDeviceStatus msg ⟨rec, display, .analog a⟩) 3 (a := a) rfl
    show (⟨(rec <<< 7 ||| display) >>> 7, (rec <<< 7 ||| display) &&& 0x7f, .analog (getAnalog _ 3)⟩ :
      TunerDeviceInfo) = _
    rw [hupper, hlower, hget]
    rfl
  · have hget := cecGetDigitalServiceId_of_bytes (cecMsgTunerDeviceStatus msg ⟨rec, display, .digital d⟩) 3 hservice
      (read_digital msg 10 [CEC_MSG_TUNER_DEVICE_STATUS, rec <<< 7 ||| display] d (show 2 ≤ 8 by decide))
    have hbyte : (cecMsgTunerDeviceStatus msg ⟨rec, display, .digital d⟩).msg 2 = rec <<< 7 ||| display :=
      msg_structuredMessage msg 10 ([CEC_MSG_TUNER_DEVICE_STATUS, rec <<< 7 ||| display] ++ cecSetDigitalServiceId d) 2
        (by decide) (by rw [List.length_append, length_cecSetDigitalServiceId]; exact (by decide : 2 < 1 + (2 + 7)))
    rw [cecOpsTunerDeviceStatus, hbyte, hupper, hlower, hget]
    rfl

/-- A timer of an analogue service, set or cleared. -/
theorem analogueTimer_built (opcode replyOpcode : UInt8) (reply : Bool) {t : TimerSlot} (a : AnalogService) (h : t.Fits) :
    (analogueTimer opcode replyOpcode msg reply t a).msg 1 = opcode ∧
      getSlot (analogueTimer opcode replyOpcode msg reply t a) = t ∧
        getAnalog (analogueTimer opcode replyOpcode msg reply t a) 9 = a :=
  ⟨rfl, getSlot_built msg 13 opcode (analogBytes a) h, getAnalog_of_bytes _ 9 rfl⟩

/-- A timer of a digital service, set or cleared. -/
theorem digitalTimer_built (opcode replyOpcode : UInt8) (reply : Bool) {t : TimerSlot} {d : DigitalServiceId}
    (h : t.Fits) (hd : d.Fits) :
    (digitalTimer opcode replyOpcode msg reply t d).msg 1 = opcode ∧
      getSlot (digitalTimer opcode replyOpcode msg reply t d) = t ∧
        cecGetDigitalServiceId (digitalTimer opcode replyOpcode msg reply t d) 9 = d.read :=
  ⟨opcode_structuredMessage msg 16 opcode (slotBytes t ++ cecSetDigitalServiceId d),
    getSlot_built msg 16 opcode (cecSetDigitalServiceId d) h,
    cecGetDigitalServiceId_of_bytes _ 9 hd
      (read_digital msg 16 (opcode :: slotBytes t) d (show 8 ≤ 8 by decide))⟩

/-- A timer of an external source, set or cleared. -/
theorem extTimer_built (opcode replyOpcode : UInt8) (reply : Bool) {t : TimerSlot} (e : ExtSource) (h : t.Fits) :
    (extTimer opcode replyOpcode msg reply t e).msg 1 = opcode ∧
      getSlot (extTimer opcode replyOpcode msg reply t e) = t ∧
        getExtSource (extTimer opcode replyOpcode msg reply t e) = e := by
  refine ⟨rfl, getSlot_built msg 13 opcode [e.extSrcSpec, e.plug, hi8 e.physAddr, lo8 e.physAddr] h, ?_⟩
  show (⟨e.extSrcSpec, e.plug, be16 (hi8 e.physAddr) (lo8 e.physAddr)⟩ : ExtSource) = e
  rw [be16_hi8_lo8]

/-- A string or vendor data behind the opcode. -/
theorem bytesMessage_built (most : ℕ) (opcode : UInt8) (front bytes : List UInt8) :
    (bytesMessage most msg opcode front bytes).msg 1 = opcode :=
  opcode_structuredMessage msg _ opcode _

theorem opcode_recordOn (reply : Bool) (src : RecordSrc) : (cecMsgRecordOn msg reply src).msg 1 = CEC_MSG_RECORD_ON := by
  rcases src with _ | d | a | plug | physAddr
  · rfl
  · exact opcode_structuredMessage msg 10 CEC_MSG_RECORD_ON (CEC_OP_RECORD_SRC_DIGITAL :: cecSetDigitalServiceId d)
  · rfl
  · rfl
  · rfl

theorem opcode_timerStatus (s : TimerStatus) : (cecMsgTimerStatus msg s).msg 1 = CEC_MSG_TIMER_STATUS := by
  unfold cecMsgTimerStatus
  dsimp only
  split <;> rfl

theorem opcode_tunerDeviceStatus (info : TunerDeviceInfo) :
    (cecMsgTunerDeviceStatus msg info).msg 1 = CEC_MSG_TUNER_DEVICE_STATUS := by
  obtain ⟨rec, display, a | d⟩ := info
  · rfl
  · exact opcode_structuredMessage msg 10 CEC_MSG_TUNER_DEVICE_STATUS
      ((rec <<< 7 ||| display) :: cecSetDigitalServiceId d)

theorem opcode_userControlPressed (u : UiCommand) :
    (cecMsgUserControlPressed msg u).msg 1 = CEC_MSG_USER_CONTROL_PRESSED := by
  unfold cecMsgUserControlPressed
  dsimp only
  split_ifs <;> rfl

theorem opcode_reportCurrentLatency (l : Latency) :
    (cecMsgReportCurrentLatency msg l).msg 1 = CEC_MSG_REPORT_CURRENT_LATENCY := by
  unfold cecMsgReportCurrentLatency
  dsimp only
  split <;> rfl

/-- **What comes back.**  The reader that the opcode selects returns the arguments that the message carries, with
the major number of a channel as it is read. -/
theorem cecOpsStructured_built (reply : Bool) (c : CecStructured) (h : c.Fits) :
    cecOpsStructured (cecMsgStructured msg reply c) = some c.read := by
  cases c with
  | recordOn src =>
    exact (cecOpsStructured_of_opcode (opcode_recordOn msg reply src) rfl).trans
      (congrArg (Option.map _) (recordOn_built msg reply h))
  | recordStatus s => rfl
  | timerStatus s =>
    exact cecOpsStructured_of_read (opcode_timerStatus msg s) rfl
      (congrArg CecStructured.timerStatus (timerStatus_built msg h))
  | timerClearedStatus s => rfl
  | clearAnalogueTimer t a =>
    obtain ⟨hop, hslot, hget⟩ := analogueTimer_built msg CEC_MSG_CLEAR_ANALOGUE_TIMER
      CEC_MSG_TIMER_CLEARED_STATUS reply a h
    exact cecOpsStructured_of_read hop rfl (congrArg₂ CecStructured.clearAnalogueTimer hslot hget)
  | setAnalogueTimer t a =>
    obtain ⟨hop, hslot, hget⟩ := analogueTimer_built msg CEC_MSG_SET_ANALOGUE_TIMER CEC_MSG_TIMER_STATUS reply a h
    exact cecOpsStructured_of_read hop rfl (congrArg₂ CecStructured.setAnalogueTimer hslot hget)
  | clearDigitalTimer t d =>
    obtain ⟨hop, hslot, hget⟩ := digitalTimer_built msg CEC_MSG_CLEAR_DIGITAL_TIMER
      CEC_MSG_TIMER_CLEARED_STATUS reply h.1 h.2
    exact cecOpsStructured_of_read hop rfl (congrArg₂ CecStructured.clearDigitalTimer hslot hget)
  | setDigitalTimer t d =>
    obtain ⟨hop, hslot, hget⟩ := digitalTimer_built msg CEC_MSG_SET_DIGITAL_TIMER CEC_MSG_TIMER_STATUS reply h.1 h.2
    exact cecOpsStructured_of_read hop rfl (congrArg₂ CecStructured.setDigitalTimer hslot hget)
  | clearExtTimer t e =>
    obtain ⟨hop, hslot, hget⟩ := extTimer_built msg CEC_MSG_CLEAR_EXT_TIMER CEC_MSG_TIMER_CLEARED_STATUS reply e h
    exact cecOpsStructured_of_read hop rfl (congrArg₂ CecStructured.clearExtTimer hslot hget)
  | setExtTimer t e =>
    obtain ⟨hop, hslot, hget⟩ := extTimer_built msg CEC_MSG_SET_EXT_TIMER CEC_MSG_TIMER_STATUS reply e h
    exact cecOpsStructured_of_read hop rfl (congrArg₂ CecStructured.setExtTimer hslot hget)
  | setTimerProgramTitle s =>
    exact cecOpsStructured_of_read (bytesMessage_built msg 14 CEC_MSG_SET_TIMER_PROGRAM_TITLE [] s) rfl
      (congrArg CecStructured.setTimerProgramTitle (getBytes_built msg _ [] h (by decide)))
  | tunerDeviceStatus info =>
    exact cecOpsStructured_of_read (opcode_tunerDeviceStatus msg info) rfl
      (congrArg CecStructured.tunerDeviceStatus (tunerDeviceStatus_built msg h))
  | selectAnalogueService a =>
    exact congrArg (fun service => some (CecStructured.selectAnalogueService service))
      (getAnalog_of_bytes (cecMsgSelectAnalogueService msg a) 2 rfl)
  | selectDigitalService d =>
    exact cecOpsStructured_of_read (opcode_structuredMessage msg 9 CEC_MSG_SELECT_DIGITAL_SERVICE _) rfl
      (congrArg CecStructured.selectDigitalService
        (cecGetDigitalServiceId_of_bytes _ 2 h (read_digital msg 9 [CEC_MSG_SELECT_DIGITAL_SERVICE] d (by decide))))
  | deviceVendorId v => exact congrArg (fun id => some (CecStructured.deviceVendorId id)) (be24_octets24 h)
  | vendorCommand bs =>
    exact cecOpsStructured_of_read (bytesMessage_built msg 14 CEC_MSG_VENDOR_COMMAND [] bs) rfl
      (congrArg CecStructured.vendorCommand (getVendorBytes_built msg _ [] h (by decide)))
  | vendorCommandWithId v bs =>
    have hid : getVendorId (cecMsgVendorCommandWithId msg v bs) = v := by
      have hread := read_structuredMessage msg (2 + 3 + min bs.length 11) [CEC_MSG_VENDOR_COMMAND_WITH_ID] (octets24 v)
        (bs.take 11) (show 1 + 1 + 3 ≤ 16 by decide)
      have hlist : [(cecMsgVendorCommandWithId msg v bs).msg 2, (cecMsgVendorCommandWithId msg v bs).msg 3,
        (cecMsgVendorCommandWithId msg v bs).msg 4] = octets24 v := hread
      simp only [octets24, List.cons.injEq] at hlist
      obtain ⟨h2, h3, h4, -⟩ := hlist
      rw [getVendorId, h2, h3, h4, be24_octets24 h.1]
    exact cecOpsStructured_of_read (bytesMessage_built msg 11 CEC_MSG_VENDOR_COMMAND_WITH_ID (octets24 v) bs) rfl
      (congrArg₂ CecStructured.vendorCommandWithId hid
        (getVendorBytes_built msg _ (octets24 v) h.2 (show 2 + 3 + 11 ≤ 16 by decide)))
  | vendorRemoteButtonDown bs =>
    exact cecOpsStructured_of_read (bytesMessage_built msg 14 CEC_MSG_VENDOR_REMOTE_BUTTON_DOWN [] bs) rfl
      (congrArg CecStructured.vendorRemoteButtonDown (getVendorBytes_built msg _ [] h (by decide)))
  | setOsdString c s =>
    have hctl : (cecMsgSetOsdString msg c s).msg 2 = c :=
      msg_structuredMessage msg _ (CEC_MSG_SET_OSD_STRING :: c :: s.take 13) 2 (by decide)
        (by rw [List.length_cons, List.length_cons]; show 2 < _; omega)
    exact cecOpsStructured_of_read (bytesMessage_built msg 13 CEC_MSG_SET_OSD_STRING [c] s) rfl
      (congrArg₂ CecStructured.setOsdString hctl (getBytes_built msg _ [c] h (show 2 + 1 + 13 ≤ 16 by decide)))
  | setOsdName s =>
    exact cecOpsStructured_of_read (bytesMessage_built msg 14 CEC_MSG_SET_OSD_NAME [] s) rfl
      (congrArg CecStructured.setOsdName (getBytes_built msg _ [] h (by decide)))
  | userControlPressed u =>
    exact cecOpsStructured_of_read (opcode_userControlPressed msg u) rfl
      (congrArg CecStructured.userControlPressed (userControlPressed_built msg h))
  | reportShortAudioDescriptor ds =>
    exact cecOpsStructured_of_read (opcode_structuredMessage msg _ CEC_MSG_REPORT_SHORT_AUDIO_DESCRIPTOR _) rfl
      (congrArg CecStructured.reportShortAudioDescriptor
        (reportShortAudioDescriptor_built msg h.1 h.2))
  | requestShortAudioDescriptor fs =>
    exact cecOpsStructured_of_read (opcode_structuredMessage msg (2 + min fs.length 4)
      CEC_MSG_REQUEST_SHORT_AUDIO_DESCRIPTOR ((fs.take 4).map formatByte)) rfl
      (congrArg CecStructured.requestShortAudioDescriptor
        (requestShortAudioDescriptor_built msg reply h.1 h.2))
  | reportCurrentLatency l =>
    exact cecOpsStructured_of_read (opcode_reportCurrentLatency msg l) rfl
      (congrArg CecStructured.reportCurrentLatency (reportCurrentLatency_built msg h))
  | requestCurrentLatency a => exact congrArg (fun addr => some (CecStructured.requestCurrentLatency addr)) (be16_hi8_lo8 a)

/-! ## Lengths -/

theorem CecMsg.lengthOk_of_opcode {m : CecMsg} (opcode : UInt8) (len : ℕ) (hop : m.msg 1 = opcode) (hlen : m.len = len)
    (h : 2 ≤ len ∧ len ≤ CEC_MAX_MSG_SIZE ∧ (cecMsgSize opcode &&& 0x1f).toNat ≤ len) : m.LengthOk := by
  rw [CecMsg.LengthOk, hop, hlen]
  exact h

/-- A string or vendor data is as long as it may be. -/
theorem lengthOk_bytesMessage (most : ℕ) (opcode : UInt8) (front bytes : List UInt8)
    (h16 : 2 + front.length + most ≤ CEC_MAX_MSG_SIZE) (hmin : (cecMsgSize opcode &&& 0x1f).toNat ≤ 2 + front.length) :
    (bytesMessage most msg opcode front bytes).LengthOk := by
  have hlen : (bytesMessage most msg opcode front bytes).len = 2 + front.length + min bytes.length most := rfl
  refine CecMsg.lengthOk_of_opcode _ _ (bytesMessage_built msg most opcode front bytes) hlen ⟨?_, ?_, ?_⟩
  all_goals omega

/-- Every message has a length that its opcode admits. -/
theorem lengthOk_built (reply : Bool) (c : CecStructured) : (cecMsgStructured msg reply c).LengthOk := by
  cases c with
  | recordOn src =>
    have hop := opcode_recordOn msg reply src
    rcases src with _ | d | a | plug | physAddr
    · exact CecMsg.lengthOk_of_opcode CEC_MSG_RECORD_ON 3 hop rfl (by decide)
    · exact CecMsg.lengthOk_of_opcode CEC_MSG_RECORD_ON 10 hop rfl (by decide)
    · exact CecMsg.lengthOk_of_opcode CEC_MSG_RECORD_ON 7 hop rfl (by decide)
    · exact CecMsg.lengthOk_of_opcode CEC_MSG_RECORD_ON 4 hop rfl (by decide)
    · exact CecMsg.lengthOk_of_opcode CEC_MSG_RECORD_ON 5 hop rfl (by decide)
  | recordStatus s =>
    exact CecMsg.lengthOk_of_opcode CEC_MSG_RECORD_STATUS 3 rfl rfl (by decide)
  | timerStatus s =>
    have hlen : (cecMsgTimerStatus msg s).len = if hasDuration s.progInfo s.progError then 5 else 3 := by
      unfold cecMsgTimerStatus
      dsimp only
      split <;> rfl
    refine CecMsg.lengthOk_of_opcode _ _ (opcode_timerStatus msg s) hlen ?_
    split <;> decide
  | timerClearedStatus s =>
    exact CecMsg.lengthOk_of_opcode CEC_MSG_TIMER_CLEARED_STATUS 3 rfl rfl (by decide)
  | clearAnalogueTimer t a =>
    exact CecMsg.lengthOk_of_opcode CEC_MSG_CLEAR_ANALOGUE_TIMER 13 rfl rfl (by decide)
  | setAnalogueTimer t a =>
    exact CecMsg.lengthOk_of_opcode CEC_MSG_SET_ANALOGUE_TIMER 13 rfl rfl (by decide)
  | clearDigitalTimer t d =>
    exact CecMsg.lengthOk_of_opcode CEC_MSG_CLEAR_DIGITAL_TIMER 16
      (opcode_structuredMessage msg 16 CEC_MSG_CLEAR_DIGITAL_TIMER
      (slotBytes t ++ cecSetDigitalServiceId d)) rfl (by decide)
  | setDigitalTimer t d =>
    exact CecMsg.lengthOk_of_opcode CEC_MSG_SET_DIGITAL_TIMER 16
      (opcode_structuredMessage msg 16 CEC_MSG_SET_DIGITAL_TIMER
      (slotBytes t ++ cecSetDigitalServiceId d)) rfl (by decide)
  | clearExtTimer t e =>
    exact CecMsg.lengthOk_of_opcode CEC_MSG_CLEAR_EXT_TIMER 13 rfl rfl (by decide)
  | setExtTimer t e =>
    exact CecMsg.lengthOk_of_opcode CEC_MSG_SET_EXT_TIMER 13 rfl rfl (by decide)
  | setTimerProgramTitle s =>
    exact lengthOk_bytesMessage msg 14 CEC_MSG_SET_TIMER_PROGRAM_TITLE [] s (by decide) (by decide)
  | tunerDeviceStatus info =>
    have hop := opcode_tunerDeviceStatus msg info
    obtain ⟨rec, display, a | d⟩ := info
    · exact CecMsg.lengthOk_of_opcode CEC_MSG_TUNER_DEVICE_STATUS 7 hop rfl (by decide)
    · exact CecMsg.lengthOk_of_opcode CEC_MSG_TUNER_DEVICE_STATUS 10 hop rfl (by decide)
  | selectAnalogueService a =>
    exact CecMsg.lengthOk_of_opcode CEC_MSG_SELECT_ANALOGUE_SERVICE 6 rfl rfl (by decide)
  | selectDigitalService d =>
    exact CecMsg.lengthOk_of_opcode CEC_MSG_SELECT_DIGITAL_SERVICE 9
      (opcode_structuredMessage msg 9 CEC_MSG_SELECT_DIGITAL_SERVICE
      (cecSetDigitalServiceId d)) rfl (by decide)
  | deviceVendorId v =>
    exact CecMsg.lengthOk_of_opcode CEC_MSG_DEVICE_VENDOR_ID 5 rfl rfl (by decide)
  | vendorCommand bs => exact lengthOk_bytesMessage msg 14 CEC_MSG_VENDOR_COMMAND [] bs (by decide) (by decide)
  | vendorCommandWithId v bs =>
    exact lengthOk_bytesMessage msg 11 CEC_MSG_VENDOR_COMMAND_WITH_ID (octets24 v) bs (show 2 + 3 + 11 ≤ 16 by decide)
      (show (cecMsgSize CEC_MSG_VENDOR_COMMAND_WITH_ID &&& 0x1f).toNat ≤ 2 + 3 by decide)
  | vendorRemoteButtonDown bs =>
    exact lengthOk_bytesMessage msg 14 CEC_MSG_VENDOR_REMOTE_BUTTON_DOWN [] bs (by decide) (by decide)
  | setOsdString c s =>
    exact lengthOk_bytesMessage msg 13 CEC_MSG_SET_OSD_STRING [c] s (show 2 + 1 + 13 ≤ 16 by decide)
      (show (cecMsgSize CEC_MSG_SET_OSD_STRING &&& 0x1f).toNat ≤ 2 + 1 by decide)
  | setOsdName s => exact lengthOk_bytesMessage msg 14 CEC_MSG_SET_OSD_NAME [] s (by decide) (by decide)
  | userControlPressed u =>
    have hlen : (cecMsgUserControlPressed msg u).len = if u.hasOptArg = 0 then 3 else if uiByteOperand u.uiCmd then 4
        else if u.uiCmd = 0x67 then 7 else 3 := by
      unfold cecMsgUserControlPressed
      dsimp only
      split_ifs <;> rfl
    refine CecMsg.lengthOk_of_opcode _ _ (opcode_userControlPressed msg u) hlen ?_
    split_ifs <;> decide
  | reportShortAudioDescriptor ds =>
    have hlen : (cecMsgReportShortAudioDescriptor msg ds).len = 2 + min ds.length 4 * 3 := rfl
    have hmin : (cecMsgSize CEC_MSG_REPORT_SHORT_AUDIO_DESCRIPTOR &&& 0x1f).toNat = 2 := by decide
    refine CecMsg.lengthOk_of_opcode _ _ (opcode_structuredMessage msg (2 + min ds.length 4 * 3)
      CEC_MSG_REPORT_SHORT_AUDIO_DESCRIPTOR ((ds.take 4).flatMap octets24)) hlen
      ⟨Nat.le_add_right 2 _, ?_, by rw [hmin]; exact Nat.le_add_right 2 _⟩
    show 2 + min ds.length 4 * 3 ≤ 16
    omega
  | requestShortAudioDescriptor fs =>
    have hlen : (cecMsgRequestShortAudioDescriptor msg reply fs).len = 2 + min fs.length 4 := rfl
    have hmin : (cecMsgSize CEC_MSG_REQUEST_SHORT_AUDIO_DESCRIPTOR &&& 0x1f).toNat = 2 := by decide
    refine CecMsg.lengthOk_of_opcode _ _ (opcode_structuredMessage msg (2 + min fs.length 4)
      CEC_MSG_REQUEST_SHORT_AUDIO_DESCRIPTOR ((fs.take 4).map formatByte)) hlen
      ⟨Nat.le_add_right 2 _, ?_, by rw [hmin]; exact Nat.le_add_right 2 _⟩
    show 2 + min fs.length 4 ≤ 16
    omega
  | reportCurrentLatency l =>
    have hlen : (cecMsgReportCurrentLatency msg l).len = if l.audioOutCompensated = 3 then 7 else 6 := by
      unfold cecMsgReportCurrentLatency
      dsimp only
      split <;> rfl
    refine CecMsg.lengthOk_of_opcode _ _ (opcode_reportCurrentLatency msg l) hlen ?_
    split <;> decide
  | requestCurrentLatency a =>
    exact CecMsg.lengthOk_of_opcode CEC_MSG_REQUEST_CURRENT_LATENCY 4 rfl rfl (by decide)

/-! ## The round trip -/

theorem ChannelData.read_eq_iff {c : ChannelData} (h : c.Fits) : c.read = c ↔ c.major < 256 := by
  rw [← majorRead_eq_iff h.2]
  constructor
  · intro heq
    exact congrArg ChannelData.major heq
  · intro heq
    rw [ChannelData.read, heq]

theorem DigitalServiceId.read_eq_iff {d : DigitalServiceId} (h : d.Fits) :
    d.read = d.carried ↔ ∀ channel ∈ (if d.ByChannel then [d.channel] else []), channel.major < 256 := by
  rw [DigitalServiceId.read]
  by_cases hby : d.ByChannel
  · rw [if_pos hby, List.forall_mem_singleton, ← ChannelData.read_eq_iff (h.2.2 hby), carried_of_byChannel hby,
      DigitalServiceId.mk.injEq]
    simp only [true_and, and_true]
  · rw [if_neg hby, carried_of_not_byChannel hby, ChannelData.read_none]
    exact iff_of_true rfl (List.forall_mem_nil _)

theorem UiCommand.read_eq_iff {u : UiCommand} (h : u.Fits) :
    u.read = u.carried ↔ ∀ channel ∈ (if u.HasChannel then [u.channelIdentifier] else []), channel.major < 256 := by
  have hread : u.read = u.carried ↔ u.carried.channelIdentifier.read = u.carried.channelIdentifier := by
    constructor
    · intro heq
      exact congrArg UiCommand.channelIdentifier heq
    · intro heq
      rw [UiCommand.read, heq]
  rw [hread]
  by_cases hchan : u.HasChannel
  · have hbyte : ¬ uiByteOperand u.uiCmd := by
      rw [hchan.2]
      decide
    rw [if_pos hchan, List.forall_mem_singleton, ← ChannelData.read_eq_iff (h hchan), UiCommand.carried,
      if_neg hchan.1, if_neg hbyte, if_pos hchan.2]
  · have hnone : u.carried.channelIdentifier = ⟨0, 0, 0⟩ := by
      unfold UiCommand.carried
      split_ifs with hopt hbyte hcmd
      · rfl
      · rfl
      · exact absurd ⟨hopt, hcmd⟩ hchan
      · rfl
    rw [if_neg hchan, hnone]
    exact iff_of_true ChannelData.read_none (List.forall_mem_nil _)

/-- The arguments are read as they are carried exactly where the channel has a low major number. -/
theorem CecStructured.read_eq_iff {c : CecStructured} (h : c.Fits) : c.read = c.carried ↔ c.LowMajor := by
  cases c with
  | recordOn src =>
    rcases src with _ | d | a | plug | physAddr
    case digital =>
      rw [read, carried, recordOn.injEq, RecordSrc.read, RecordSrc.carried, RecordSrc.digital.injEq]
      exact DigitalServiceId.read_eq_iff h
    all_goals exact iff_of_true rfl (List.forall_mem_nil _)
  | clearDigitalTimer t d =>
    rw [read, carried, clearDigitalTimer.injEq, and_iff_right rfl]
    exact DigitalServiceId.read_eq_iff h.2
  | setDigitalTimer t d =>
    rw [read, carried, setDigitalTimer.injEq, and_iff_right rfl]
    exact DigitalServiceId.read_eq_iff h.2
  | tunerDeviceStatus info =>
    obtain ⟨rec, display, a | d⟩ := info
    · exact iff_of_true rfl (List.forall_mem_nil _)
    · rw [read, carried, tunerDeviceStatus.injEq, TunerDeviceInfo.mk.injEq, and_iff_right rfl, and_iff_right rfl,
        TunerService.read, TunerService.carried, TunerService.digital.injEq]
      exact DigitalServiceId.read_eq_iff h.2.2
  | selectDigitalService d =>
    rw [read, carried, selectDigitalService.injEq]
    exact DigitalServiceId.read_eq_iff h
  | userControlPressed u =>
    rw [read, carried, userControlPressed.injEq]
    exact UiCommand.read_eq_iff h
  | _ => exact iff_of_true rfl (List.forall_mem_nil _)

/-- **A structured message comes back exactly where its channel has a low major number.**  Every argument within its
field is returned by the reader that the opcode selects, in a message of a length that the opcode admits, but for a
major channel number of 256 or more. -/
theorem structured_comesBack_iff (reply : Bool) (c : CecStructured) (h : c.Fits) :
    StructuredComesBack msg reply c ↔ c.LowMajor := by
  rw [StructuredComesBack, cecOpsStructured_built msg reply c h, and_iff_left (lengthOk_built msg reply c),
    Option.some.injEq]
  exact CecStructured.read_eq_iff h

/-- A timer for the channel 255-1, on the third of May from 20:15 on for one and a half hours. -/
def channelTimer : CecStructured :=
  .setDigitalTimer ⟨3, 5, 20, 15, 1, 30, 0⟩ ⟨CEC_OP_SERVICE_ID_METHOD_BY_CHANNEL, 0x18, ⟨2, 255, 1⟩, 0, 0, 0⟩

theorem structured_comesBack_iff_timer : channelTimer.Fits ∧
    (StructuredComesBack CecMsg.blank false channelTimer ↔ channelTimer.LowMajor) := by
  have hfits : channelTimer.Fits :=
    ⟨⟨by decide, by decide, by decide, by decide⟩, by decide, by decide, fun _ => ⟨by decide, by decide⟩⟩
  exact ⟨hfits, structured_comesBack_iff CecMsg.blank false channelTimer hfits⟩

/-- The channel 256-1 is read as the channel 64-1. -/
theorem not_structured_comesBack :
    (CecStructured.userControlPressed ⟨0x67, 1, ⟨2, 256, 1⟩, 0⟩).Fits ∧
      cecOpsStructured (cecMsgStructured CecMsg.blank false (.userControlPressed ⟨0x67, 1, ⟨2, 256, 1⟩, 0⟩)) =
        some (.userControlPressed ⟨0x67, 1, ⟨2, 64, 1⟩, 0⟩) ∧
      ¬ StructuredComesBack CecMsg.blank false (.userControlPressed ⟨0x67, 1, ⟨2, 256, 1⟩, 0⟩) := by
  refine ⟨fun _ => ⟨by decide, by decide⟩, by decide +kernel, ?_⟩
  intro hback
  have hread : cecOpsStructured (cecMsgStructured CecMsg.blank false
      (.userControlPressed ⟨0x67, 1, ⟨2, 256, 1⟩, 0⟩)) ≠
      some (CecStructured.userControlPressed ⟨0x67, 1, ⟨2, 256, 1⟩, 0⟩).carried := by
    decide +kernel
  exact hread hback.1

end Cec
end TbsMedia
