import Mathlib
import TbsMedia.Cec.Message

/-!
# Replies to waiting transmits

A transmit that expects a reply waits in a queue.  `cec_received_msg_ts` checks a received message, and gives
it to the first transmit of the queue that it answers.

The checks are read as conditions on the message as it came (`Ignored`), since what is cleared lies behind its
length.  The walk rewrites the reply of a transmit that waits for ARC before it compares, so a match is said of
what the transmit asked for (`Answers`), and the transmits in front of it have at most that rewritten.

* `cecReceivedMsgTs`: the call.
* `Answers`, `Acceptable`: what it is for a message to answer a transmit, and to be looked at at all.
* `walkWaitQueue_cases`: what a walk over the wait queue does.
* `cecReceivedMsgTs_completes`: which transmit a message completes, and when it completes none.
-/

namespace TbsMedia
namespace Cec

/-! ## The adapter and its wait queue -/

/-- A `struct cec_data`, by its address. -/
abbrev DataPtr := ℕ

/-- A `struct cec_data` of the wait queue: the message sent, and the file handle that still waits for it. -/
structure WaitingData where
  ptr : DataPtr
  msg : CecMsg
  fh : Option ℕ

/-- The adapter, as far as a received message is concerned. -/
structure RxAdap where
  logAddrMask : UInt16
  cecVersion : UInt8
  lastInitiator : UInt8
  waitQueue : List WaitingData

/-- `cec_has_log_addr`. -/
def cecHasLogAddr (logAddrMask : UInt16) (logAddr : UInt8) : Bool :=
  logAddrMask &&& (1 <<< logAddr.toUInt16) != 0

/-- What the call leaves: the adapter, the message, the transmit passed to `cec_data_completed`, and what the
monitors and the protocol level are told. -/
structure Received where
  adap : RxAdap
  msg : CecMsg
  completed : Option WaitingData
  /-- `valid_la`, where `cec_queue_msg_monitor` is called. -/
  monitored : Option Bool
  /-- `is_reply`, where `cec_receive_notify` is called. -/
  notified : Option Bool

/-! ## The call -/

/-- The fields that the framework owns are cleared before the lock is taken. -/
def clearReceived (msg : CecMsg) (ts : ℕ) : CecMsg where
  txTs := 0
  rxTs := ts
  len := msg.len
  timeout := 0
  sequence := 0
  flags := 0
  msg := fun i => if i < msg.len then msg.msg i else 0
  reply := 0
  rxStatus := CEC_RX_STATUS_OK
  txStatus := 0
  txArbLostCnt := 0
  txNackCnt := 0
  txLowDriveCnt := 0
  txErrorCnt := 0

/-- The length and the addressing of a message whose opcode is in the table. -/
def sizeAndModeOk (cecVersion : UInt8) (msg : CecMsg) : Bool :=
  let size := cecMsgSize (msg.msg 1)
  let dirFl := size &&& BOTH
  if msg.len < (size &&& 0x1f).toNat then false
  else if msg.isBroadcast = false ∧ dirFl &&& DIRECTED = 0 then false
  else if msg.isBroadcast ∧ dirFl &&& BCAST1_4 = 0 then false
  else if msg.isBroadcast ∧ CEC_OP_CEC_VERSION_2_0 ≤ cecVersion ∧ dirFl &&& BCAST2_0 = 0 then false
  else true

/-- The messages with special length requirements. -/
def specialLengthOk (msg : CecMsg) : Bool :=
  if msg.msg 1 = CEC_MSG_TIMER_STATUS then
    if msg.msg 2 &&& 0x10 ≠ 0 then
      if msg.msg 2 &&& 0xf = CEC_OP_PROG_INFO_NOT_ENOUGH_SPACE ∨
          msg.msg 2 &&& 0xf = CEC_OP_PROG_INFO_MIGHT_NOT_BE_ENOUGH_SPACE then
        5 ≤ msg.len
      else true
    else if msg.msg 2 &&& 0xf = CEC_OP_PROG_ERROR_DUPLICATE then 5 ≤ msg.len
    else true
  else if msg.msg 1 = CEC_MSG_RECORD_ON then
    if msg.msg 2 = CEC_OP_RECORD_SRC_OWN then true
    else if msg.msg 2 = CEC_OP_RECORD_SRC_DIGITAL then 10 ≤ msg.len
    else if msg.msg 2 = CEC_OP_RECORD_SRC_ANALOG then 7 ≤ msg.len
    else if msg.msg 2 = CEC_OP_RECORD_SRC_EXT_PLUG then 4 ≤ msg.len
    else if msg.msg 2 = CEC_OP_RECORD_SRC_EXT_PHYS_ADDR then 5 ≤ msg.len
    else true
  else true

/-- `valid_la` at the end of the checks. -/
def validLa (adap : RxAdap) (msg : CecMsg) : Bool :=
  let forUs := msg.isBroadcast || cecHasLogAddr adap.logAddrMask msg.destination
  if forUs ∧ 1 < msg.len ∧ cecMsgSize (msg.msg 1) ≠ 0 then
    if sizeAndModeOk adap.cecVersion msg ∧ cecMsgSize (msg.msg 1) &&& 0x1f ≠ 0 then specialLengthOk msg
    else sizeAndModeOk adap.cecVersion msg
  else forUs

def isArcReport (cmd : UInt8) : Bool :=
  cmd == CEC_MSG_REPORT_ARC_INITIATED || cmd == CEC_MSG_REPORT_ARC_TERMINATED

/-- An Initiate ARC allows either of its two replies. -/
def allowArcReply (abort : Bool) (cmd : UInt8) (dst : CecMsg) : CecMsg :=
  if abort = false ∧ dst.msg 1 = CEC_MSG_INITIATE_ARC ∧ isArcReport cmd ∧ isArcReport dst.reply then
    { dst with reply := cmd }
  else dst

/-- Do the command and the addressing match? -/
def matchesReply (abort : Bool) (cmd msgInit : UInt8) (dst : CecMsg) : Bool :=
  (if abort then cmd == dst.msg 1 else cmd == dst.reply) && (msgInit == dst.destination || dst.isBroadcast)

/-- The transmit gets its reply. -/
def gotReply (abort : Bool) (msg dst : CecMsg) : CecMsg :=
  { dst with
    msg := fun i => if i < msg.len then msg.msg i else dst.msg i
    len := msg.len
    rxTs := msg.rxTs
    rxStatus := if abort then msg.rxStatus ||| CEC_RX_STATUS_FEATURE_ABORT else msg.rxStatus }

/-- The walk over the wait queue: the queue left, and the transmit that got its reply with the flags it had
been sent with. -/
def walkWaitQueue (abort : Bool) (cmd : UInt8) (msg : CecMsg) :
    List WaitingData → List WaitingData × Option (WaitingData × UInt32)
  | [] => ([], none)
  | data :: rest =>
    let dst := allowArcReply abort cmd data.msg
    if matchesReply abort cmd msg.initiator dst then
      (rest, some ({ data with msg := gotReply abort msg dst }, dst.flags))
    else
      ({ data with msg := dst } :: (walkWaitQueue abort cmd msg rest).1, (walkWaitQueue abort cmd msg rest).2)

/-- The walk of a message, which looks for the aborted command where the message is a Feature Abort. -/
def walkFor (msg : CecMsg) (queue : List WaitingData) : List WaitingData × Option (WaitingData × UInt32) :=
  if msg.msg 1 = CEC_MSG_FEATURE_ABORT then walkWaitQueue true (msg.msg 2) msg queue
  else walkWaitQueue false (msg.msg 1) msg queue

/-- The section under the lock, for a message whose checks came out as `valid`. -/
def matchWaiting (adap : RxAdap) (msg : CecMsg) (valid : Bool) :
    List WaitingData × Option (WaitingData × UInt32) :=
  if valid ∧ 1 < msg.len ∧ msg.msg 1 ≠ CEC_MSG_CDC_MESSAGE then walkFor msg adap.waitQueue
  else (adap.waitQueue, none)

/-- `cec_received_msg_ts`. -/
def cecReceivedMsgTs (adap : RxAdap) (msg : CecMsg) (ts : ℕ) : Received :=
  if msg.len = 0 ∨ CEC_MAX_MSG_SIZE < msg.len then ⟨adap, msg, none, none, none⟩
  else if msg.initiator ≠ CEC_LOG_ADDR_UNREGISTERED ∧ cecHasLogAddr adap.logAddrMask msg.initiator then
    ⟨adap, msg, none, none, none⟩
  else
    let cleared := clearReceived msg ts
    let valid := validLa adap cleared
    let walked := matchWaiting adap cleared valid
    let completed := walked.2.map Prod.fst
    { adap := { adap with lastInitiator := 0xff, waitQueue := walked.1 }
      msg := { cleared with flags := (walked.2.map Prod.snd).getD 0 }
      completed := completed
      monitored := some valid
      notified :=
        if valid = false ∨ msg.len ≤ 1 ∨ adap.logAddrMask = 0 then none
        else some (completed.elim false fun data => data.fh.isSome) }

/-! ## What a message may answer -/

/-- A transmit gets the reply it asked for; an Initiate ARC that asked for a report gets either report. -/
def MeetsRequest (msg dst : CecMsg) : Prop :=
  dst.reply = msg.msg 1 ∨
    dst.msg 1 = CEC_MSG_INITIATE_ARC ∧ isArcReport dst.reply = true ∧ isArcReport (msg.msg 1) = true

/-- A message answers a transmit to its initiator, or a broadcast one, that asked for it or, for a Feature
Abort, that sent the aborted opcode. -/
def Answers (msg dst : CecMsg) : Prop :=
  (dst.destination = msg.initiator ∨ dst.isBroadcast = true) ∧
    if msg.msg 1 = CEC_MSG_FEATURE_ABORT then dst.msg 1 = msg.msg 2 else MeetsRequest msg dst

/-- The opcode of a message is in the table. -/
def Listed (msg : CecMsg) : Prop :=
  cecMsgSize (msg.msg 1) ≠ 0

def NotForUs (adap : RxAdap) (msg : CecMsg) : Prop :=
  msg.isBroadcast = false ∧ cecHasLogAddr adap.logAddrMask msg.destination = false

/-- The special length requirements, as a length. -/
def specialLength (msg : CecMsg) : ℕ :=
  if msg.msg 1 = CEC_MSG_TIMER_STATUS then
    if msg.msg 2 &&& 0x10 ≠ 0 ∧
        (msg.msg 2 &&& 0xf = CEC_OP_PROG_INFO_NOT_ENOUGH_SPACE ∨
          msg.msg 2 &&& 0xf = CEC_OP_PROG_INFO_MIGHT_NOT_BE_ENOUGH_SPACE) ∨
      msg.msg 2 &&& 0x10 = 0 ∧ msg.msg 2 &&& 0xf = CEC_OP_PROG_ERROR_DUPLICATE then 5
    else 0
  else if msg.msg 1 = CEC_MSG_RECORD_ON then
    if msg.msg 2 = CEC_OP_RECORD_SRC_DIGITAL then 10
    else if msg.msg 2 = CEC_OP_RECORD_SRC_ANALOG then 7
    else if msg.msg 2 = CEC_OP_RECORD_SRC_EXT_PLUG then 4
    else if msg.msg 2 = CEC_OP_RECORD_SRC_EXT_PHYS_ADDR then 5
    else 0
  else 0

def TooShort (msg : CecMsg) : Prop :=
  Listed msg ∧ (msg.len < (cecMsgSize (msg.msg 1) &&& 0x1f).toNat ∨ msg.len < specialLength msg)

/-- The addressing mode is none that the table allows for the version. -/
def WrongMode (cecVersion : UInt8) (msg : CecMsg) : Prop :=
  Listed msg ∧
    (msg.isBroadcast = false ∧ cecMsgSize (msg.msg 1) &&& DIRECTED = 0 ∨
      msg.isBroadcast = true ∧ cecVersion < CEC_OP_CEC_VERSION_2_0 ∧
        cecMsgSize (msg.msg 1) &&& BCAST1_4 = 0 ∨
      msg.isBroadcast = true ∧ CEC_OP_CEC_VERSION_2_0 ≤ cecVersion ∧
        cecMsgSize (msg.msg 1) &&& BCAST2_0 = 0)

/-- A broadcast that only version 2.0 allows. -/
def OnlyNewBroadcast (cecVersion : UInt8) (msg : CecMsg) : Prop :=
  Listed msg ∧ msg.isBroadcast = true ∧ CEC_OP_CEC_VERSION_2_0 ≤ cecVersion ∧
    cecMsgSize (msg.msg 1) &&& BCAST2_0 ≠ 0 ∧ cecMsgSize (msg.msg 1) &&& BCAST1_4 = 0

/-- A message that the adapter takes for the echo of one of its own. -/
def OwnEcho (adap : RxAdap) (msg : CecMsg) : Prop :=
  msg.initiator ≠ CEC_LOG_ADDR_UNREGISTERED ∧ cecHasLogAddr adap.logAddrMask msg.initiator = true

/-- Polls, CDC messages, and messages that are not for us, too short or wrongly addressed. -/
def Ignored (adap : RxAdap) (msg : CecMsg) : Prop :=
  msg.len ≤ 1 ∨ msg.msg 1 = CEC_MSG_CDC_MESSAGE ∨ NotForUs adap msg ∨ TooShort msg ∨
    WrongMode adap.cecVersion msg

/-- `d` is the first transmit of the queue that `msg` answers. -/
def FirstAnswered (msg : CecMsg) (queue before : List WaitingData) (d : WaitingData)
    (after : List WaitingData) : Prop :=
  queue = before ++ d :: after ∧ Answers msg d.msg ∧ ∀ e ∈ before, ¬ Answers msg e.msg

/-- The transmit waits on: at most the reply that it asks for has been rewritten. -/
def WaitsOn (e e' : WaitingData) : Prop :=
  e'.ptr = e.ptr ∧ e'.fh = e.fh ∧ e'.msg = { e.msg with reply := e'.msg.reply }

/-- The completed transmit holds the bytes received, and all else that it had. -/
def HoldsReply (msg : CecMsg) (d data : WaitingData) : Prop :=
  data.ptr = d.ptr ∧ data.fh = d.fh ∧ data.msg.len = msg.len ∧
    (∀ i : Fin CEC_MAX_MSG_SIZE, i < msg.len → data.msg.msg i = msg.msg i) ∧ data.msg.flags = d.msg.flags ∧
    data.msg.txStatus = d.msg.txStatus ∧
    data.msg.rxStatus = if msg.msg 1 = CEC_MSG_FEATURE_ABORT then
      CEC_RX_STATUS_OK ||| CEC_RX_STATUS_FEATURE_ABORT else CEC_RX_STATUS_OK

/-! ## The walk -/

/-- The transmit as the walk leaves it when it goes on. -/
def allowed (abort : Bool) (cmd : UInt8) (data : WaitingData) : WaitingData :=
  { data with msg := allowArcReply abort cmd data.msg }

/-- **A walk** takes the first match out of the queue, or none when there is none. -/
theorem walkWaitQueue_cases (abort : Bool) (cmd : UInt8) (msg : CecMsg) (queue : List WaitingData) :
    (walkWaitQueue abort cmd msg queue = (queue.map (allowed abort cmd), none) ∧
      ∀ e ∈ queue, matchesReply abort cmd msg.initiator (allowArcReply abort cmd e.msg) = false) ∨
    ∃ before d after, queue = before ++ d :: after ∧
      (∀ e ∈ before, matchesReply abort cmd msg.initiator (allowArcReply abort cmd e.msg) = false) ∧
      matchesReply abort cmd msg.initiator (allowArcReply abort cmd d.msg) = true ∧
      walkWaitQueue abort cmd msg queue =
        (before.map (allowed abort cmd) ++ after,
          some ({ d with msg := gotReply abort msg (allowArcReply abort cmd d.msg) },
            (allowArcReply abort cmd d.msg).flags)) := by
  induction queue with
  | nil => exact Or.inl ⟨rfl, fun e he => absurd he List.not_mem_nil⟩
  | cons data rest ih =>
    rcases hm : matchesReply abort cmd msg.initiator (allowArcReply abort cmd data.msg) with _ | _
    · have hwalk : walkWaitQueue abort cmd msg (data :: rest) =
          (allowed abort cmd data :: (walkWaitQueue abort cmd msg rest).1,
            (walkWaitQueue abort cmd msg rest).2) := by
        rw [walkWaitQueue]
        exact if_neg (by rw [hm]; exact Bool.false_ne_true)
      rcases ih with ⟨hw, hnone⟩ | ⟨before, d, after, hq, hbefore, hd, hw⟩
      · left
        refine ⟨by rw [hwalk, hw, List.map_cons], fun e he => ?_⟩
        rcases List.mem_cons.mp he with rfl | he
        · exact hm
        · exact hnone e he
      · right
        refine ⟨data :: before, d, after, by rw [hq, List.cons_append], fun e he => ?_, hd,
          by rw [hwalk, hw, List.map_cons, List.cons_append]⟩
        rcases List.mem_cons.mp he with rfl | he
        · exact hm
        · exact hbefore e he
    · right
      refine ⟨[], data, rest, rfl, fun e he => absurd he List.not_mem_nil, hm, ?_⟩
      rw [walkWaitQueue]
      exact if_pos hm

theorem allowArcReply_msg (abort : Bool) (cmd : UInt8) (dst : CecMsg) :
    (allowArcReply abort cmd dst).msg = dst.msg := by
  unfold allowArcReply
  split <;> rfl

/-- A command matches, after the rewriting, where the transmit's request is met. -/
theorem matchesReply_command (msg dst : CecMsg) (msgInit : UInt8) :
    matchesReply false (msg.msg 1) msgInit (allowArcReply false (msg.msg 1) dst) = true ↔
      (dst.destination = msgInit ∨ dst.isBroadcast = true) ∧ MeetsRequest msg dst := by
  have hdest : (allowArcReply false (msg.msg 1) dst).destination = dst.destination := by
    unfold CecMsg.destination
    rw [allowArcReply_msg]
  have hbcast : (allowArcReply false (msg.msg 1) dst).isBroadcast = dst.isBroadcast := by
    unfold CecMsg.isBroadcast
    rw [allowArcReply_msg]
  have hreply : msg.msg 1 = (allowArcReply false (msg.msg 1) dst).reply ↔ MeetsRequest msg dst := by
    unfold allowArcReply MeetsRequest
    split
    · next h => exact ⟨fun _ => Or.inr ⟨h.2.1, h.2.2.2, h.2.2.1⟩, fun _ => rfl⟩
    · next h =>
      refine ⟨fun h' => Or.inl h'.symm, fun h' => ?_⟩
      rcases h' with h' | ⟨h₁, h₂, h₃⟩
      · exact h'.symm
      · exact absurd ⟨rfl, h₁, h₃, h₂⟩ h
  unfold matchesReply
  rw [hdest, hbcast, Bool.and_eq_true, Bool.or_eq_true, beq_iff_eq, if_neg Bool.false_ne_true, beq_iff_eq,
    hreply, and_comm, eq_comm]

/-- A Feature Abort matches the transmits of the aborted opcode. -/
theorem matchesReply_abort (aborted msgInit : UInt8) (dst : CecMsg) :
    matchesReply true aborted msgInit (allowArcReply true aborted dst) = true ↔
      (dst.destination = msgInit ∨ dst.isBroadcast = true) ∧ dst.msg 1 = aborted := by
  have hallow : allowArcReply true aborted dst = dst := if_neg fun h => Bool.true_eq_false.mp h.1
  unfold matchesReply
  rw [hallow, Bool.and_eq_true, Bool.or_eq_true, beq_iff_eq, if_pos rfl, beq_iff_eq, and_comm, eq_comm,
    @eq_comm _ aborted]

theorem allowArcReply_waits (abort : Bool) (cmd : UInt8) (dst : CecMsg) :
    allowArcReply abort cmd dst = { dst with reply := (allowArcReply abort cmd dst).reply } := by
  unfold allowArcReply
  split <;> rfl

/-- A walk leaves the transmits in front as they were, but for their replies. -/
theorem forall₂_allowed (abort : Bool) (cmd : UInt8) (before after : List WaitingData) :
    List.Forall₂ WaitsOn (before ++ after) (before.map (allowed abort cmd) ++ after) := by
  induction before with
  | nil => exact List.forall₂_same.mpr fun e _ => ⟨rfl, rfl, rfl⟩
  | cons e before ih => exact List.Forall₂.cons ⟨rfl, rfl, allowArcReply_waits abort cmd e.msg⟩ ih

/-- The transmit that got its reply holds what was received. -/
theorem holdsReply_gotReply {msg : CecMsg} (ts : ℕ) (d : WaitingData) (abort : Bool) (cmd : UInt8)
    (habort : abort = true ↔ msg.msg 1 = CEC_MSG_FEATURE_ABORT) :
    HoldsReply msg d { d with msg := gotReply abort (clearReceived msg ts) (allowArcReply abort cmd d.msg) } := by
  refine ⟨rfl, rfl, rfl, fun i hi => ?_, ?_, ?_, ?_⟩
  · exact (if_pos hi).trans (if_pos hi)
  · change (allowArcReply abort cmd d.msg).flags = d.msg.flags
    rw [allowArcReply_waits]
  · change (allowArcReply abort cmd d.msg).txStatus = d.msg.txStatus
    rw [allowArcReply_waits]
  · exact if_congr habort rfl rfl

/-- The walk of a message takes the first transmit that it answers. -/
theorem walkFor_cases (msg : CecMsg) (queue : List WaitingData) :
    ((walkFor msg queue).2 = none ∧ List.Forall₂ WaitsOn queue (walkFor msg queue).1 ∧
      ∀ e ∈ queue, ¬ Answers msg e.msg) ∨
    ∃ before d after abort cmd, FirstAnswered msg queue before d after ∧
      (abort = true ↔ msg.msg 1 = CEC_MSG_FEATURE_ABORT) ∧
      walkFor msg queue = (before.map (allowed abort cmd) ++ after,
        some ({ d with msg := gotReply abort msg (allowArcReply abort cmd d.msg) },
          (allowArcReply abort cmd d.msg).flags)) := by
  obtain ⟨abort, cmd, habort, hwalk, hmatch⟩ : ∃ abort cmd,
      (abort = true ↔ msg.msg 1 = CEC_MSG_FEATURE_ABORT) ∧
      walkFor msg queue = walkWaitQueue abort cmd msg queue ∧
      ∀ dst, matchesReply abort cmd msg.initiator (allowArcReply abort cmd dst) = true ↔ Answers msg dst := by
    by_cases hop : msg.msg 1 = CEC_MSG_FEATURE_ABORT
    · refine ⟨true, msg.msg 2, ⟨fun _ => hop, fun _ => rfl⟩, if_pos hop, fun dst => ?_⟩
      unfold Answers
      rw [matchesReply_abort, if_pos hop]
    · refine ⟨false, msg.msg 1, ⟨fun h => absurd h Bool.false_ne_true, fun h => absurd h hop⟩, if_neg hop,
        fun dst => ?_⟩
      unfold Answers
      rw [matchesReply_command, if_neg hop]
  rw [hwalk]
  rcases walkWaitQueue_cases abort cmd msg queue with ⟨hw, hnone⟩ | ⟨before, d, after, hq, hbefore, hd, hw⟩
  · left
    refine ⟨by rw [hw], ?_, fun e he hans => ?_⟩
    · rw [hw]
      simpa using forall₂_allowed abort cmd queue []
    · exact Bool.true_eq_false.mp ((hmatch e.msg).mpr hans ▸ hnone e he)
  · right
    refine ⟨before, d, after, abort, cmd, ⟨hq, (hmatch d.msg).mp hd, fun e he hans => ?_⟩, habort, hw⟩
    exact Bool.true_eq_false.mp ((hmatch e.msg).mpr hans ▸ hbefore e he)

/-! ## The checks -/

/-- The flags of an entry are those of its addressing modes. -/
theorem and_both (size : UInt8) : size &&& BOTH &&& DIRECTED = size &&& DIRECTED ∧
    size &&& BOTH &&& BCAST1_4 = size &&& BCAST1_4 ∧ size &&& BOTH &&& BCAST2_0 = size &&& BCAST2_0 := by
  refine ⟨?_, ?_, ?_⟩ <;> rw [UInt8.and_assoc] <;> rfl

/-- The special length requirements say that the message has the special length. -/
theorem specialLengthOk_iff (msg : CecMsg) : specialLengthOk msg = true ↔ specialLength msg ≤ msg.len := by
  unfold specialLengthOk specialLength
  by_cases h₁ : msg.msg 1 = CEC_MSG_TIMER_STATUS
  · rw [if_pos h₁, if_pos h₁]
    by_cases h₂ : msg.msg 2 &&& 0x10 = 0
    · by_cases h₃ : msg.msg 2 &&& 0xf = CEC_OP_PROG_ERROR_DUPLICATE <;> simp [h₂, h₃]
    · by_cases h₃ : msg.msg 2 &&& 0xf = CEC_OP_PROG_INFO_NOT_ENOUGH_SPACE ∨
          msg.msg 2 &&& 0xf = CEC_OP_PROG_INFO_MIGHT_NOT_BE_ENOUGH_SPACE <;> simp [h₂, h₃]
  · rw [if_neg h₁, if_neg h₁]
    by_cases h₂ : msg.msg 1 = CEC_MSG_RECORD_ON
    · rw [if_pos h₂, if_pos h₂]
      by_cases h₃ : msg.msg 2 = CEC_OP_RECORD_SRC_OWN
      · rw [if_pos h₃, h₃]
        exact ⟨fun _ => Nat.zero_le _, fun _ => rfl⟩
      · rw [if_neg h₃]
        repeat' split
        all_goals simp
    · rw [if_neg h₂, if_neg h₂]
      exact ⟨fun _ => Nat.zero_le _, fun _ => rfl⟩

/-- The length and the addressing are right where the message is long enough for the table, in a mode that
the table allows for the version, and no broadcast of version 2.0 only. -/
theorem sizeAndModeOk_iff (cecVersion : UInt8) (msg : CecMsg) (hl : Listed msg) :
    sizeAndModeOk cecVersion msg = true ↔
      (cecMsgSize (msg.msg 1) &&& 0x1f).toNat ≤ msg.len ∧ ¬ WrongMode cecVersion msg ∧
        ¬ OnlyNewBroadcast cecVersion msg := by
  have hnew := cecMsgSize_broadcast (msg.msg 1)
  obtain ⟨hd, h14, h20⟩ := and_both (cecMsgSize (msg.msg 1))
  unfold sizeAndModeOk WrongMode OnlyNewBroadcast
  dsimp only
  rw [hd, h14, h20]
  have hlt : cecVersion < CEC_OP_CEC_VERSION_2_0 ↔ ¬ CEC_OP_CEC_VERSION_2_0 ≤ cecVersion :=
    UInt8.not_le.symm
  rw [hlt]
  generalize hb : msg.isBroadcast = b
  generalize hL : (cecMsgSize (msg.msg 1) &&& 0x1f).toNat = n
  by_cases h₁ : msg.len < n
  · rw [if_pos h₁]
    exact ⟨fun h => absurd h Bool.false_ne_true, fun h => absurd h.1 (Nat.not_le.mpr h₁)⟩
  · by_cases hv : CEC_OP_CEC_VERSION_2_0 ≤ cecVersion <;>
      by_cases hx : cecMsgSize (msg.msg 1) &&& BCAST1_4 = 0 <;>
      by_cases hy : cecMsgSize (msg.msg 1) &&& BCAST2_0 = 0 <;>
      by_cases hz : cecMsgSize (msg.msg 1) &&& DIRECTED = 0 <;>
      rcases b with _ | _ <;> simp_all

/-- A message with an opcode is valid where it is for us, long enough, rightly addressed, and no broadcast of
version 2.0 only. -/
theorem validLa_iff (adap : RxAdap) (msg : CecMsg) (hlen : 1 < msg.len) :
    validLa adap msg = true ↔
      ¬ NotForUs adap msg ∧ ¬ TooShort msg ∧ ¬ WrongMode adap.cecVersion msg ∧
        ¬ OnlyNewBroadcast adap.cecVersion msg := by
  have hfor : (msg.isBroadcast || cecHasLogAddr adap.logAddrMask msg.destination) = true ↔ ¬ NotForUs adap msg := by
    unfold NotForUs
    rw [Bool.or_eq_true, not_and_or, Bool.not_eq_false, Bool.not_eq_false]
  unfold validLa
  dsimp only
  by_cases hus : NotForUs adap msg
  · have hno := mt hfor.mp (not_not.mpr hus)
    rw [if_neg fun h => hno h.1]
    exact ⟨fun h => absurd h hno, fun h => absurd hus h.1⟩
  · have hyes := hfor.mpr hus
    by_cases hl : Listed msg
    · rw [if_pos ⟨hyes, hlen, hl⟩]
      have hmin := cecMsgSize_minLen _ hl
      have hok := sizeAndModeOk_iff adap.cecVersion msg hl
      have hshort : TooShort msg ↔ ¬ ((cecMsgSize (msg.msg 1) &&& 0x1f).toNat ≤ msg.len ∧
          specialLength msg ≤ msg.len) := by
        unfold TooShort
        rw [and_iff_right hl]
        omega
      rw [hshort, not_not, ← specialLengthOk_iff]
      by_cases hs : sizeAndModeOk adap.cecVersion msg = true
      · rw [if_pos ⟨hs, hmin⟩]
        have h := hok.mp hs
        exact ⟨fun h' => ⟨hus, ⟨h.1, h'⟩, h.2.1, h.2.2⟩, fun h' => h'.2.1.2⟩
      · rw [if_neg fun h => hs h.1]
        exact ⟨fun h => absurd h hs, fun h => absurd (hok.mpr ⟨h.2.1.1, h.2.2.1, h.2.2.2⟩) hs⟩
    · rw [if_neg fun h => hl h.2.2]
      exact ⟨fun _ => ⟨hus, fun h => hl h.1, fun h => hl h.1, fun h => hl h.1⟩, fun _ => hyes⟩

/-! ## The cleared message -/

theorem clearReceived_msg {msg : CecMsg} (ts : ℕ) {i : Fin CEC_MAX_MSG_SIZE} (h : i < msg.len) :
    (clearReceived msg ts).msg i = msg.msg i :=
  if_pos h

theorem clearReceived_header {msg : CecMsg} (ts : ℕ) (hlen : 1 < msg.len) :
    (clearReceived msg ts).msg 0 = msg.msg 0 :=
  clearReceived_msg ts (Nat.lt_of_le_of_lt (Nat.zero_le 1) hlen)

theorem clearReceived_opcode {msg : CecMsg} (ts : ℕ) (hlen : 1 < msg.len) :
    (clearReceived msg ts).msg 1 = msg.msg 1 :=
  clearReceived_msg ts hlen

theorem clearReceived_initiator {msg : CecMsg} (ts : ℕ) (hlen : 1 < msg.len) :
    (clearReceived msg ts).initiator = msg.initiator := by
  unfold CecMsg.initiator
  rw [clearReceived_header ts hlen]

theorem clearReceived_isBroadcast {msg : CecMsg} (ts : ℕ) (hlen : 1 < msg.len) :
    (clearReceived msg ts).isBroadcast = msg.isBroadcast := by
  unfold CecMsg.isBroadcast
  rw [clearReceived_header ts hlen]

theorem notForUs_clearReceived {msg : CecMsg} (ts : ℕ) (hlen : 1 < msg.len) (adap : RxAdap) :
    NotForUs adap (clearReceived msg ts) ↔ NotForUs adap msg := by
  unfold NotForUs CecMsg.destination
  rw [clearReceived_isBroadcast ts hlen, clearReceived_header ts hlen]

theorem wrongMode_clearReceived {msg : CecMsg} (ts : ℕ) (hlen : 1 < msg.len) (cecVersion : UInt8) :
    WrongMode cecVersion (clearReceived msg ts) ↔ WrongMode cecVersion msg := by
  unfold WrongMode Listed
  rw [clearReceived_isBroadcast ts hlen, clearReceived_opcode ts hlen]

theorem onlyNewBroadcast_clearReceived {msg : CecMsg} (ts : ℕ) (hlen : 1 < msg.len)
    (cecVersion : UInt8) :
    OnlyNewBroadcast cecVersion (clearReceived msg ts) ↔ OnlyNewBroadcast cecVersion msg := by
  unfold OnlyNewBroadcast Listed
  rw [clearReceived_isBroadcast ts hlen, clearReceived_opcode ts hlen]

/-- The byte after the opcode is only looked at in messages that the table says are longer. -/
theorem tooShort_clearReceived {msg : CecMsg} (ts : ℕ) (hlen : 1 < msg.len) :
    TooShort (clearReceived msg ts) ↔ TooShort msg := by
  have hop := clearReceived_opcode ts hlen
  have hcl : (clearReceived msg ts).len = msg.len := rfl
  unfold TooShort Listed
  rw [hop, hcl]
  by_cases htwo : 2 < msg.len
  · have hspec : specialLength (clearReceived msg ts) = specialLength msg := by
      unfold specialLength
      rw [hop, clearReceived_msg ts (show ((2 : Fin CEC_MAX_MSG_SIZE) : ℕ) < msg.len from htwo)]
    rw [hspec]
  · by_cases hspecial : msg.msg 1 = CEC_MSG_TIMER_STATUS ∨ msg.msg 1 = CEC_MSG_RECORD_ON
    · have hthree : (cecMsgSize (msg.msg 1) &&& 0x1f).toNat = 3 := by
        rcases hspecial with h | h <;> rw [h] <;> decide
      have hshort : msg.len < (cecMsgSize (msg.msg 1) &&& 0x1f).toNat := by omega
      exact and_congr_right fun _ => ⟨fun _ => Or.inl hshort, fun _ => Or.inl hshort⟩
    · have hnone : ∀ m : CecMsg, m.msg 1 = msg.msg 1 → specialLength m = 0 := by
        intro m hm
        unfold specialLength
        rw [hm, if_neg fun h => hspecial (Or.inl h), if_neg fun h => hspecial (Or.inr h)]
      rw [hnone _ hop, hnone _ rfl]

/-- A message that is not too short answers the same transmits when it is cleared. -/
theorem answers_clearReceived {msg : CecMsg} (ts : ℕ) (hlen : 1 < msg.len) (hshort : ¬ TooShort msg)
    (dst : CecMsg) :
    Answers (clearReceived msg ts) dst ↔ Answers msg dst := by
  unfold Answers MeetsRequest
  rw [clearReceived_opcode ts hlen, clearReceived_initiator ts hlen]
  by_cases habort : msg.msg 1 = CEC_MSG_FEATURE_ABORT
  · have hfour : (cecMsgSize (msg.msg 1) &&& 0x1f).toNat = 4 := by rw [habort]; decide
    have hlisted : Listed msg := by unfold Listed; rw [habort]; decide
    have htwo : 2 < msg.len := Nat.lt_of_not_le fun hle => hshort ⟨hlisted, Or.inl (by omega)⟩
    rw [clearReceived_msg ts (show ((2 : Fin CEC_MAX_MSG_SIZE) : ℕ) < msg.len from htwo)]
  · rw [if_neg habort, if_neg habort]

/-! ## Completion -/

/-- The message is not even looked at: it has no valid length, or comes from one of our own addresses. -/
theorem cecReceivedMsgTs_dropped {adap : RxAdap} {msg : CecMsg} (ts : ℕ)
    (h : msg.len = 0 ∨ CEC_MAX_MSG_SIZE < msg.len ∨ OwnEcho adap msg) :
    cecReceivedMsgTs adap msg ts = ⟨adap, msg, none, none, none⟩ := by
  unfold cecReceivedMsgTs
  rcases h with h | h | h
  · exact if_pos (Or.inl h)
  · exact if_pos (Or.inr h)
  · split
    · rfl
    · exact if_pos h

/-- Any other message is checked, and compared with the wait queue. -/
theorem cecReceivedMsgTs_checked {adap : RxAdap} {msg : CecMsg} (ts : ℕ)
    (h : ¬ (msg.len = 0 ∨ CEC_MAX_MSG_SIZE < msg.len ∨ OwnEcho adap msg)) :
    let walked := matchWaiting adap (clearReceived msg ts) (validLa adap (clearReceived msg ts))
    (cecReceivedMsgTs adap msg ts).completed = walked.2.map Prod.fst ∧
      (cecReceivedMsgTs adap msg ts).adap.waitQueue = walked.1 := by
  push Not at h
  obtain ⟨hzero, hmax, hown⟩ := h
  have hsize : ¬ (msg.len = 0 ∨ CEC_MAX_MSG_SIZE < msg.len) := by omega
  have hecho : ¬ (msg.initiator ≠ CEC_LOG_ADDR_UNREGISTERED ∧ cecHasLogAddr adap.logAddrMask msg.initiator = true) := hown
  unfold cecReceivedMsgTs
  rw [if_neg hsize, if_neg hecho]
  exact ⟨rfl, rfl⟩

/-- The cleared message is valid where the message is. -/
theorem validLa_clearReceived {adap : RxAdap} {msg : CecMsg} (ts : ℕ) (hlen : 1 < msg.len) :
    validLa adap (clearReceived msg ts) = true ↔
      ¬ NotForUs adap msg ∧ ¬ TooShort msg ∧ ¬ WrongMode adap.cecVersion msg ∧
        ¬ OnlyNewBroadcast adap.cecVersion msg := by
  rw [validLa_iff adap (clearReceived msg ts) hlen, notForUs_clearReceived ts hlen,
    tooShort_clearReceived ts hlen,
    wrongMode_clearReceived ts hlen, onlyNewBroadcast_clearReceived ts hlen]

/-- The walk is made for a message that is not ignored. -/
theorem matchWaiting_walked {adap : RxAdap} {msg : CecMsg} (ts : ℕ) (hign : ¬ Ignored adap msg)
    (hnew : ¬ OnlyNewBroadcast adap.cecVersion msg) :
    matchWaiting adap (clearReceived msg ts) (validLa adap (clearReceived msg ts)) =
      walkFor (clearReceived msg ts) adap.waitQueue := by
  unfold Ignored at hign
  push Not at hign
  obtain ⟨hpoll, hcdc, hus, hshort, hmode⟩ := hign
  have hlen : 1 < msg.len := by omega
  exact if_pos ⟨(validLa_clearReceived ts hlen).mpr ⟨hus, hshort, hmode, hnew⟩, hlen,
    (clearReceived_opcode ts hlen).symm ▸ hcdc⟩

/-- No walk is made for a message that is ignored. -/
theorem matchWaiting_ignored {adap : RxAdap} {msg : CecMsg} (ts : ℕ)
    (h : Ignored adap msg ∨ OnlyNewBroadcast adap.cecVersion msg) :
    matchWaiting adap (clearReceived msg ts) (validLa adap (clearReceived msg ts)) = (adap.waitQueue, none) := by
  refine if_neg fun hm => ?_
  obtain ⟨hvalid, hlen, hcdc⟩ := hm
  have hlen' : 1 < msg.len := hlen
  rw [clearReceived_opcode ts hlen'] at hcdc
  obtain ⟨hus, hshort, hmode, hnew⟩ := (validLa_clearReceived ts hlen').mp hvalid
  rcases h with (h | h | h | h | h) | h
  · omega
  · exact hcdc h
  · exact hus h
  · exact hshort h
  · exact hmode h
  · exact hnew h

/-- The messages that complete no transmit. -/
def CompletesNone (adap : RxAdap) (msg : CecMsg) : Prop :=
  Ignored adap msg ∨ (∀ e ∈ adap.waitQueue, ¬ Answers msg e.msg) ∨ CEC_MAX_MSG_SIZE < msg.len ∨
    OwnEcho adap msg ∨ OnlyNewBroadcast adap.cecVersion msg

/-- What a received message does to the wait queue. -/
theorem cecReceivedMsgTs_cases (adap : RxAdap) (msg : CecMsg) (ts : ℕ) :
    (CompletesNone adap msg ∧ (cecReceivedMsgTs adap msg ts).completed = none ∧
      List.Forall₂ WaitsOn adap.waitQueue (cecReceivedMsgTs adap msg ts).adap.waitQueue) ∨
    ∃ before d after data, ¬ CompletesNone adap msg ∧ FirstAnswered msg adap.waitQueue before d after ∧
      (cecReceivedMsgTs adap msg ts).completed = some data ∧ HoldsReply msg d data ∧
      List.Forall₂ WaitsOn (before ++ after) (cecReceivedMsgTs adap msg ts).adap.waitQueue := by
  have hsame : List.Forall₂ WaitsOn adap.waitQueue adap.waitQueue :=
    List.forall₂_same.mpr fun e _ => ⟨rfl, rfl, rfl⟩
  by_cases hdrop : msg.len = 0 ∨ CEC_MAX_MSG_SIZE < msg.len ∨ OwnEcho adap msg
  · left
    rw [cecReceivedMsgTs_dropped ts hdrop]
    refine ⟨?_, rfl, hsame⟩
    rcases hdrop with h | h | h
    · exact Or.inl (Or.inl (by omega))
    · exact Or.inr (Or.inr (Or.inl h))
    · exact Or.inr (Or.inr (Or.inr (Or.inl h)))
  obtain ⟨hdone, hqueue⟩ := cecReceivedMsgTs_checked ts hdrop
  by_cases hinv : Ignored adap msg ∨ OnlyNewBroadcast adap.cecVersion msg
  · left
    rw [matchWaiting_ignored ts hinv] at hdone hqueue
    rw [hdone, hqueue]
    refine ⟨?_, rfl, hsame⟩
    rcases hinv with h | h
    · exact Or.inl h
    · exact Or.inr (Or.inr (Or.inr (Or.inr h)))
  push Not at hdrop hinv
  obtain ⟨hzero, hmax, hown⟩ := hdrop
  obtain ⟨hign, hnew⟩ := hinv
  have hlen : 1 < msg.len := Nat.lt_of_not_le fun hle => hign (Or.inl hle)
  have hans := answers_clearReceived ts hlen fun h => hign (Or.inr (Or.inr (Or.inr (Or.inl h))))
  rw [matchWaiting_walked ts hign hnew] at hdone hqueue
  rw [hdone, hqueue]
  rcases walkFor_cases (clearReceived msg ts) adap.waitQueue with
    ⟨hw, hqueue', hnone⟩ | ⟨before, d, after, abort, cmd, ⟨hq, hd, hbefore⟩, habort, hw⟩
  · left
    rw [hw]
    exact ⟨Or.inr (Or.inl fun e he h => hnone e he ((hans e.msg).mpr h)), rfl, hqueue'⟩
  · right
    rw [hw]
    rw [clearReceived_opcode ts hlen] at habort
    refine ⟨before, d, after, _, fun h => ?_,
      ⟨hq, (hans d.msg).mp hd, fun e he h => hbefore e he ((hans e.msg).mpr h)⟩, rfl,
      holdsReply_gotReply ts d abort cmd habort, forall₂_allowed abort cmd before after⟩
    rcases h with h | h | h | h | h
    · exact hign h
    · exact h d (by rw [hq]; simp) ((hans d.msg).mp hd)
    · omega
    · exact hown h
    · exact hnew h

/-- **A received message** completes the first transmit of the wait queue that it answers, which then holds
its bytes and its length, and leaves the others waiting.  It completes none when it answers none, and when it
is a poll, a CDC message, not for us, too short or wrongly addressed; nor when its length is no length of a
message, when it looks like an echo, or when it is a broadcast that came with version 2.0. -/
theorem cecReceivedMsgTs_completes (adap : RxAdap) (msg : CecMsg) (ts : ℕ) :
    ((cecReceivedMsgTs adap msg ts).completed = none ↔
      Ignored adap msg ∨ (∀ e ∈ adap.waitQueue, ¬ Answers msg e.msg) ∨
        CEC_MAX_MSG_SIZE < msg.len ∨ OwnEcho adap msg ∨ OnlyNewBroadcast adap.cecVersion msg) ∧
    ((cecReceivedMsgTs adap msg ts).completed = none →
      List.Forall₂ WaitsOn adap.waitQueue (cecReceivedMsgTs adap msg ts).adap.waitQueue) ∧
    ∀ data, (cecReceivedMsgTs adap msg ts).completed = some data →
      ∃ before d after, FirstAnswered msg adap.waitQueue before d after ∧ HoldsReply msg d data ∧
        List.Forall₂ WaitsOn (before ++ after) (cecReceivedMsgTs adap msg ts).adap.waitQueue := by
  rcases cecReceivedMsgTs_cases adap msg ts with
    ⟨hnone, hdone, hqueue⟩ | ⟨before, d, after, data, hsome, hfirst, hdone, hholds, hqueue⟩
  · rw [hdone]
    exact ⟨⟨fun _ => hnone, fun _ => rfl⟩, fun _ => hqueue,
      fun data h => absurd h.symm (Option.some_ne_none data)⟩
  · rw [hdone]
    refine ⟨⟨fun h => absurd h (Option.some_ne_none data), fun h => absurd h hsome⟩,
      fun h => absurd h (Option.some_ne_none data), fun data' h => ?_⟩
    obtain rfl := Option.some.inj h
    exact ⟨before, d, after, hfirst, hholds, hqueue⟩

end Cec
end TbsMedia
