import Mathlib
import TbsMedia.Cec.Mode
import TbsMedia.Cec.Received

/-!
# CEC transmits

A transmit is a `struct cec_data` that is allocated when a message is accepted.  It goes through the transmit
queue and the transmitting slot, and on to the wait queue when it waits for a reply.  Here are the sections
that run under `adap->lock`.

* `TxAdap`: the adapter, its transmits, and what was done with them.
* `cecDataCompleted`, `cecDataCancel`, `cecFlush`: the ends of a transmit.
* `cecThreadFunc`, `cecTransmitDoneTs`, `cecWaitTimeout`: the sections that move transmits along.
* `cecTransmitMsgFh`, `cecReceivedSection`: a message is accepted, a reply is received.
-/

namespace TbsMedia
namespace Cec

def ENOMEM : ℤ := 12
def ENONET : ℤ := 64

def CEC_MAX_MSG_TX_QUEUE_SZ : UInt32 := 18

def CEC_MSG_FL_REPLY_TO_FOLLOWERS : UInt32 := 0x01
def CEC_MSG_FL_RAW : UInt32 := 0x02

def CEC_LOG_ADDR_TV : UInt8 := 0

def CEC_SIGNAL_FREE_TIME_RETRY : ℕ := 3
def CEC_SIGNAL_FREE_TIME_NEW_INITIATOR : ℕ := 5
def CEC_SIGNAL_FREE_TIME_NEXT_XFER : ℕ := 7

/-! ## The adapter and its transmits -/

/-- A `struct cec_data`, but for the lists it is on.  Its delayed work is `pending` while its timer is armed,
and `running` once `cec_wait_timeout` has started and waits for the lock. -/
structure CecData where
  msg : CecMsg
  fh : Option Fh
  attempts : ℕ
  blocking : Bool
  completed : Bool
  pending : Bool
  running : Bool

/-- The configuration of the adapter. -/
structure Config where
  physAddr : UInt16
  isConfiguring : Bool
  isConfigured : Bool
  logAddrMask : UInt16
  cecVersion : UInt8
  /-- `CEC_LOG_ADDRS_FL_CDC_ONLY` is set. -/
  cdcOnly : Bool

/-- A call of `adap_transmit` that the driver accepted. -/
structure TransmitCall where
  data : DataPtr
  attempts : ℕ
  signalFreeTime : ℕ
deriving DecidableEq

/-- The adapter, as far as transmits are concerned. -/
structure TxAdap where
  transmitQueue : List DataPtr
  transmitQueueSz : UInt32
  waitQueue : List DataPtr
  transmitting : Option DataPtr
  transmitInProgress : Bool
  needsHpd : Bool
  lastInitiator : UInt8
  txTimeouts : UInt32
  sequence : UInt32
  cfg : Config
  data : DataPtr → CecData
  xferList : Fh → List DataPtr
  /-- The transmits below this one have been allocated. -/
  allocated : DataPtr
  /-- The calls of `kfree` for a transmit. -/
  freed : List DataPtr
  /-- The accepted calls of `adap_transmit`. -/
  calls : List TransmitCall
  /-- The calls of `cec_data_cancel`. -/
  cancels : List DataPtr
  /-- The calls of `cec_data_completed`. -/
  completions : List DataPtr

namespace TxAdap

/-- Change a transmit in place. -/
def modify (a : TxAdap) (d : DataPtr) (f : CecData → CecData) : TxAdap :=
  { a with data := Function.update a.data d (f (a.data d)) }

/-- `list_del_init(&data->list)`. -/
def listDelInit (a : TxAdap) (d : DataPtr) : TxAdap :=
  { a with transmitQueue := a.transmitQueue.erase d, waitQueue := a.waitQueue.erase d }

/-- `list_del(&data->xfer_list)`, for a transmit on the list of a file handle. -/
def listDelXfer (a : TxAdap) (d : DataPtr) (fh : Fh) : TxAdap :=
  { a with xferList := Function.update a.xferList fh ((a.xferList fh).erase d) }

/-- `kfree(data)`. -/
def kfree (a : TxAdap) (d : DataPtr) : TxAdap :=
  { a with freed := d :: a.freed }

end TxAdap

/-- `data->msg.tx_status & CEC_TX_STATUS_OK`. -/
def txOk (msg : CecMsg) : Bool :=
  msg.txStatus &&& CEC_TX_STATUS_OK != 0

theorem or_land (x y z : UInt8) : (x ||| y) &&& z = x &&& z ||| y &&& z := by
  rw [← UInt8.toBitVec_inj]
  simp [BitVec.and_or_distrib_right]

theorem land_or (x y z : UInt8) : z &&& (x ||| y) = z &&& x ||| z &&& y := by
  rw [UInt8.and_comm, or_land, UInt8.and_comm x, UInt8.and_comm y]

theorem txOk_eq_false {msg : CecMsg} : txOk msg = false ↔ msg.txStatus &&& CEC_TX_STATUS_OK = 0 := by
  unfold txOk
  rw [bne_eq_false_iff_eq]

theorem txOk_eq_true {msg : CecMsg} : txOk msg = true ↔ msg.txStatus &&& CEC_TX_STATUS_OK ≠ 0 := by
  unfold txOk
  rw [bne_iff_ne]

/-! ## The end of a transmit -/

/-- The transmit leaves the `xfer_list` of its file handle. -/
def unhook (a : TxAdap) (d : DataPtr) : TxAdap :=
  (a.data d).fh.elim a (a.listDelXfer d)

/-- The one who waits for the transmit is told, or the transmit is freed. -/
def wakeOrFree (a : TxAdap) (d : DataPtr) : TxAdap :=
  if (a.data d).blocking then a.modify d fun data => { data with completed := true }
  else a.kfree d

/-- `cec_data_completed`. -/
def cecDataCompleted (a : TxAdap) (d : DataPtr) : TxAdap :=
  wakeOrFree (unhook { a with completions := d :: a.completions } d) d

/-- The transmit is taken from where it is. -/
def takeBack (a : TxAdap) (d : DataPtr) : TxAdap :=
  if a.transmitting = some d then { a with transmitting := none }
  else if txOk (a.data d).msg then a.listDelInit d
  else { a.listDelInit d with transmitQueueSz := a.transmitQueueSz - 1 }

/-- The statuses of a cancelled transmit. -/
def cancelled (txStatus : UInt8) (now : ℕ) (data : CecData) : CecData :=
  if txOk data.msg then
    { data with msg := { data.msg with rxTs := now, rxStatus := CEC_RX_STATUS_ABORTED } }
  else
    { data with
      msg := { data.msg with
        txTs := now
        txStatus := data.msg.txStatus ||| (txStatus ||| CEC_TX_STATUS_MAX_RETRIES)
        txErrorCnt := data.msg.txErrorCnt + 1 }
      attempts := 0 }

/-- `cec_data_cancel`. -/
def cecDataCancel (txStatus : UInt8) (now : ℕ) (a : TxAdap) (d : DataPtr) : TxAdap :=
  cecDataCompleted
    ((takeBack { a with cancels := d :: a.cancels } d).modify d (cancelled txStatus now)) d

/-! ## Flushing -/

/-- The loop of `cec_flush` over the transmit queue, for as many passes as the queue was long. -/
def flushQueue (now : ℕ) : ℕ → TxAdap → TxAdap
  | 0, a => a
  | n + 1, a =>
    match a.transmitQueue with
    | [] => a
    | d :: _ => flushQueue now n (cecDataCancel CEC_TX_STATUS_ABORTED now a d)

/-- The transmitting slot is flushed. -/
def flushTransmitting (now : ℕ) (a : TxAdap) : TxAdap :=
  a.transmitting.elim a (cecDataCancel CEC_TX_STATUS_ABORTED now a)

/-- A waiting transmit is cancelled if its timeout work had not started. -/
def flushWaiting (now : ℕ) (a : TxAdap) (d : DataPtr) : TxAdap :=
  if (a.data d).pending then
    cecDataCancel CEC_TX_STATUS_OK now (a.modify d fun data => { data with pending := false }) d
  else a

/-- `cec_flush`. -/
def cecFlush (now : ℕ) (a : TxAdap) : TxAdap :=
  let a := flushTransmitting now (flushQueue now a.transmitQueue.length a)
  a.waitQueue.foldl (flushWaiting now) a

/-- `cec_adap_unconfigure`, as far as transmits are concerned. -/
def cecAdapUnconfigure (now : ℕ) (a : TxAdap) : TxAdap :=
  cecFlush now { a with cfg := { a.cfg with logAddrMask := 0, isConfiguring := false, isConfigured := false } }

/-! ## The main thread -/

/-- The number of attempts for a message that is sent for the first time. -/
def suggestedAttempts (a : TxAdap) (msg : CecMsg) : ℕ :=
  if msg.len = 1 ∧ a.cfg.isConfigured then 2 else 4

/-- The signal free time, and the initiator to remember. -/
def signalFreeTime (a : TxAdap) (data : CecData) : ℕ × UInt8 :=
  if data.attempts ≠ 0 then (CEC_SIGNAL_FREE_TIME_RETRY, a.lastInitiator)
  else if a.lastInitiator ≠ data.msg.initiator then (CEC_SIGNAL_FREE_TIME_NEW_INITIATOR, data.msg.initiator)
  else (CEC_SIGNAL_FREE_TIME_NEXT_XFER, a.lastInitiator)

/-- The first transmit of the queue is made the transmitting one. -/
def startTransmit (a : TxAdap) (d : DataPtr) : TxAdap :=
  { a.listDelInit d with
    transmitQueueSz := a.transmitQueueSz - 1
    transmitting := some d
    lastInitiator := (signalFreeTime a (a.data d)).2
    data := Function.update a.data d
      { a.data d with
        attempts := if (a.data d).attempts = 0 then suggestedAttempts a (a.data d).msg
          else (a.data d).attempts } }

/-- The driver is told to transmit: it accepts the call, or the transmit is cancelled. -/
def callDriver (accepts : Bool) (now sft : ℕ) (a : TxAdap) (d : DataPtr) : TxAdap :=
  if accepts then
    { a with transmitInProgress := true, calls := ⟨d, (a.data d).attempts, sft⟩ :: a.calls }
  else cecDataCancel CEC_TX_STATUS_ABORTED now a d

/-- The section of `cec_thread_func`: the wait has timed out or not, the thread is to stop or not, and the
driver accepts a transmit or not. -/
def cecThreadFunc (timeout stop accepts : Bool) (now : ℕ) (a : TxAdap) : TxAdap :=
  if (a.needsHpd ∧ a.cfg.isConfigured = false ∧ a.cfg.isConfiguring = false) ∨ stop then cecFlush now a
  else
    match a.transmitting, timeout with
    | some d, true =>
      cecDataCancel CEC_TX_STATUS_TIMEOUT now
        { a with transmitInProgress := false, txTimeouts := a.txTimeouts + 1 } d
    | _, _ =>
      if a.transmitInProgress then a
      else
        match a.transmitQueue with
        | [] => a
        | d :: _ => callDriver accepts now (signalFreeTime a (a.data d)).1 (startTransmit a d) d

/-! ## Completion by the driver, and by timeouts -/

/-- The arguments of `cec_transmit_done_ts`. -/
structure TxDone where
  status : UInt8
  arbLostCnt : UInt8
  nackCnt : UInt8
  lowDriveCnt : UInt8
  errorCnt : UInt8
  ts : ℕ

namespace TxDone

/-- `attempts_made`. -/
def attemptsMade (t : TxDone) : ℕ :=
  max 1 (t.arbLostCnt.toNat + t.nackCnt.toNat + t.lowDriveCnt.toNat + t.errorCnt.toNat)

/-- The status is recorded in the message. -/
def record (t : TxDone) (msg : CecMsg) : CecMsg :=
  { msg with
    txTs := t.ts
    txStatus := msg.txStatus ||| t.status
    txArbLostCnt := msg.txArbLostCnt + t.arbLostCnt
    txNackCnt := msg.txNackCnt + t.nackCnt
    txLowDriveCnt := msg.txLowDriveCnt + t.lowDriveCnt
    txErrorCnt := msg.txErrorCnt + t.errorCnt }

end TxDone

/-- A status that is not OK leaves the message unsent. -/
theorem TxDone.txOk_record_eq_false {t : TxDone} {msg : CecMsg} (h : txOk msg = false)
    (ht : t.status &&& CEC_TX_STATUS_OK = 0) : txOk (t.record msg) = false := by
  rw [txOk_eq_false] at h ⊢
  change (msg.txStatus ||| t.status) &&& CEC_TX_STATUS_OK = 0
  rw [or_land, h, ht]
  rfl

theorem TxDone.txOk_record_eq_true {t : TxDone} (msg : CecMsg) (ht : t.status &&& CEC_TX_STATUS_OK ≠ 0) :
    txOk (t.record msg) = true := by
  rw [txOk_eq_true]
  change (msg.txStatus ||| t.status) &&& CEC_TX_STATUS_OK ≠ 0
  rw [or_land, Ne, UInt8.or_eq_zero_iff]
  exact fun h => ht h.2

/-- The message is put in front of the transmit queue again. -/
def retry (t : TxDone) (a : TxAdap) (d : DataPtr) : TxAdap :=
  { a.modify d fun data => { data with attempts := data.attempts - t.attemptsMade } with
    transmitQueue := d :: a.transmitQueue
    transmitQueueSz := a.transmitQueueSz + 1 }

/-- The message waits for its reply. -/
def awaitReply (a : TxAdap) (d : DataPtr) : TxAdap :=
  { a.modify d fun data => { data with pending := true } with waitQueue := a.waitQueue ++ [d] }

/-- `attempts` is cleared, and `CEC_TX_STATUS_MAX_RETRIES` set on an error. -/
def doneTrying (t : TxDone) (data : CecData) : CecData :=
  { data with
    attempts := 0
    msg := if t.status &&& CEC_TX_STATUS_OK = 0 then
        { data.msg with txStatus := data.msg.txStatus ||| CEC_TX_STATUS_MAX_RETRIES }
      else data.msg }

/-- The status is recorded, and nothing is transmitting any more. -/
def recordDone (t : TxDone) (a : TxAdap) (d : DataPtr) : TxAdap :=
  { a with transmitInProgress := false, transmitting := none }.modify d fun data =>
    { data with msg := t.record data.msg }

/-- The transmit is not tried again. -/
def finishDone (t : TxDone) (a : TxAdap) (d : DataPtr) : TxAdap :=
  (recordDone t a d).modify d (doneTrying t)

/-- The section of `cec_transmit_done_ts`. -/
def cecTransmitDoneTs (t : TxDone) (a : TxAdap) : TxAdap :=
  match a.transmitting with
  | none => { a with transmitInProgress := false }
  | some d =>
    if t.attemptsMade < (a.data d).attempts ∧
        t.status &&& (CEC_TX_STATUS_MAX_RETRIES ||| CEC_TX_STATUS_OK) = 0 then retry t (recordDone t a d) d
    else if t.status &&& CEC_TX_STATUS_OK ≠ 0 ∧ a.cfg.isConfigured ∧ (a.data d).msg.timeout ≠ 0 then
      awaitReply (finishDone t a d) d
    else cecDataCompleted (finishDone t a d) d

/-- The message has timed out. -/
def timedOut (now : ℕ) (data : CecData) : CecData :=
  { data with msg := { data.msg with rxTs := now, rxStatus := CEC_RX_STATUS_TIMEOUT } }

/-- The section of `cec_wait_timeout`, with which the work has run. -/
def cecWaitTimeout (now : ℕ) (a : TxAdap) (d : DataPtr) : TxAdap :=
  let a := a.modify d fun data => { data with running := false }
  if d ∈ a.transmitQueue ∨ d ∈ a.waitQueue then
    cecDataCompleted ((a.listDelInit d).modify d (timedOut now)) d
  else a

/-! ## Accepting a message -/

/-- The fields that the framework owns are cleared, and a reply is given its default timeout. -/
def prepareTransmit (msg : CecMsg) : CecMsg :=
  let timeout := if msg.reply ≠ 0 ∧ msg.timeout = 0 then 1000 else msg.timeout
  let flags := msg.flags &&& (CEC_MSG_FL_REPLY_TO_FOLLOWERS ||| CEC_MSG_FL_RAW)
  { msg with
    rxTs := 0
    txTs := 0
    rxStatus := 0
    txStatus := 0
    txArbLostCnt := 0
    txNackCnt := 0
    txLowDriveCnt := 0
    txErrorCnt := 0
    sequence := 0
    timeout := timeout
    flags := if timeout = 0 then flags &&& ~~~CEC_MSG_FL_REPLY_TO_FOLLOWERS else flags }

/-- The bytes behind the message are cleared. -/
def clearTail (msg : CecMsg) : CecMsg :=
  { msg with msg := fun i => if i < msg.len then msg.msg i else 0 }

/-- A CDC message is given our physical address. -/
def fillCdc (physAddr : UInt16) (msg : CecMsg) : CecMsg :=
  if 4 ≤ msg.len ∧ msg.msg 1 = CEC_MSG_CDC_MESSAGE then
    let bytes := Function.update msg.msg 2 (physAddr >>> 8).toUInt8
    { msg with msg := Function.update bytes 3 (physAddr &&& 0xff).toUInt8 }
  else msg

/-- What the checks of a message come to. -/
inductive Verdict where
  | error (errno : ℤ)
  | nacked
  | accepted
deriving DecidableEq

/-- The checks of a message that is not raw. -/
def checkCooked (a : TxAdap) (msg : CecMsg) : Verdict :=
  let idle := a.cfg.isConfigured = false ∧ a.cfg.isConfiguring = false
  if msg.len = 1 ∧ msg.destination = 0xf then .error EINVAL
  else if msg.len = 1 ∧ cecHasLogAddr a.cfg.logAddrMask msg.destination then .nacked
  else if 1 < msg.len ∧ msg.isBroadcast = false ∧ cecHasLogAddr a.cfg.logAddrMask msg.destination then
    .error EINVAL
  else if 1 < msg.len ∧ a.cfg.isConfigured ∧ cecHasLogAddr a.cfg.logAddrMask msg.initiator = false then
    .error EINVAL
  else if idle ∧ (2 < msg.len ∨ msg.destination ≠ CEC_LOG_ADDR_TV ∨
      (msg.len = 2 ∧ msg.msg 1 ≠ CEC_MSG_IMAGE_VIEW_ON ∧ msg.msg 1 ≠ CEC_MSG_TEXT_VIEW_ON)) then
    .error ENONET
  else .accepted

/-- The checks of any message. -/
def checkQueue (a : TxAdap) (msg : CecMsg) : Verdict :=
  let idle := a.cfg.isConfigured = false ∧ a.cfg.isConfiguring = false
  if idle ∧ a.needsHpd then .error ENONET
  else if idle ∧ msg.reply ≠ 0 then .error EINVAL
  else if CEC_MAX_MSG_TX_QUEUE_SZ ≤ a.transmitQueueSz then .error EBUSY
  else .accepted

/-- The next sequence number, which is not zero. -/
def nextSequence (sequence : UInt32) : UInt32 :=
  if sequence + 1 = 0 then sequence + 2 else sequence + 1

/-- The message is queued as a new transmit. -/
def enqueue (a : TxAdap) (msg : CecMsg) (fh : Option Fh) (block : Bool) : TxAdap :=
  { a with
    data := Function.update a.data a.allocated
      { msg := msg, fh := fh, attempts := 0, blocking := block, completed := false,
        pending := false, running := false }
    allocated := a.allocated + 1
    xferList := fh.elim a.xferList fun fh => Function.update a.xferList fh (a.xferList fh ++ [a.allocated])
    transmitQueue := a.transmitQueue ++ [a.allocated]
    transmitQueueSz := a.transmitQueueSz + 1 }

/-- What the first section of `cec_transmit_msg_fh` leaves, and the transmit if one was queued. -/
structure Submitted where
  adap : TxAdap
  msg : CecMsg
  ret : ℤ
  data : Option DataPtr

/-- The message passed its checks so far; memory for the transmit is there or not. -/
def submit (a : TxAdap) (msg : CecMsg) (fh : Option Fh) (block memory : Bool) : Submitted :=
  match checkQueue a msg, memory with
  | .error errno, _ => ⟨a, msg, -errno, none⟩
  | _, false => ⟨a, msg, -ENOMEM, none⟩
  | _, true =>
    let a := { a with sequence := nextSequence a.sequence }
    let msg := { msg with sequence := a.sequence.toNat }
    ⟨enqueue a msg fh block, msg, 0, some a.allocated⟩

/-- The poll of one of our own addresses is not acknowledged. -/
def nackOwnPoll (a : TxAdap) (msg : CecMsg) (now : ℕ) : Submitted :=
  let a := { a with sequence := nextSequence a.sequence }
  let msg := { msg with
    txTs := now
    txStatus := CEC_TX_STATUS_NACK ||| CEC_TX_STATUS_MAX_RETRIES
    txNackCnt := 1
    sequence := a.sequence.toNat }
  ⟨a, msg, 0, none⟩

/-- `cec_transmit_msg_fh` up to where it waits.  The caller is capable of raw input and output or not. -/
def cecTransmitMsgFh (a : TxAdap) (msg : CecMsg) (fh : Option Fh) (block rawio memory : Bool) (now : ℕ) :
    Submitted :=
  let isRaw := msg.flags &&& CEC_MSG_FL_RAW ≠ 0
  let msg := prepareTransmit msg
  if msg.len = 0 ∨ CEC_MAX_MSG_SIZE < msg.len then ⟨a, msg, -EINVAL, none⟩
  else
    let msg := clearTail msg
    if msg.timeout ≠ 0 ∧ msg.len = 1 then ⟨a, msg, -EINVAL, none⟩
    else if isRaw then
      if rawio then submit a msg fh block memory else ⟨a, msg, -EPERM, none⟩
    else if a.cfg.cdcOnly ∧ (msg.len = 1 ∨ msg.msg 1 ≠ CEC_MSG_CDC_MESSAGE) then ⟨a, msg, -EINVAL, none⟩
    else
      let msg := fillCdc a.cfg.physAddr msg
      match checkCooked a msg with
      | .error errno => ⟨a, msg, -errno, none⟩
      | .nacked => nackOwnPoll a msg now
      | .accepted => submit a msg fh block memory

/-! ## Receiving a reply -/

/-- A waiting transmit, as the matching of replies sees it. -/
def waitingData (a : TxAdap) (d : DataPtr) : WaitingData where
  ptr := d
  msg := (a.data d).msg
  fh := (a.data d).fh

/-- The adapter, as the matching of replies sees it. -/
def rxAdap (a : TxAdap) : RxAdap where
  logAddrMask := a.cfg.logAddrMask
  cecVersion := a.cfg.cecVersion
  lastInitiator := a.lastInitiator
  waitQueue := a.waitQueue.map (waitingData a)

/-- The message of a waiting transmit is changed in place. -/
def writeBack (a : TxAdap) (w : WaitingData) : TxAdap :=
  a.modify w.ptr fun data => { data with msg := w.msg }

/-- A transmit got its reply: it is completed if its timeout work could be cancelled.  Otherwise it is left in
the hands of the receiver, which drops the lock to flush the work. -/
def takeReply (a : TxAdap) (w : WaitingData) : TxAdap × Option DataPtr :=
  let b := (writeBack a w).listDelInit w.ptr
  if (a.data w.ptr).pending then
    (cecDataCompleted (b.modify w.ptr fun data => { data with pending := false }) w.ptr, none)
  else (b, some w.ptr)

/-- The section of `cec_received_msg_ts` up to where it drops the lock, and the transmit it then holds. -/
def cecReceivedSection (msg : CecMsg) (ts : ℕ) (a : TxAdap) : TxAdap × Option DataPtr :=
  let r := cecReceivedMsgTs (rxAdap a) msg ts
  let b := r.adap.waitQueue.foldl writeBack { a with lastInitiator := r.adap.lastInitiator }
  r.completed.elim (b, none) (takeReply b)

/-! ## The transmitting slot -/

/-- A section leaves the transmitting slot alone, or cancels the transmit there; what is in progress stays in
progress, and the driver is not called. -/
structure SlotKept (a b : TxAdap) : Prop where
  inProgress : b.transmitInProgress = a.transmitInProgress
  calls : b.calls = a.calls
  slot : ∃ l, b.cancels = l ++ a.cancels ∧
    (b.transmitting = a.transmitting ∨ b.transmitting = none ∧ ∃ d ∈ l, a.transmitting = some d)

theorem SlotKept.of_eq {a b : TxAdap} (hp : b.transmitInProgress = a.transmitInProgress)
    (hc : b.calls = a.calls) (hl : b.cancels = a.cancels) (ht : b.transmitting = a.transmitting) :
    SlotKept a b :=
  ⟨hp, hc, [], hl, Or.inl ht⟩

theorem SlotKept.refl (a : TxAdap) : SlotKept a a :=
  SlotKept.of_eq rfl rfl rfl rfl

theorem SlotKept.trans {a b b' : TxAdap} (h : SlotKept a b) (h' : SlotKept b b') : SlotKept a b' := by
  obtain ⟨l, hl, hs⟩ := h.slot
  obtain ⟨l', hl', hs'⟩ := h'.slot
  refine ⟨h'.inProgress.trans h.inProgress, h'.calls.trans h.calls, l' ++ l,
    by rw [hl', hl, List.append_assoc], ?_⟩
  rcases hs with hs | ⟨hnone, d, hd, ha⟩
  · rcases hs' with hs' | ⟨hnone', d, hd, hb⟩
    · exact Or.inl (hs'.trans hs)
    · exact Or.inr ⟨hnone', d, List.mem_append_left _ hd, hs ▸ hb⟩
  · refine Or.inr ⟨?_, d, List.mem_append_right _ hd, ha⟩
    rcases hs' with hs' | ⟨hnone', -⟩
    · exact hs'.trans hnone
    · exact hnone'

theorem slotKept_cecDataCompleted (a : TxAdap) (d : DataPtr) : SlotKept a (cecDataCompleted a d) := by
  have hunhook : ∀ b : TxAdap, SlotKept b (unhook b d) := by
    intro b
    unfold unhook
    cases (b.data d).fh <;> exact SlotKept.of_eq rfl rfl rfl rfl
  have hwake : ∀ b : TxAdap, SlotKept b (wakeOrFree b d) := by
    intro b
    unfold wakeOrFree
    split <;> exact SlotKept.of_eq rfl rfl rfl rfl
  have hlog : SlotKept a { a with completions := d :: a.completions } := SlotKept.of_eq rfl rfl rfl rfl
  exact hlog.trans ((hunhook _).trans (hwake _))

theorem slotKept_cecDataCancel (txStatus : UInt8) (now : ℕ) (a : TxAdap) (d : DataPtr) :
    SlotKept a (cecDataCancel txStatus now a d) := by
  have htake : SlotKept a (takeBack { a with cancels := d :: a.cancels } d) := by
    unfold takeBack
    split
    · next h => exact ⟨rfl, rfl, [d], rfl, Or.inr ⟨rfl, d, List.mem_singleton.mpr rfl, h⟩⟩
    · split <;> exact ⟨rfl, rfl, [d], rfl, Or.inl rfl⟩
  have hmod : ∀ b : TxAdap, SlotKept b (b.modify d (cancelled txStatus now)) :=
    fun b => SlotKept.of_eq rfl rfl rfl rfl
  exact htake.trans ((hmod _).trans (slotKept_cecDataCompleted _ d))

theorem slotKept_flushQueue (now n : ℕ) (a : TxAdap) : SlotKept a (flushQueue now n a) := by
  induction n generalizing a with
  | zero => exact SlotKept.refl a
  | succ n ih =>
    unfold flushQueue
    cases a.transmitQueue with
    | nil => exact SlotKept.refl a
    | cons d rest => exact (slotKept_cecDataCancel _ now a d).trans (ih _)

theorem slotKept_flushTransmitting (now : ℕ) (a : TxAdap) : SlotKept a (flushTransmitting now a) := by
  unfold flushTransmitting
  cases a.transmitting with
  | none => exact SlotKept.refl a
  | some d => exact slotKept_cecDataCancel _ now a d

theorem slotKept_flushWaiting (now : ℕ) (a : TxAdap) (d : DataPtr) : SlotKept a (flushWaiting now a d) := by
  unfold flushWaiting
  split
  · have hmod : SlotKept a (a.modify d fun data => { data with pending := false }) :=
      SlotKept.of_eq rfl rfl rfl rfl
    exact hmod.trans (slotKept_cecDataCancel _ now _ d)
  · exact SlotKept.refl a

/-- What every step of a walk over a list keeps, the walk keeps. -/
theorem slotKept_foldl {β : Type*} {f : TxAdap → β → TxAdap} (hf : ∀ a x, SlotKept a (f a x)) (l : List β)
    (a : TxAdap) : SlotKept a (l.foldl f a) := by
  induction l generalizing a with
  | nil => exact SlotKept.refl a
  | cons x l ih => exact (hf a x).trans (ih _)

/-- **Flushing** cancels the transmit of the transmitting slot, if it changes the slot. -/
theorem slotKept_cecFlush (now : ℕ) (a : TxAdap) : SlotKept a (cecFlush now a) :=
  (slotKept_flushQueue now _ a).trans ((slotKept_flushTransmitting now _).trans
    (slotKept_foldl (slotKept_flushWaiting now) _ _))

theorem slotKept_cecAdapUnconfigure (now : ℕ) (a : TxAdap) : SlotKept a (cecAdapUnconfigure now a) := by
  unfold cecAdapUnconfigure
  generalize hcfg : ({ a.cfg with logAddrMask := 0, isConfiguring := false, isConfigured := false } : Config) = cfg
  have hset : SlotKept a { a with cfg := cfg } := SlotKept.of_eq rfl rfl rfl rfl
  exact hset.trans (slotKept_cecFlush now _)

theorem slotKept_cecWaitTimeout (now : ℕ) (a : TxAdap) (d : DataPtr) : SlotKept a (cecWaitTimeout now a d) := by
  unfold cecWaitTimeout
  dsimp only
  split
  · have hmod : ∀ b : TxAdap, SlotKept b ((b.listDelInit d).modify d (timedOut now)) :=
      fun b => SlotKept.of_eq rfl rfl rfl rfl
    have hrun : SlotKept a (a.modify d fun data => { data with running := false }) :=
      SlotKept.of_eq rfl rfl rfl rfl
    exact hrun.trans ((hmod _).trans (slotKept_cecDataCompleted _ d))
  · exact SlotKept.of_eq rfl rfl rfl rfl

/-! ## Accepted messages -/

/-- A message that passes the checks finds room in the queue. -/
theorem checkQueue_room {a : TxAdap} {msg : CecMsg} (h : ∀ errno, checkQueue a msg ≠ .error errno) :
    a.transmitQueueSz < CEC_MAX_MSG_TX_QUEUE_SZ := by
  unfold checkQueue at h
  dsimp only at h
  by_contra hle
  rw [UInt32.not_lt] at hle
  rw [if_pos hle] at h
  split at h
  · exact h _ rfl
  · split at h
    · exact h _ rfl
    · exact h _ rfl

/-- A message is refused, or queued where there is room. -/
theorem submit_cases (a : TxAdap) (msg : CecMsg) (fh : Option Fh) (block memory : Bool) :
    ((submit a msg fh block memory).data = none ∧ (submit a msg fh block memory).adap = a) ∨
    (a.transmitQueueSz < CEC_MAX_MSG_TX_QUEUE_SZ ∧ (submit a msg fh block memory).data = some a.allocated ∧
      ∃ sequence : UInt32, (submit a msg fh block memory).adap =
        enqueue { a with sequence := sequence } { msg with sequence := sequence.toNat } fh block) := by
  unfold submit
  rcases hv : checkQueue a msg with errno | _ | _
  · exact Or.inl ⟨rfl, rfl⟩
  · cases memory with
    | false => exact Or.inl ⟨rfl, rfl⟩
    | true => exact Or.inr ⟨checkQueue_room fun errno h => (nomatch hv.symm.trans h), rfl, _, rfl⟩
  · cases memory with
    | false => exact Or.inl ⟨rfl, rfl⟩
    | true => exact Or.inr ⟨checkQueue_room fun errno h => (nomatch hv.symm.trans h), rfl, _, rfl⟩

/-- **A message** is refused or answered on the spot, or queued as a new transmit that has not been sent. -/
theorem cecTransmitMsgFh_cases (a : TxAdap) (msg : CecMsg) (fh : Option Fh) (block rawio memory : Bool)
    (now : ℕ) :
    ((cecTransmitMsgFh a msg fh block rawio memory now).data = none ∧
      ∃ sequence, (cecTransmitMsgFh a msg fh block rawio memory now).adap = { a with sequence := sequence }) ∨
    (a.transmitQueueSz < CEC_MAX_MSG_TX_QUEUE_SZ ∧
      (cecTransmitMsgFh a msg fh block rawio memory now).data = some a.allocated ∧
      ∃ sequence msg', msg'.txStatus = 0 ∧ (cecTransmitMsgFh a msg fh block rawio memory now).adap =
        enqueue { a with sequence := sequence } msg' fh block) := by
  have hsubmit : ∀ m : CecMsg, m.txStatus = 0 →
      ((submit a m fh block memory).data = none ∧
        ∃ sequence, (submit a m fh block memory).adap = { a with sequence := sequence }) ∨
      (a.transmitQueueSz < CEC_MAX_MSG_TX_QUEUE_SZ ∧ (submit a m fh block memory).data = some a.allocated ∧
        ∃ sequence msg', msg'.txStatus = 0 ∧ (submit a m fh block memory).adap =
          enqueue { a with sequence := sequence } msg' fh block) := by
    intro m hm
    rcases submit_cases a m fh block memory with ⟨hd, ha⟩ | ⟨hsz, hd, sequence, ha⟩
    · exact Or.inl ⟨hd, a.sequence, ha⟩
    · exact Or.inr ⟨hsz, hd, sequence, { m with sequence := sequence.toNat }, hm, ha⟩
  have hfill : (fillCdc a.cfg.physAddr (clearTail (prepareTransmit msg))).txStatus = 0 := by
    unfold fillCdc
    split <;> rfl
  unfold cecTransmitMsgFh
  dsimp only
  split
  · exact Or.inl ⟨rfl, a.sequence, rfl⟩
  split
  · exact Or.inl ⟨rfl, a.sequence, rfl⟩
  split
  · split
    · exact hsubmit _ rfl
    · exact Or.inl ⟨rfl, a.sequence, rfl⟩
  split
  · exact Or.inl ⟨rfl, a.sequence, rfl⟩
  split
  · exact Or.inl ⟨rfl, a.sequence, rfl⟩
  · exact Or.inl ⟨rfl, _, rfl⟩
  · exact hsubmit _ hfill

end Cec
end TbsMedia
