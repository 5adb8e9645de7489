import Mathlib
import TbsMedia.Mc.Request

/-!
# Queueing a buffer

`vb2_core_qbuf` puts a buffer into a request, or on the list of the queued buffers, from where it goes to the driver
once the queue streams.  What a queue is used for, direct calls or requests, is noted before most of the checks are
made.

* `bufPrepare`, `enqueueInDriver`, `vb2BufferDone`, `vb2StartStreaming`, `vb2CoreQbuf`: the functions.
* `PassesModes`: the checks that a call passes before the mode is noted.
* `Untouched`: what a section that fails leaves alone.
* `qbuf_fails`: a call that fails leaves the buffers and the list of the queued ones alone, and of the marks of the
  queue it sets at most that of its own mode.
-/

namespace TbsMedia
namespace Vb2

def EIO : ℤ := 5
def EBADR : ℤ := 53
def EINVAL : ℤ := 22

/-! ## State -/

/-- `enum vb2_buffer_state`. -/
inductive BufferState where
  | dequeued
  | inRequest
  | preparing
  | queued
  | active
  | done
  | error
deriving DecidableEq

/-- `enum vb2_memory`. -/
inductive Vb2Memory where
  | unknown
  | mmap
  | userptr
  | dmabuf
deriving DecidableEq

/-- A request, by its address. -/
abbrev ReqPtr := ℕ

/-- A `struct vb2_buffer`: `reqObj` is the address of its object, `boundTo` is `req_obj.req`. -/
structure CoreBuffer where
  state : BufferState
  prepared : Bool
  synced : Bool
  reqObj : Mc.ObjPtr
  boundTo : Option ReqPtr
  request : Option ReqPtr

/-- A `struct vb2_queue`, with the buffers and requests there are, and how often the driver has refused to start. -/
structure CoreQueue where
  error : Bool
  requiresRequests : Bool
  usesQbuf : Bool
  usesRequests : Bool
  isOutput : Bool
  streaming : Bool
  startStreamingCalled : Bool
  waitingForBuffers : Bool
  memory : Vb2Memory
  minBuffersNeeded : UInt32
  queuedCount : UInt32
  ownedByDrvCount : ℤ
  numBuffers : ℕ
  queuedList : List ℕ
  doneList : List ℕ
  bufs : ℕ → CoreBuffer
  requests : ReqPtr → Mc.MediaRequest
  refusals : ℕ

/-- The callbacks: what they return for a buffer of the queue, and the buffers that the driver gives back meanwhile. -/
structure Callbacks where
  bufOutValidate : CoreQueue → ℕ → ℤ
  fillVb2Buffer : CoreQueue → ℕ → ℤ
  bufPrepare : CoreQueue → ℕ → ℤ
  prepareUserptr : CoreQueue → ℕ → ℤ
  prepareDmabuf : CoreQueue → ℕ → ℤ
  bufQueue : CoreQueue → ℕ → List (ℕ × BufferState)
  startStreaming : CoreQueue → List (ℕ × BufferState) × ℤ

/-- A buffer is changed. -/
def CoreQueue.modifyBuf (q : CoreQueue) (i : ℕ) (f : CoreBuffer → CoreBuffer) : CoreQueue :=
  { q with bufs := Function.update q.bufs i (f (q.bufs i)) }

/-- `vb->state = state`. -/
def CoreQueue.setState (q : CoreQueue) (i : ℕ) (state : BufferState) : CoreQueue :=
  q.modifyBuf i fun vb => { vb with state := state }

/-- A request is changed. -/
def CoreQueue.setRequest (q : CoreQueue) (r : ReqPtr) (req : Mc.MediaRequest) : CoreQueue :=
  { q with requests := Function.update q.requests r req }

/-! ## Buffers that the driver gives back -/

/-- `media_request_object_unbind`; the reference that a completed request loses is not its last, for the buffer has
another. -/
def unbindRequest (q : CoreQueue) (i : ℕ) : CoreQueue :=
  match (q.bufs i).boundTo with
  | none => q
  | some r =>
    let x := Mc.mediaRequestObjectUnbind (q.requests r) (q.bufs i).reqObj
    (q.setRequest r (if x.2 then { x.1 with kref := x.1.kref - 1 } else x.1)).modifyBuf i
      fun vb => { vb with boundTo := none }

/-- The buffer is ready to be dequeued. -/
def CoreQueue.addDone (q : CoreQueue) (i : ℕ) (state : BufferState) : CoreQueue :=
  { q.modifyBuf i fun vb => { vb with synced := false, state := state } with
    doneList := q.doneList ++ [i]
    ownedByDrvCount := q.ownedByDrvCount - 1 }

/-- The buffer stays queued. -/
def CoreQueue.takeBack (q : CoreQueue) (i : ℕ) : CoreQueue :=
  { q.setState i .queued with ownedByDrvCount := q.ownedByDrvCount - 1 }

/-- `vb2_buffer_done`: a state that a driver must not ask for counts as an error. -/
def vb2BufferDone (q : CoreQueue) (x : ℕ × BufferState) : CoreQueue :=
  if (q.bufs x.1).state ≠ .active then q
  else if x.2 = .queued then q.takeBack x.1
  else unbindRequest (q.addDone x.1 (if x.2 = .done then .done else .error)) x.1

section Queueing

variable (d : Callbacks)

/-! ## The functions -/

/-- The buffer is the driver's. -/
def CoreQueue.handOver (q : CoreQueue) (i : ℕ) : CoreQueue :=
  { q.setState i .active with ownedByDrvCount := q.ownedByDrvCount + 1 }

/-- `__enqueue_in_driver`. -/
def enqueueInDriver (q : CoreQueue) (i : ℕ) : CoreQueue :=
  (d.bufQueue (q.handOver i) i).foldl vb2BufferDone (q.handOver i)

/-- The planes of the buffer are prepared, as the memory of the queue asks. -/
def prepareMemory (q : CoreQueue) (i : ℕ) : ℤ :=
  match q.memory with
  | .mmap => if d.fillVb2Buffer q i ≠ 0 then d.fillVb2Buffer q i else d.bufPrepare q i
  | .userptr => d.prepareUserptr q i
  | .dmabuf => d.prepareDmabuf q i
  | .unknown => -EINVAL

/-- `__buf_prepare`. -/
def bufPrepare (q : CoreQueue) (i : ℕ) : CoreQueue × ℤ :=
  let origState := (q.bufs i).state
  if q.error then (q, - EIO)
  else if (q.bufs i).prepared then (q, 0)
  else if q.isOutput ∧ d.bufOutValidate q i ≠ 0 then (q, d.bufOutValidate q i)
  else
    let q := q.setState i .preparing
    if prepareMemory d q i ≠ 0 then (q.setState i origState, prepareMemory d q i)
    else (q.modifyBuf i fun vb => { vb with synced := true, prepared := true, state := origState }, 0)

/-- What the driver has not returned is reclaimed. -/
def reclaim (q : CoreQueue) : CoreQueue :=
  if q.ownedByDrvCount ≠ 0 then ((List.range q.numBuffers).map (·, .queued)).foldl vb2BufferDone q else q

/-- The driver has refused to start. -/
def CoreQueue.refused (q : CoreQueue) : CoreQueue :=
  { q with startStreamingCalled := false, refusals := q.refusals + 1 }

/-- `vb2_start_streaming`. -/
def vb2StartStreaming (q : CoreQueue) : CoreQueue × ℤ :=
  let q := { q.queuedList.foldl (enqueueInDriver d) q with startStreamingCalled := true }
  let x := d.startStreaming q
  let q := x.1.foldl vb2BufferDone q
  if x.2 = 0 then (q, 0) else (reclaim q.refused, x.2)

/-- The object of the buffer is bound to the request. -/
def bindRequest (q : CoreQueue) (i : ℕ) (r : ReqPtr) : CoreQueue × ℤ :=
  let o := (q.bufs i).reqObj
  let q := q.modifyBuf i fun vb => { vb with boundTo := none }
  let x := Mc.mediaRequestLockForUpdate
    { q.requests r with obj := Function.update (q.requests r).obj o ⟨false, false⟩ }
  if x.2 ≠ 0 then (q.setRequest r x.1, x.2)
  else
    let y := Mc.mediaRequestObjectBind x.1 true o
    let q := q.setRequest r (Mc.mediaRequestUnlockForUpdate y.1)
    if y.2 ≠ 0 then (q, y.2)
    else
      ((q.setRequest r { q.requests r with kref := (q.requests r).kref + 1 }).modifyBuf i fun vb =>
        { vb with state := .inRequest, boundTo := some r, request := some r }, 0)

/-- A call with a request notes its mode. -/
def noteRequests (q : CoreQueue) : CoreQueue :=
  { q with usesRequests := true }

/-- What `vb2_core_qbuf` does with a request, once the mode is noted. -/
def qbufRequest (q : CoreQueue) (i : ℕ) (r : ReqPtr) : CoreQueue × ℤ :=
  if (q.bufs i).state ≠ .dequeued then (q, -EINVAL)
  else if q.isOutput ∧ (q.bufs i).prepared = false ∧ d.bufOutValidate q i ≠ 0 then (q, d.bufOutValidate q i)
  else bindRequest q i r

/-- The buffer is put on the list. -/
def CoreQueue.link (q : CoreQueue) (i : ℕ) : CoreQueue :=
  { q.setState i .queued with
    queuedList := q.queuedList ++ [i]
    queuedCount := q.queuedCount + 1
    waitingForBuffers := false }

/-- The buffer is put on the list, and goes to the driver when the driver has started. -/
def enqueue (q : CoreQueue) (i : ℕ) : CoreQueue × ℤ :=
  let q := if q.startStreamingCalled then enqueueInDriver d (q.link i) i else q.link i
  if q.streaming ∧ q.startStreamingCalled = false ∧ q.minBuffersNeeded ≤ q.queuedCount then vb2StartStreaming d q
  else (q, 0)

/-- The buffer is prepared, unless it was before. -/
def ensurePrepared (q : CoreQueue) (i : ℕ) : CoreQueue × ℤ :=
  if (q.bufs i).prepared then (q, 0) else bufPrepare d q i

/-- The switch of `vb2_core_qbuf` over the state of the buffer, and what follows it. -/
def qbufState (q : CoreQueue) (i : ℕ) : CoreQueue × ℤ :=
  if (q.bufs i).state = .dequeued ∨ (q.bufs i).state = .inRequest then
    let x := ensurePrepared d q i
    if x.2 ≠ 0 then x else enqueue d x.1 i
  else (q, -EINVAL)

/-- A direct call notes its mode. -/
def noteQbuf (q : CoreQueue) (i : ℕ) : CoreQueue :=
  if (q.bufs i).state ≠ .inRequest then { q with usesQbuf := true } else q

/-- `vb2_core_qbuf`. -/
def vb2CoreQbuf (q : CoreQueue) (i : ℕ) (req : Option ReqPtr) : CoreQueue × ℤ :=
  if q.error then (q, - EIO)
  else if req = none ∧ (q.bufs i).state ≠ .inRequest ∧ q.requiresRequests then (q, -EBADR)
  else if req ≠ none ∧ q.usesQbuf ∨ req = none ∧ (q.bufs i).state ≠ .inRequest ∧ q.usesRequests then (q, -Mc.EBUSY)
  else
    match req with
    | some r => qbufRequest d (noteRequests q) i r
    | none => qbufState d (noteQbuf q i) i

/-! ## Refusals -/

theorem foldl_refusals {α : Type} {f : CoreQueue → α → CoreQueue} (hf : ∀ q x, (f q x).refusals = q.refusals)
    (l : List α) (q : CoreQueue) : (l.foldl f q).refusals = q.refusals := by
  induction l generalizing q with
  | nil => rfl
  | cons x l ih => rw [List.foldl_cons, ih, hf]

theorem unbindRequest_refusals (q : CoreQueue) (i : ℕ) : (unbindRequest q i).refusals = q.refusals := by
  rw [unbindRequest]
  split <;> rfl

theorem vb2BufferDone_refusals (q : CoreQueue) (x : ℕ × BufferState) :
    (vb2BufferDone q x).refusals = q.refusals := by
  rw [vb2BufferDone]
  split
  · rfl
  · split
    · rfl
    · rw [unbindRequest_refusals]
      rfl

theorem enqueueInDriver_refusals (q : CoreQueue) (i : ℕ) : (enqueueInDriver d q i).refusals = q.refusals := by
  rw [enqueueInDriver, foldl_refusals vb2BufferDone_refusals]
  rfl

theorem reclaim_refusals (q : CoreQueue) : (reclaim q).refusals = q.refusals := by
  rw [reclaim]
  split
  · exact foldl_refusals vb2BufferDone_refusals _ q
  · rfl

/-- A start that fails is one that the driver has refused. -/
theorem vb2StartStreaming_fails (q : CoreQueue) (h : (vb2StartStreaming d q).2 ≠ 0) :
    (vb2StartStreaming d q).1.refusals = q.refusals + 1 := by
  have hq : ({ q.queuedList.foldl (enqueueInDriver d) q with startStreamingCalled := true } : CoreQueue).refusals =
      q.refusals := foldl_refusals (enqueueInDriver_refusals d) q.queuedList q
  unfold vb2StartStreaming at h ⊢
  generalize ({ q.queuedList.foldl (enqueueInDriver d) q with startStreamingCalled := true } : CoreQueue) = q₁
    at h hq ⊢
  dsimp only at h ⊢
  rcases eq_or_ne (d.startStreaming q₁).2 0 with hret | hret
  · rw [if_pos hret] at h
    exact absurd rfl h
  · rw [if_neg hret, reclaim_refusals]
    exact congrArg (· + 1) ((foldl_refusals vb2BufferDone_refusals _ q₁).trans hq)

/-- A buffer that is put on the list stays there, unless the driver refuses to start. -/
theorem enqueue_fails (q : CoreQueue) (i : ℕ) (h : (enqueue d q i).2 ≠ 0) :
    (enqueue d q i).1.refusals = q.refusals + 1 := by
  have hq : (if q.startStreamingCalled then enqueueInDriver d (q.link i) i else q.link i).refusals = q.refusals := by
    split
    · exact enqueueInDriver_refusals d (q.link i) i
    · rfl
  unfold enqueue at h ⊢
  generalize (if q.startStreamingCalled then enqueueInDriver d (q.link i) i else q.link i) = q₁ at h hq ⊢
  dsimp only at h ⊢
  by_cases hstart : q₁.streaming ∧ q₁.startStreamingCalled = false ∧ q₁.minBuffersNeeded ≤ q₁.queuedCount
  · rw [if_pos hstart] at h ⊢
    rw [vb2StartStreaming_fails d q₁ h, hq]
  · rw [if_neg hstart] at h
    exact absurd rfl h

/-! ## Sections that fail -/

/-- What a section that fails leaves alone. -/
structure Untouched (q q' : CoreQueue) : Prop where
  state : ∀ j, (q'.bufs j).state = (q.bufs j).state
  queuedList : q'.queuedList = q.queuedList
  queuedCount : q'.queuedCount = q.queuedCount
  usesQbuf : q'.usesQbuf = q.usesQbuf
  usesRequests : q'.usesRequests = q.usesRequests
  refusals : q'.refusals = q.refusals

theorem Untouched.refl (q : CoreQueue) : Untouched q q :=
  ⟨fun _ => rfl, rfl, rfl, rfl, rfl, rfl⟩

theorem modifyBuf_state {q : CoreQueue} {i : ℕ} {f : CoreBuffer → CoreBuffer} {state : BufferState}
    (hf : (f (q.bufs i)).state = state) (j : ℕ) :
    ((q.modifyBuf i f).bufs j).state = if j = i then state else (q.bufs j).state := by
  rw [← hf]
  change (Function.update q.bufs i (f (q.bufs i)) j).state = _
  rcases eq_or_ne j i with rfl | hne
  · rw [Function.update_self, if_pos rfl]
  · rw [Function.update_of_ne hne, if_neg hne]

/-- The buffer is changed, but its state is the one that it had. -/
theorem Untouched.modifyBuf {q q' : CoreQueue} (h : Untouched q q') {i : ℕ} {f : CoreBuffer → CoreBuffer}
    (hf : (f (q'.bufs i)).state = (q.bufs i).state) : Untouched q (q'.modifyBuf i f) where
  state := fun j => by
    rw [modifyBuf_state hf, h.state]
    split
    · subst j
      rfl
    · rfl
  queuedList := h.queuedList
  queuedCount := h.queuedCount
  usesQbuf := h.usesQbuf
  usesRequests := h.usesRequests
  refusals := h.refusals

theorem Untouched.setRequest {q q' : CoreQueue} (h : Untouched q q') (r : ReqPtr) (req : Mc.MediaRequest) :
    Untouched q (q'.setRequest r req) :=
  ⟨h.state, h.queuedList, h.queuedCount, h.usesQbuf, h.usesRequests, h.refusals⟩

/-- The state is set, and set back. -/
theorem untouched_restored (q : CoreQueue) (i : ℕ) (state : BufferState) {f : CoreBuffer → CoreBuffer}
    (hf : ∀ vb, (f vb).state = (q.bufs i).state) : Untouched q ((q.setState i state).modifyBuf i f) where
  state := fun j => by
    rw [modifyBuf_state (hf _), CoreQueue.setState, modifyBuf_state rfl]
    split
    · subst j
      rfl
    · rfl
  queuedList := rfl
  queuedCount := rfl
  usesQbuf := rfl
  usesRequests := rfl
  refusals := rfl

/-- A preparation leaves the state as it was, whether it fails or not. -/
theorem untouched_bufPrepare (q : CoreQueue) (i : ℕ) : Untouched q (bufPrepare d q i).1 := by
  unfold bufPrepare
  dsimp only
  split
  · exact Untouched.refl q
  · split
    · exact Untouched.refl q
    · split
      · exact Untouched.refl q
      · split
        · exact untouched_restored q i .preparing (f := fun vb => { vb with state := (q.bufs i).state }) fun _ => rfl
        · exact untouched_restored q i .preparing
            (f := fun vb => { vb with synced := true, prepared := true, state := (q.bufs i).state }) fun _ => rfl

/-- An object that is not bound leaves the buffer where it is. -/
theorem untouched_bindRequest (q : CoreQueue) (i : ℕ) (r : ReqPtr) (h : (bindRequest q i r).2 ≠ 0) :
    Untouched q (bindRequest q i r).1 := by
  have hinit : Untouched q (q.modifyBuf i fun vb => { vb with boundTo := none }) :=
    (Untouched.refl q).modifyBuf rfl
  rw [bindRequest] at h ⊢
  dsimp only at h ⊢
  split at h
  · rename_i hlock
    rw [if_pos hlock]
    exact hinit.setRequest r _
  · rename_i hlock
    rw [if_neg hlock]
    split at h
    · rename_i hbind
      rw [if_pos hbind]
      exact hinit.setRequest r _
    · exact absurd rfl h

theorem untouched_qbufRequest (q : CoreQueue) (i : ℕ) (r : ReqPtr) (h : (qbufRequest d q i r).2 ≠ 0) :
    Untouched q (qbufRequest d q i r).1 := by
  rw [qbufRequest] at h ⊢
  by_cases hstate : (q.bufs i).state ≠ .dequeued
  · rw [if_pos hstate]
    exact Untouched.refl q
  · rw [if_neg hstate] at h ⊢
    by_cases hvalid : q.isOutput ∧ (q.bufs i).prepared = false ∧ d.bufOutValidate q i ≠ 0
    · rw [if_pos hvalid]
      exact Untouched.refl q
    · rw [if_neg hvalid] at h ⊢
      exact untouched_bindRequest q i r h

/-- What fails before the buffer is on the list leaves everything alone; what fails later is a start. -/
theorem untouched_qbufState (q : CoreQueue) (i : ℕ) (h : (qbufState d q i).2 ≠ 0)
    (hstart : (qbufState d q i).1.refusals = q.refusals) : Untouched q (qbufState d q i).1 := by
  have hprep : Untouched q (ensurePrepared d q i).1 := by
    rw [ensurePrepared]
    split
    · exact Untouched.refl q
    · exact untouched_bufPrepare d q i
  unfold qbufState at h hstart ⊢
  dsimp only at h hstart ⊢
  by_cases hstate : (q.bufs i).state = .dequeued ∨ (q.bufs i).state = .inRequest
  · rw [if_pos hstate] at h hstart ⊢
    by_cases hret : (ensurePrepared d q i).2 ≠ 0
    · rw [if_pos hret]
      exact hprep
    · rw [if_neg hret] at h hstart
      rw [enqueue_fails d _ i h, hprep.refusals] at hstart
      exact absurd hstart (Nat.succ_ne_self _)
  · rw [if_neg hstate]
    exact Untouched.refl q

/-! ## Calls that fail -/

/-- The queue has no error, and is not used in the other mode. -/
def PassesModes (q : CoreQueue) (i : ℕ) (req : Option ReqPtr) : Prop :=
  q.error = false ∧ ¬(req = none ∧ (q.bufs i).state ≠ .inRequest ∧ q.requiresRequests) ∧
    ¬(req ≠ none ∧ q.usesQbuf ∨ req = none ∧ (q.bufs i).state ≠ .inRequest ∧ q.usesRequests)

variable {d}

/-- **A call that fails leaves every buffer in its state, and the list of the queued ones and their number as they
were**, unless it is the start of the streaming that fails.  It notes its mode when it passes the checks of the error
and of the mode, and changes no other mark. -/
theorem qbuf_fails {q q' : CoreQueue} {i : ℕ} {req : Option ReqPtr} {ret : ℤ}
    (h : vb2CoreQbuf d q i req = (q', ret)) (hret : ret ≠ 0) (hstart : q'.refusals = q.refusals) :
    (∀ j, (q'.bufs j).state = (q.bufs j).state) ∧ q'.queuedList = q.queuedList ∧ q'.queuedCount = q.queuedCount ∧
      (q'.usesQbuf = true ↔
        q.usesQbuf = true ∨ PassesModes q i req ∧ req = none ∧ (q.bufs i).state ≠ .inRequest) ∧
      (q'.usesRequests = true ↔ q.usesRequests = true ∨ PassesModes q i req ∧ req ≠ none) := by
  have hsame (hm : ¬ PassesModes q i req) (hq : q' = q) :
      (∀ j, (q'.bufs j).state = (q.bufs j).state) ∧ q'.queuedList = q.queuedList ∧ q'.queuedCount = q.queuedCount ∧
        (q'.usesQbuf = true ↔
          q.usesQbuf = true ∨ PassesModes q i req ∧ req = none ∧ (q.bufs i).state ≠ .inRequest) ∧
        (q'.usesRequests = true ↔ q.usesRequests = true ∨ PassesModes q i req ∧ req ≠ none) := by
    subst hq
    refine ⟨fun _ => rfl, rfl, rfl, ?_, ?_⟩
    · exact ⟨Or.inl, fun h => h.resolve_right fun h => hm h.1⟩
    · exact ⟨Or.inl, fun h => h.resolve_right fun h => hm h.1⟩
  unfold vb2CoreQbuf at h
  by_cases herror : q.error = true
  · rw [if_pos herror] at h
    exact hsame (fun hm => Bool.false_ne_true (hm.1.symm.trans herror)) (congrArg Prod.fst h).symm
  rw [if_neg herror] at h
  by_cases hrequires : req = none ∧ (q.bufs i).state ≠ .inRequest ∧ q.requiresRequests
  · rw [if_pos hrequires] at h
    exact hsame (fun hm => hm.2.1 hrequires) (congrArg Prod.fst h).symm
  rw [if_neg hrequires] at h
  by_cases hmode : req ≠ none ∧ q.usesQbuf ∨ req = none ∧ (q.bufs i).state ≠ .inRequest ∧ q.usesRequests
  · rw [if_pos hmode] at h
    exact hsame (fun hm => hm.2.2 hmode) (congrArg Prod.fst h).symm
  rw [if_neg hmode] at h
  have hm : PassesModes q i req := ⟨Bool.eq_false_iff.mpr herror, hrequires, hmode⟩
  cases req with
  | some r =>
      replace h : qbufRequest d (noteRequests q) i r = (q', ret) := h
      have hu := untouched_qbufRequest d (noteRequests q) i r (by rw [h]; exact hret)
      rw [h] at hu
      refine ⟨hu.state, hu.queuedList, hu.queuedCount, ?_, ?_⟩
      · rw [hu.usesQbuf]
        exact ⟨Or.inl, fun h => h.resolve_right fun h => Option.some_ne_none r h.2.1⟩
      · rw [hu.usesRequests]
        exact ⟨fun _ => Or.inr ⟨hm, Option.some_ne_none r⟩, fun _ => rfl⟩
  | none =>
      replace h : qbufState d (noteQbuf q i) i = (q', ret) := h
      have hnote : (noteQbuf q i).refusals = q.refusals := by
        rw [noteQbuf]
        split <;> rfl
      have hu := untouched_qbufState d (noteQbuf q i) i (by rw [h]; exact hret) (by rw [h, hnote]; exact hstart)
      rw [h] at hu
      by_cases hstate : (q.bufs i).state ≠ .inRequest
      · rw [noteQbuf, if_pos hstate] at hu
        refine ⟨hu.state, hu.queuedList, hu.queuedCount, ?_, ?_⟩
        · rw [hu.usesQbuf]
          exact ⟨fun _ => Or.inr ⟨hm, rfl, hstate⟩, fun _ => rfl⟩
        · rw [hu.usesRequests]
          exact ⟨Or.inl, fun h => h.resolve_right fun h => h.2 rfl⟩
      · rw [noteQbuf, if_neg hstate] at hu
        refine ⟨hu.state, hu.queuedList, hu.queuedCount, ?_, ?_⟩
        · rw [hu.usesQbuf]
          exact ⟨Or.inl, fun h => h.resolve_right fun h => hstate h.2.2⟩
        · rw [hu.usesRequests]
          exact ⟨Or.inl, fun h => h.resolve_right fun h => h.2 rfl⟩

end Queueing

/-- A queue with one buffer that is dequeued, and a request that is queued. -/
def oneBuffer (streaming : Bool) : CoreQueue where
  error := false
  requiresRequests := false
  usesQbuf := false
  usesRequests := false
  isOutput := false
  streaming := streaming
  startStreamingCalled := false
  waitingForBuffers := true
  memory := .mmap
  minBuffersNeeded := 1
  queuedCount := 0
  ownedByDrvCount := 0
  numBuffers := 1
  queuedList := []
  doneList := []
  bufs := fun _ => ⟨.dequeued, false, false, 0, none, none⟩
  requests := fun _ => ⟨1, .queued, 0, 0, [], 0, fun _ => ⟨false, false⟩⟩
  refusals := 0

/-- A driver whose preparation returns `ret`, and which refuses to start and gives its buffer back as queued. -/
def refusing (ret : ℤ) : Callbacks where
  bufOutValidate := fun _ _ => 0
  fillVb2Buffer := fun _ _ => 0
  bufPrepare := fun _ _ => ret
  prepareUserptr := fun _ _ => 0
  prepareDmabuf := fun _ _ => 0
  bufQueue := fun _ _ => []
  startStreaming := fun _ => ([(0, .queued)], - EIO)

theorem qbuf_fails_refusing :
    (vb2CoreQbuf (refusing (-EINVAL)) (oneBuffer false) 0 none).1.queuedList = [] :=
  have hret : (vb2CoreQbuf (refusing (-EINVAL)) (oneBuffer false) 0 none).2 ≠ 0 := by decide +kernel
  have hstart : (vb2CoreQbuf (refusing (-EINVAL)) (oneBuffer false) 0 none).1.refusals =
      (oneBuffer false).refusals := by decide +kernel
  have hcall : vb2CoreQbuf (refusing (-EINVAL)) (oneBuffer false) 0 none =
      ((vb2CoreQbuf (refusing (-EINVAL)) (oneBuffer false) 0 none).1,
        (vb2CoreQbuf (refusing (-EINVAL)) (oneBuffer false) 0 none).2) := rfl
  (qbuf_fails hcall hret hstart).2.1

/-- Calls that fail and have an effect: with a request that cannot be updated, with a preparation that fails, and
with a driver that refuses to start. -/
theorem not_noEffect_qbuf :
    ((vb2CoreQbuf (refusing 0) (oneBuffer false) 0 (some 0)).2 = -Mc.EBUSY ∧
      (oneBuffer false).usesRequests = false ∧
      (vb2CoreQbuf (refusing 0) (oneBuffer false) 0 (some 0)).1.usesRequests = true) ∧
    ((vb2CoreQbuf (refusing (-EINVAL)) (oneBuffer false) 0 none).2 = -EINVAL ∧
      (oneBuffer false).usesQbuf = false ∧
      (vb2CoreQbuf (refusing (-EINVAL)) (oneBuffer false) 0 none).1.usesQbuf = true) ∧
    ((vb2CoreQbuf (refusing 0) (oneBuffer true) 0 none).2 = - EIO ∧
      ((vb2CoreQbuf (refusing 0) (oneBuffer true) 0 none).1.bufs 0).state = .queued ∧
      (vb2CoreQbuf (refusing 0) (oneBuffer true) 0 none).1.queuedList = [0] ∧
      (vb2CoreQbuf (refusing 0) (oneBuffer true) 0 none).1.queuedCount = 1) := by
  decide +kernel

end Vb2
end TbsMedia
