import Mathlib
import TbsMedia.Lib.Runs

/-!
# Scheduling of memory to memory jobs

The contexts of a device take turns.  A context that is ready is put on the job queue; the first context of the
queue is run when no other one is running; the driver calls back when the job is done, and a work item looks for
the next one.  A `streamoff` takes the context off the queue, or waits for its job.  Any number of threads are
inside these functions at once; what is done under `job_spinlock` is one step.

The invariant (`Scheduled`) ties the flags to the queue and to the place that each thread has reached: one
thread at most is about to start a job, and while a context waits on the queue and none is running, some thread
or the work item is on its way to run it.  Each section under the lock keeps it, whatever the other threads are
at.

* `v4l2M2mTryRun`, `v4l2M2mTryQueue`, `v4l2M2mCancelJob`, `v4l2M2mJobFinish`, `v4l2M2mDropQueue`: the sections
  under the lock.
* `m2mStep`: one step of a thread, or of what surrounds the threads.
* `Scheduling`: what is said of the flags, the queue and the context that runs.
* `scheduling_run`: it holds in every interleaving where no two `streamoff` of one context overlap.
* `not_scheduling`: it fails in one where they do.
-/

namespace TbsMedia
namespace V4l2

open Lib

abbrev CtxPtr := ℕ

/-! ## State -/

/-- The flags `TRANS_QUEUED`, `TRANS_RUNNING` and `TRANS_ABORT` of a context. -/
structure JobFlags where
  queued : Bool
  running : Bool
  abort : Bool
deriving DecidableEq

/-- One of the two queues of a context: whether it is streaming, has buffers that are ready, and is `buffered`. -/
structure QueueCtx where
  streaming : Bool
  rdy : Bool
  buffered : Bool
deriving DecidableEq

/-- The queues of a context. -/
inductive BufType where
  | output
  | capture
deriving DecidableEq

/-- What follows `__v4l2_m2m_try_queue`: `v4l2_m2m_try_run` in `v4l2_m2m_try_schedule`, and `schedule_work` in
`v4l2_m2m_job_finish`. -/
inductive After where
  | run
  | work
deriving DecidableEq

/-- Where a thread is. -/
inductive Pc where
  | idle
  /-- `__v4l2_m2m_try_queue`: the output queue is looked at. -/
  | tryQueue (c : CtxPtr) (after : After)
  /-- The capture queue is looked at. -/
  | tryQueueCap (c : CtxPtr) (after : After)
  /-- The lock is taken. -/
  | queueJob (c : CtxPtr) (after : After)
  | tryRun
  /-- A context has been selected, and the lock dropped. -/
  | deviceRun
  | scheduleWork
  /-- `v4l2_m2m_streamoff`: the job is cancelled. -/
  | cancelJob (c : CtxPtr) (type : BufType)
  | waitFinished (c : CtxPtr) (type : BufType)
  /-- `v4l2_m2m_cancel_job` has returned. -/
  | vb2Streamoff (c : CtxPtr) (type : BufType)
  | dropQueue (c : CtxPtr) (type : BufType)
deriving DecidableEq

/-- The device, its contexts, the jobs that the driver runs and the `n` threads. -/
structure M2mSys (n : ℕ) where
  jobFlags : CtxPtr → JobFlags
  outQ : CtxPtr → QueueCtx
  capQ : CtxPtr → QueueCtx
  jobQueue : List CtxPtr
  currCtx : Option CtxPtr
  /-- `job_work` is scheduled. -/
  jobWork : Bool
  /-- The contexts that `device_run` was called for, and that are not done. -/
  deviceRuns : List CtxPtr
  pc : Fin n → Pc

section Steps

variable {n : ℕ}

/-! ## Sections under the lock -/

/-- The first section of `v4l2_m2m_try_run`, and whether a context is selected. -/
def v4l2M2mTryRun (s : M2mSys n) : M2mSys n × Bool :=
  match s.currCtx, s.jobQueue with
  | none, c :: _ =>
    ({ s with
        currCtx := some c
        jobFlags := Function.update s.jobFlags c { s.jobFlags c with running := true } }, true)
  | _, _ => (s, false)

/-- The section of `__v4l2_m2m_try_queue`.  The operation `job_ready` returns `jobReady`. -/
def v4l2M2mTryQueue (s : M2mSys n) (c : CtxPtr) (jobReady : Bool) : M2mSys n :=
  if (s.jobFlags c).abort then s
  else if (s.jobFlags c).queued then s
  else if ¬ (s.outQ c).rdy ∧ ¬ (s.outQ c).buffered then s
  else if ¬ (s.capQ c).rdy ∧ ¬ (s.capQ c).buffered then s
  else if ¬ jobReady then s
  else
    { s with
      jobQueue := s.jobQueue ++ [c]
      jobFlags := Function.update s.jobFlags c { s.jobFlags c with queued := true } }

/-- The section of `v4l2_m2m_cancel_job`, and whether the job has to be waited for. -/
def v4l2M2mCancelJob (s : M2mSys n) (c : CtxPtr) : M2mSys n × Bool :=
  let s := { s with jobFlags := Function.update s.jobFlags c { s.jobFlags c with abort := true } }
  if (s.jobFlags c).running then (s, true)
  else if (s.jobFlags c).queued then
    ({ s with
        jobQueue := s.jobQueue.erase c
        jobFlags := Function.update s.jobFlags c
          { s.jobFlags c with queued := false, running := false } }, false)
  else (s, false)

/-- The section of `v4l2_m2m_job_finish`, and whether the context was the one that runs. -/
def v4l2M2mJobFinish (s : M2mSys n) (c : CtxPtr) : M2mSys n × Bool :=
  if s.currCtx ≠ some c then (s, false)
  else
    ({ s with
        jobQueue := s.jobQueue.erase c
        jobFlags := Function.update s.jobFlags c { s.jobFlags c with queued := false, running := false }
        currCtx := none }, true)

/-- A queue of a context is changed. -/
def setQueue (s : M2mSys n) (c : CtxPtr) (type : BufType) (q : QueueCtx) : M2mSys n :=
  match type with
  | .output => { s with outQ := Function.update s.outQ c q }
  | .capture => { s with capQ := Function.update s.capQ c q }

theorem setQueue_currCtx (s : M2mSys n) (c : CtxPtr) (type : BufType) (q : QueueCtx) :
    (setQueue s c type q).currCtx = s.currCtx := by
  cases type <;> rfl

def getQueueCtx (s : M2mSys n) (c : CtxPtr) : BufType → QueueCtx
  | .output => s.outQ c
  | .capture => s.capQ c

/-- The last section of `v4l2_m2m_streamoff`. -/
def v4l2M2mDropQueue (s : M2mSys n) (c : CtxPtr) (type : BufType) : M2mSys n :=
  let s := if (s.jobFlags c).queued then { s with jobQueue := s.jobQueue.erase c } else s
  let s := { s with jobFlags := Function.update s.jobFlags c ⟨false, false, false⟩ }
  let s := setQueue s c type { getQueueCtx s c type with rdy := false }
  if s.currCtx = some c then { s with currCtx := none } else s

/-! ## Steps -/

/-- A thread goes on from another place. -/
def M2mSys.goto (s : M2mSys n) (t : Fin n) (p : Pc) : M2mSys n :=
  { s with pc := Function.update s.pc t p }

def After.pc : After → Pc
  | .run => .tryRun
  | .work => .scheduleWork

/-- What happens next. -/
inductive M2mAct (n : ℕ) where
  /-- A thread calls `v4l2_m2m_try_schedule`. -/
  | trySchedule (t : Fin n) (c : CtxPtr)
  /-- A thread calls `v4l2_m2m_streamoff`. -/
  | streamoff (t : Fin n) (c : CtxPtr) (type : BufType)
  /-- A job is done, and `v4l2_m2m_job_finish` is called for it. -/
  | jobFinish (t : Fin n) (c : CtxPtr)
  /-- The work item is run. -/
  | work (t : Fin n)
  /-- A thread goes on.  `job_ready` would return `jobReady` in this step, and `vb2_streamoff` would return `ret`. -/
  | next (t : Fin n) (jobReady : Bool) (ret : ℤ)
  /-- Buffers come or go, or a queue is switched on or off by another function. -/
  | setQueue (c : CtxPtr) (type : BufType) (q : QueueCtx)

/-- A thread goes on.  Where it is about to call `device_run`, it reads `curr_ctx` once more, and would go wrong if
it were `NULL`. -/
def m2mNext (s : M2mSys n) (t : Fin n) (jobReady : Bool) (ret : ℤ) : Option (M2mSys n) :=
  match s.pc t with
  | .idle => none
  | .tryQueue c after => some (s.goto t (if (s.outQ c).streaming then .tryQueueCap c after else after.pc))
  | .tryQueueCap c after => some (s.goto t (if (s.capQ c).streaming then .queueJob c after else after.pc))
  | .queueJob c after => some ((v4l2M2mTryQueue s c jobReady).goto t after.pc)
  | .tryRun => some ((v4l2M2mTryRun s).1.goto t (if (v4l2M2mTryRun s).2 then .deviceRun else .idle))
  | .deviceRun => s.currCtx.map fun c => { s with deviceRuns := c :: s.deviceRuns }.goto t .idle
  | .scheduleWork => some ({ s with jobWork := true }.goto t .idle)
  | .cancelJob c type =>
    some ((v4l2M2mCancelJob s c).1.goto t
      (if (v4l2M2mCancelJob s c).2 then .waitFinished c type else .vb2Streamoff c type))
  | .waitFinished c type => some (if (s.jobFlags c).running then s else s.goto t (.vb2Streamoff c type))
  | .vb2Streamoff c type =>
    some (if ret ≠ 0 then s.goto t .idle
      else (setQueue s c type { getQueueCtx s c type with streaming := false }).goto t (.dropQueue c type))
  | .dropQueue c type => some ((v4l2M2mDropQueue s c type).goto t .idle)

/-- A step, or `none` where it cannot be taken. -/
def m2mStep (s : M2mSys n) : M2mAct n → Option (M2mSys n)
  | .trySchedule t c => if s.pc t = .idle then some (s.goto t (.tryQueue c .run)) else none
  | .streamoff t c type => if s.pc t = .idle then some (s.goto t (.cancelJob c type)) else none
  | .jobFinish t c =>
    if s.pc t = .idle ∧ c ∈ s.deviceRuns then
      let s := { s with deviceRuns := s.deviceRuns.erase c }
      some ((v4l2M2mJobFinish s c).1.goto t (if (v4l2M2mJobFinish s c).2 then .tryQueue c .work else .idle))
    else none
  | .work t => if s.pc t = .idle ∧ s.jobWork then some ({ s with jobWork := false }.goto t .tryRun) else none
  | .next t jobReady ret => m2mNext s t jobReady ret
  | .setQueue c type q => some (setQueue s c type q)

/-- No context is queued, and no thread is inside the functions. -/
def M2mSys.initial (n : ℕ) (outQ capQ : CtxPtr → QueueCtx) : M2mSys n where
  jobFlags := fun _ => ⟨false, false, false⟩
  outQ := outQ
  capQ := capQ
  jobQueue := []
  currCtx := none
  jobWork := false
  deviceRuns := []
  pc := fun _ => .idle

/-! ## What holds in an interleaving -/

/-- The context whose `streamoff` a thread is in. -/
def Pc.streamoff : Pc → Option CtxPtr
  | .cancelJob c _ => some c
  | .waitFinished c _ => some c
  | .vb2Streamoff c _ => some c
  | .dropQueue c _ => some c
  | _ => none

/-- The context of a `streamoff` whose `v4l2_m2m_cancel_job` has returned. -/
def Pc.cancelled : Pc → Option CtxPtr
  | .vb2Streamoff c _ => some c
  | .dropQueue c _ => some c
  | _ => none

/-- A thread that has to call `v4l2_m2m_try_run`, or that will schedule the work. -/
def Pc.willRun : Pc → Bool
  | .tryRun => true
  | .scheduleWork => true
  | .tryQueue _ after => decide (after = .work)
  | .tryQueueCap _ after => decide (after = .work)
  | .queueJob _ after => decide (after = .work)
  | _ => false

/-- **The scheduling works**: one context at most is running, and it is the current one and on the queue; a
context is on the queue once if it is marked so; no thread is about to start a context between a cancelled job and
the end of that `streamoff`; and while no context is running but one is queued, something is there to run it. -/
structure Scheduling (s : M2mSys n) : Prop where
  one : ∀ c c', (s.jobFlags c).running = true → (s.jobFlags c').running = true → c = c'
  running : ∀ c, (s.jobFlags c).running = true → s.currCtx = some c ∧ c ∈ s.jobQueue
  queued : ∀ c, s.jobQueue.count c = if (s.jobFlags c).queued then 1 else 0
  noStart : ∀ t t' c, s.pc t = .deviceRun → s.currCtx = some c → (s.pc t').cancelled ≠ some c
  pending : s.jobQueue ≠ [] → s.currCtx = none → s.jobWork = true ∨ ∃ t, (s.pc t).willRun = true

/-- A `streamoff` begins where no other one of the context is under way. -/
def OneStreamoff (s : M2mSys n) : M2mAct n → Prop
  | .streamoff _ c _ => ∀ t, (s.pc t).streamoff ≠ some c
  | _ => True

instance (s : M2mSys n) : ∀ e : M2mAct n, Decidable (OneStreamoff s e)
  | .streamoff _ c _ => inferInstanceAs (Decidable (∀ t, (s.pc t).streamoff ≠ some c))
  | .trySchedule .. => .isTrue trivial
  | .jobFinish .. => .isTrue trivial
  | .work .. => .isTrue trivial
  | .next .. => .isTrue trivial
  | .setQueue .. => .isTrue trivial

end Steps

/-! ## What holds between the steps -/

section Invariant

variable {n : ℕ} {s s' : M2mSys n} {t : Fin n}

/-- The context of a `streamoff` that waits for its job. -/
def Pc.waits : Pc → Option CtxPtr
  | .waitFinished c _ => some c
  | _ => none

/-- The context is not queued again when its job is done. -/
def JobFlags.Aborted (f : JobFlags) : Prop :=
  f.abort = true ∧ (f.queued = true → f.running = true)

/-- The context is not queued, and not queued again. -/
def JobFlags.Cancelled (f : JobFlags) : Prop :=
  f.abort = true ∧ f.queued = false

/-- The flags, the queue and the current context agree; there is one job, or one thread that starts it; a context
that is being cancelled is not queued again. -/
structure Scheduled (s : M2mSys n) : Prop where
  nodup : s.jobQueue.Nodup
  queued : ∀ c, c ∈ s.jobQueue ↔ (s.jobFlags c).queued = true
  running : ∀ c, (s.jobFlags c).running = true ↔ s.currCtx = some c
  onQueue : ∀ c, s.currCtx = some c → c ∈ s.jobQueue
  deviceRuns : ∀ c ∈ s.deviceRuns, s.currCtx = some c ∧ s.deviceRuns = [c]
  starts : ∀ t, s.pc t = .deviceRun → s.currCtx ≠ none ∧ s.deviceRuns = []
  oneStart : ∀ t t', s.pc t = .deviceRun → s.pc t' = .deviceRun → t = t'
  oneOff : ∀ t t' c, (s.pc t).streamoff = some c → (s.pc t').streamoff = some c → t = t'
  waits : ∀ t c, (s.pc t).waits = some c → (s.jobFlags c).Aborted
  cancelled : ∀ t c, (s.pc t).cancelled = some c → (s.jobFlags c).Cancelled
  pending : s.jobQueue ≠ [] → s.currCtx = none → s.jobWork = true ∨ ∃ t, (s.pc t).willRun = true

theorem Scheduled.initial (n : ℕ) (outQ capQ : CtxPtr → QueueCtx) : Scheduled (M2mSys.initial n outQ capQ) where
  nodup := List.nodup_nil
  queued := fun _ => iff_of_false List.not_mem_nil Bool.false_ne_true
  running := fun c => iff_of_false Bool.false_ne_true (Option.some_ne_none c).symm
  onQueue := fun c h => absurd h.symm (Option.some_ne_none c)
  deviceRuns := fun _ h => absurd h List.not_mem_nil
  starts := fun _ h => Pc.noConfusion h
  oneStart := fun _ _ h => Pc.noConfusion h
  oneOff := fun _ _ c h => absurd h.symm (Option.some_ne_none c)
  waits := fun _ c h => absurd h.symm (Option.some_ne_none c)
  cancelled := fun _ c h => absurd h.symm (Option.some_ne_none c)
  pending := fun h => absurd rfl h

/-- The invariant says how jobs are scheduled. -/
theorem Scheduled.scheduling (h : Scheduled s) : Scheduling s where
  one := fun c c' hc hc' =>
    Option.some.inj (((h.running c).mp hc).symm.trans ((h.running c').mp hc'))
  running := fun c hc => ⟨(h.running c).mp hc, h.onQueue c ((h.running c).mp hc)⟩
  queued := by
    intro c
    rw [List.Nodup.count h.nodup]
    exact if_congr (h.queued c) rfl rfl
  noStart := by
    intro t t' c _ hcurr hoff
    have hqueued := (h.queued c).mp (h.onQueue c hcurr)
    exact Bool.false_ne_true ((h.cancelled t' c hoff).2.symm.trans hqueued)
  pending := h.pending

/-- A context that has been cancelled is not the current one. -/
theorem Scheduled.not_curr_of_cancelled (h : Scheduled s) {c : CtxPtr} (hc : (s.pc t).cancelled = some c) :
    s.currCtx ≠ some c := fun hcurr =>
  Bool.false_ne_true ((h.cancelled t c hc).2.symm.trans ((h.queued c).mp (h.onQueue c hcurr)))

theorem Pc.streamoff_of_cancelled {p : Pc} {c : CtxPtr} (h : p.cancelled = some c) : p.streamoff = some c := by
  cases p <;> first | exact h | exact absurd h.symm (Option.some_ne_none c)

theorem Pc.streamoff_of_waits {p : Pc} {c : CtxPtr} (h : p.waits = some c) : p.streamoff = some c := by
  cases p <;> first | exact h | exact absurd h.symm (Option.some_ne_none c)

/-- A thread that moves on, and does not start a job, leaves those that do. -/
theorem deviceRun_update {p : Pc} (hp : p ≠ .deviceRun) {t' : Fin n}
    (ht' : Function.update s.pc t p t' = .deviceRun) : s.pc t' = .deviceRun := by
  by_cases heq : t' = t
  · rw [heq, Function.update_self] at ht'
    exact absurd ht' hp
  · rwa [Function.update_of_ne heq] at ht'

/-- A thread moves on in its `streamoff`, or into one where no other is under way. -/
theorem Scheduled.oneOff_update (h : Scheduled s) {p : Pc}
    (hoff : ∀ c, p.streamoff = some c → (s.pc t).streamoff = some c ∨ ∀ t', (s.pc t').streamoff ≠ some c)
    (t' t'' : Fin n) (c : CtxPtr) (ht' : (Function.update s.pc t p t').streamoff = some c)
    (ht'' : (Function.update s.pc t p t'').streamoff = some c) : t' = t'' := by
  by_cases heq : t' = t <;> by_cases heq' : t'' = t
  · rw [heq, heq']
  · rw [heq, Function.update_self] at ht'
    rw [Function.update_of_ne heq'] at ht''
    rw [heq]
    exact (hoff c ht').elim (fun hc => h.oneOff t t'' c hc ht'') fun hc => absurd ht'' (hc t'')
  · rw [heq', Function.update_self] at ht''
    rw [Function.update_of_ne heq] at ht'
    rw [heq']
    exact (hoff c ht'').elim (fun hc => h.oneOff t' t c ht' hc) fun hc => absurd ht' (hc t')
  · rw [Function.update_of_ne heq] at ht'
    rw [Function.update_of_ne heq'] at ht''
    exact h.oneOff t' t'' c ht' ht''

/-- The thread that will run a context is still there. -/
theorem Scheduled.pending_goto (h : Scheduled s) {p : Pc}
    (hp : (s.pc t).willRun = true → p.willRun = true ∨ s.jobWork = true ∨ s.jobQueue = [] ∨ s.currCtx ≠ none)
    (hne : s.jobQueue ≠ []) (hnone : s.currCtx = none) :
    s.jobWork = true ∨ ∃ t', (Function.update s.pc t p t').willRun = true := by
  rcases h.pending hne hnone with hwork | ⟨t', ht'⟩
  · exact Or.inl hwork
  · by_cases heq : t' = t
    · rw [heq] at ht'
      rcases hp ht' with hp | hp | hp | hp
      · exact Or.inr ⟨t, by rw [Function.update_self]; exact hp⟩
      · exact Or.inl hp
      · exact absurd hp hne
      · exact absurd hnone hp
    · exact Or.inr ⟨t', by rw [Function.update_of_ne heq]; exact ht'⟩

/-- **A thread moves on**, and nothing else changes but the queues of buffers. -/
theorem Scheduled.goto (h : Scheduled s) {p : Pc} (hp : p ≠ .deviceRun)
    (hoff : ∀ c, p.streamoff = some c → (s.pc t).streamoff = some c ∨ ∀ t', (s.pc t').streamoff ≠ some c)
    (hwaits : p.waits = none)
    (hcancelled : ∀ c, p.cancelled = some c → (s.jobFlags c).Cancelled)
    (hpending : (s.pc t).willRun = true →
      p.willRun = true ∨ s.jobWork = true ∨ s.jobQueue = [] ∨ s.currCtx ≠ none) :
    Scheduled (s.goto t p) where
  nodup := h.nodup
  queued := h.queued
  running := h.running
  onQueue := h.onQueue
  deviceRuns := h.deviceRuns
  starts := fun t' ht' => h.starts t' (deviceRun_update hp ht')
  oneStart := fun t' t'' ht' ht'' => h.oneStart t' t'' (deviceRun_update hp ht') (deviceRun_update hp ht'')
  oneOff := h.oneOff_update hoff
  waits := by
    intro t' c ht'
    change (Function.update s.pc t p t').waits = some c at ht'
    by_cases heq : t' = t
    · rw [heq, Function.update_self, hwaits] at ht'
      exact absurd ht'.symm (Option.some_ne_none c)
    · rw [Function.update_of_ne heq] at ht'
      exact h.waits t' c ht'
  cancelled := by
    intro t' c ht'
    change (Function.update s.pc t p t').cancelled = some c at ht'
    by_cases heq : t' = t
    · rw [heq, Function.update_self] at ht'
      exact hcancelled c ht'
    · rw [Function.update_of_ne heq] at ht'
      exact h.cancelled t' c ht'
  pending := h.pending_goto hpending

/-- The queues of buffers do not matter. -/
theorem Scheduled.setQueue (h : Scheduled s) (c : CtxPtr) (type : BufType) (q : QueueCtx) :
    Scheduled (setQueue s c type q) := by
  cases type <;>
  exact ⟨h.nodup, h.queued, h.running, h.onQueue, h.deviceRuns, h.starts, h.oneStart, h.oneOff, h.waits,
    h.cancelled, h.pending⟩

/-! ## The flags of one context change -/

theorem forall_selected_update {Q : JobFlags → Prop} {sel : Pc → Option CtxPtr} {p : Pc} {c : CtxPtr} {f : JobFlags}
    (hold : ∀ t' c', sel (s.pc t') = some c' → Q (s.jobFlags c'))
    (hp : ∀ c', sel p = some c' → Q (Function.update s.jobFlags c f c'))
    (hc : ∀ t', t' ≠ t → sel (s.pc t') = some c → Q f) (t' : Fin n) (c' : CtxPtr)
    (ht' : sel (Function.update s.pc t p t') = some c') : Q (Function.update s.jobFlags c f c') := by
  by_cases heq : t' = t
  · rw [heq, Function.update_self] at ht'
    exact hp c' ht'
  · rw [Function.update_of_ne heq] at ht'
    by_cases hcc : c' = c
    · rw [hcc] at ht' ⊢
      rw [Function.update_self]
      exact hc t' heq ht'
    · rw [Function.update_of_ne hcc]
      exact hold t' c' ht'

theorem Scheduled.queued_update (h : Scheduled s) {c : CtxPtr} {f : JobFlags} {q : List CtxPtr}
    (hother : ∀ c', c' ≠ c → (c' ∈ q ↔ c' ∈ s.jobQueue)) (hc : c ∈ q ↔ f.queued = true) (c' : CtxPtr) :
    c' ∈ q ↔ (Function.update s.jobFlags c f c').queued = true := by
  by_cases hcc : c' = c
  · rw [hcc, Function.update_self]
    exact hc
  · rw [Function.update_of_ne hcc, hother c' hcc]
    exact h.queued c'

theorem Scheduled.running_update (h : Scheduled s) {c : CtxPtr} {f : JobFlags} {curr : Option CtxPtr}
    (hother : ∀ c', c' ≠ c → (curr = some c' ↔ s.currCtx = some c')) (hc : f.running = true ↔ curr = some c)
    (c' : CtxPtr) : (Function.update s.jobFlags c f c').running = true ↔ curr = some c' := by
  by_cases hcc : c' = c
  · rw [hcc, Function.update_self]
    exact hc
  · rw [Function.update_of_ne hcc, hother c' hcc]
    exact h.running c'

/-! ## The steps keep it -/

/-- A context is queued, or nothing happens. -/
theorem v4l2M2mTryQueue_cases (s : M2mSys n) (c : CtxPtr) (jobReady : Bool) :
    v4l2M2mTryQueue s c jobReady = s ∨
      (s.jobFlags c).abort = false ∧ (s.jobFlags c).queued = false ∧ v4l2M2mTryQueue s c jobReady =
        { s with
          jobQueue := s.jobQueue ++ [c]
          jobFlags := Function.update s.jobFlags c { s.jobFlags c with queued := true } } := by
  unfold v4l2M2mTryQueue
  split
  · exact Or.inl rfl
  next habort =>
  split
  · exact Or.inl rfl
  next hqueued =>
  split
  · exact Or.inl rfl
  split
  · exact Or.inl rfl
  split
  · exact Or.inl rfl
  · exact Or.inr ⟨Bool.not_eq_true _ ▸ habort, Bool.not_eq_true _ ▸ hqueued, rfl⟩

theorem After.pc_ne_deviceRun (after : After) : after.pc ≠ .deviceRun := by
  cases after <;> exact Pc.noConfusion

theorem After.pc_streamoff (after : After) : after.pc.streamoff = none := by
  cases after <;> rfl

theorem After.pc_waits (after : After) : after.pc.waits = none := by
  cases after <;> rfl

theorem After.pc_cancelled (after : After) : after.pc.cancelled = none := by
  cases after <;> rfl

theorem After.pc_willRun (after : After) : after.pc.willRun = true := by
  cases after <;> rfl

/-- What a thread does next that is in no `streamoff` and starts nothing. -/
theorem Scheduled.goto_after (h : Scheduled s) (after : After) : Scheduled (s.goto t after.pc) := by
  refine h.goto after.pc_ne_deviceRun (fun c hc => ?_) after.pc_waits (fun c hc => ?_)
    fun _ => Or.inl after.pc_willRun
  · rw [after.pc_streamoff] at hc
    exact absurd hc.symm (Option.some_ne_none c)
  · rw [after.pc_cancelled] at hc
    exact absurd hc.symm (Option.some_ne_none c)

/-- A context is put on the queue. -/
theorem Scheduled.queueJob (h : Scheduled s) (c : CtxPtr) (jobReady : Bool) (after : After) :
    Scheduled ((v4l2M2mTryQueue s c jobReady).goto t after.pc) := by
  rcases v4l2M2mTryQueue_cases s c jobReady with heq | ⟨habort, hqueued, heq⟩
  · rw [heq]
    exact h.goto_after after
  · rw [heq]
    have hnot : c ∉ s.jobQueue := fun hmem => Bool.false_ne_true (hqueued.symm.trans ((h.queued c).mp hmem))
    have hold : ∀ t', Function.update s.pc t after.pc t' = .deviceRun → s.pc t' = .deviceRun :=
      fun _ ht' => deviceRun_update after.pc_ne_deviceRun ht'
    refine ⟨?_, h.queued_update (fun c' hcc => ?_) ?_, h.running_update (fun _ _ => Iff.rfl) ?_, fun c' hc' => ?_,
      h.deviceRuns, fun t' ht' => h.starts t' (hold t' ht'),
      fun t' t'' ht' ht'' => h.oneStart t' t'' (hold t' ht') (hold t'' ht''), h.oneOff_update fun c' hc' => ?_,
      forall_selected_update h.waits (fun c' hc' => ?_) fun t' _ ht' => ?_,
      forall_selected_update h.cancelled (fun c' hc' => ?_) fun t' _ ht' => ?_, fun _ _ => Or.inr ⟨t, ?_⟩⟩
    · exact List.nodup_append.mpr ⟨h.nodup, List.nodup_singleton c, fun x hx y hy hxy =>
        hnot (List.mem_singleton.mp hy ▸ hxy ▸ hx)⟩
    · exact List.mem_append.trans (or_iff_left fun hm => hcc (List.mem_singleton.mp hm))
    · exact iff_of_true (List.mem_append_right _ (List.mem_singleton_self c)) rfl
    · exact h.running c
    · exact List.mem_append_left _ (h.onQueue c' hc')
    · rw [after.pc_streamoff] at hc'
      exact absurd hc'.symm (Option.some_ne_none c')
    · rw [after.pc_waits] at hc'
      exact absurd hc'.symm (Option.some_ne_none c')
    · exact absurd (h.waits t' c ht').1 (habort ▸ Bool.false_ne_true)
    · rw [after.pc_cancelled] at hc'
      exact absurd hc'.symm (Option.some_ne_none c')
    · exact absurd (h.cancelled t' c ht').1 (habort ▸ Bool.false_ne_true)
    · change (Function.update s.pc t after.pc t).willRun = true
      rw [Function.update_self]
      exact after.pc_willRun

/-- The first context of the queue is selected when no context is running. -/
theorem v4l2M2mTryRun_cases (s : M2mSys n) :
    ((s.currCtx ≠ none ∨ s.jobQueue = []) ∧ v4l2M2mTryRun s = (s, false)) ∨
      ∃ c ∈ s.jobQueue, s.currCtx = none ∧ v4l2M2mTryRun s = ({ s with
        currCtx := some c
        jobFlags := Function.update s.jobFlags c { s.jobFlags c with running := true } }, true) := by
  unfold v4l2M2mTryRun
  split
  · next c rest hcurr hqueue =>
    exact Or.inr ⟨c, hqueue ▸ List.mem_cons_self .., hcurr, rfl⟩
  · next hno =>
    refine Or.inl ⟨?_, rfl⟩
    rcases hcurr : s.currCtx with _ | c
    · rcases hqueue : s.jobQueue with _ | ⟨c, rest⟩
      · exact Or.inr rfl
      · exact absurd hqueue (hno c rest hcurr)
    · exact Or.inl (Option.some_ne_none c)

/-- The next context is selected. -/
theorem Scheduled.tryRun (h : Scheduled s) :
    Scheduled ((v4l2M2mTryRun s).1.goto t (if (v4l2M2mTryRun s).2 then .deviceRun else .idle)) := by
  rcases v4l2M2mTryRun_cases s with ⟨hno, heq⟩ | ⟨c, hc, hnone, heq⟩
  · rw [heq]
    exact h.goto Pc.noConfusion (fun c hc => absurd hc.symm (Option.some_ne_none c)) rfl
      (fun c hc => absurd hc.symm (Option.some_ne_none c)) fun _ => Or.inr (Or.inr hno.symm)
  · rw [heq]
    have hruns : s.deviceRuns = [] := by
      rcases hr : s.deviceRuns with _ | ⟨d, rest⟩
      · rfl
      · have hd := (h.deviceRuns d (hr ▸ List.mem_cons_self ..)).1
        rw [hnone] at hd
        exact absurd hd.symm (Option.some_ne_none d)
    have hidle : ∀ t', s.pc t' ≠ .deviceRun := fun t' ht' => (h.starts t' ht').1 hnone
    have hthis : ∀ t', Function.update s.pc t .deviceRun t' = .deviceRun → t' = t := by
      intro t' ht'
      by_contra hne
      rw [Function.update_of_ne hne] at ht'
      exact hidle t' ht'
    refine ⟨h.nodup, h.queued_update (fun _ _ => Iff.rfl) (h.queued c),
      h.running_update (fun c' hcc => ?_) (iff_of_true rfl rfl), fun c' hc' => ?_, fun d hd => ?_,
      fun _ _ => ⟨Option.some_ne_none c, hruns⟩, fun t' t'' ht' ht'' => (hthis t' ht').trans (hthis t'' ht'').symm,
      h.oneOff_update fun c' hc' => absurd hc'.symm (Option.some_ne_none c'),
      forall_selected_update h.waits (fun c' hc' => absurd hc'.symm (Option.some_ne_none c'))
        fun t' _ ht' => ⟨(h.waits t' c ht').1, fun _ => rfl⟩,
      forall_selected_update h.cancelled (fun c' hc' => absurd hc'.symm (Option.some_ne_none c'))
        fun t' _ ht' => h.cancelled t' c ht', fun _ hcurr => absurd hcurr (Option.some_ne_none c)⟩
    · rw [hnone]
      exact iff_of_false (fun heq => hcc (Option.some.inj heq).symm) (Option.some_ne_none c').symm
    · rw [← Option.some.inj hc']
      exact hc
    · change d ∈ s.deviceRuns at hd
      rw [hruns] at hd
      exact absurd hd List.not_mem_nil

/-- A job that is finished was the current one; it leaves the queue. -/
theorem Scheduled.jobFinish (h : Scheduled s) {c : CtxPtr} (hc : c ∈ s.deviceRuns) :
    Scheduled (({ s with
      deviceRuns := s.deviceRuns.erase c
      jobQueue := s.jobQueue.erase c
      jobFlags := Function.update s.jobFlags c { s.jobFlags c with queued := false, running := false }
      currCtx := none } : M2mSys n).goto t (.tryQueue c .work)) := by
  obtain ⟨hcurr, hruns⟩ := h.deviceRuns c hc
  have hidle : ∀ t', Function.update s.pc t (.tryQueue c .work) t' ≠ .deviceRun := by
    intro t' ht'
    have hnone := (h.starts t' (deviceRun_update Pc.noConfusion ht')).2
    rw [hruns] at hnone
    exact List.cons_ne_nil c [] hnone
  refine ⟨h.nodup.erase c, h.queued_update (fun c' hcc => ?_) (iff_of_false ?_ Bool.false_ne_true),
    h.running_update (fun c' hcc => ?_) (iff_of_false Bool.false_ne_true (Option.some_ne_none c).symm),
    fun c' hc' => absurd hc'.symm (Option.some_ne_none c'), fun d hd => ?_, fun t' ht' => absurd ht' (hidle t'),
    fun t' _ ht' => absurd ht' (hidle t'),
    h.oneOff_update fun c' hc' => absurd hc'.symm (Option.some_ne_none c'),
    forall_selected_update h.waits (fun c' hc' => absurd hc'.symm (Option.some_ne_none c'))
      fun t' _ ht' => ⟨(h.waits t' c ht').1, fun hq => absurd hq Bool.false_ne_true⟩,
    forall_selected_update h.cancelled (fun c' hc' => absurd hc'.symm (Option.some_ne_none c'))
      fun t' _ ht' => ⟨(h.cancelled t' c ht').1, rfl⟩, fun _ _ => Or.inr ⟨t, ?_⟩⟩
  · exact List.mem_erase_of_ne hcc
  · exact h.nodup.not_mem_erase
  · rw [hcurr]
    exact iff_of_false (Option.some_ne_none c').symm fun heq => hcc (Option.some.inj heq).symm
  · change d ∈ s.deviceRuns.erase c at hd
    rw [hruns, List.erase_cons_head] at hd
    exact absurd hd List.not_mem_nil
  · change (Function.update s.pc t (.tryQueue c .work) t).willRun = true
    rw [Function.update_self]
    rfl

/-- `device_run` is called for the current context. -/
theorem Scheduled.deviceRun (h : Scheduled s) (ht : s.pc t = .deviceRun) {c : CtxPtr} (hc : s.currCtx = some c) :
    Scheduled (({ s with deviceRuns := c :: s.deviceRuns } : M2mSys n).goto t .idle) := by
  have hnone := (h.starts t ht).2
  have hidle : ∀ t', Function.update s.pc t .idle t' ≠ .deviceRun := by
    intro t' ht'
    have heq := h.oneStart t' t (deviceRun_update Pc.noConfusion ht') ht
    rw [heq, Function.update_self] at ht'
    exact Pc.noConfusion ht'
  have hgoto : Scheduled (s.goto t .idle) :=
    h.goto Pc.noConfusion (fun c' hc' => absurd hc'.symm (Option.some_ne_none c')) rfl
      (fun c' hc' => absurd hc'.symm (Option.some_ne_none c')) fun hw => by
        rw [ht] at hw
        exact absurd hw Bool.false_ne_true
  refine ⟨h.nodup, h.queued, h.running, h.onQueue, fun d hd => ?_, fun t' ht' => absurd ht' (hidle t'),
    hgoto.oneStart, hgoto.oneOff, hgoto.waits, hgoto.cancelled, hgoto.pending⟩
  change d ∈ c :: s.deviceRuns at hd
  change s.currCtx = some d ∧ c :: s.deviceRuns = [d]
  rw [hnone] at hd ⊢
  rw [List.mem_singleton.mp hd]
  exact ⟨hc, rfl⟩

/-- A context is cancelled, or marked while its job is done. -/
theorem v4l2M2mCancelJob_cases (s : M2mSys n) (c : CtxPtr) :
    ((s.jobFlags c).running = true ∧ v4l2M2mCancelJob s c =
      ({ s with jobFlags := Function.update s.jobFlags c { s.jobFlags c with abort := true } }, true)) ∨
    (s.jobFlags c).running = false ∧ ∃ q, (v4l2M2mCancelJob s c) =
      ({ s with
          jobQueue := q
          jobFlags := Function.update s.jobFlags c ⟨false, false, true⟩ }, false) ∧
      ((s.jobFlags c).queued = true ∧ q = s.jobQueue.erase c ∨ (s.jobFlags c).queued = false ∧ q = s.jobQueue) := by
  simp only [v4l2M2mCancelJob, Function.update_self, Function.update_idem]
  split
  · next hrunning => exact Or.inl ⟨hrunning, rfl⟩
  next hrunning =>
  rw [Bool.not_eq_true] at hrunning
  refine Or.inr ⟨hrunning, ?_⟩
  split
  · next hqueued => exact ⟨_, rfl, Or.inl ⟨hqueued, rfl⟩⟩
  · next hqueued =>
    rw [Bool.not_eq_true] at hqueued
    rw [hrunning, hqueued]
    exact ⟨_, rfl, Or.inr ⟨rfl, rfl⟩⟩

/-- A job is cancelled. -/
theorem Scheduled.cancelJob (h : Scheduled s) {c : CtxPtr} {type : BufType} (ht : s.pc t = .cancelJob c type) :
    Scheduled ((v4l2M2mCancelJob s c).1.goto t
      (if (v4l2M2mCancelJob s c).2 then .waitFinished c type else .vb2Streamoff c type)) := by
  have hoff : (s.pc t).streamoff = some c := by
    rw [ht]
    rfl
  have hwill : (s.pc t).willRun = false := by
    rw [ht]
    rfl
  have hothers : ∀ t', t' ≠ t → (s.pc t').streamoff ≠ some c := fun t' hne hc => hne (h.oneOff t' t c hc hoff)
  rcases v4l2M2mCancelJob_cases s c with ⟨hrunning, heq⟩ | ⟨hrunning, q, heq, hq⟩
  · rw [heq]
    exact ⟨h.nodup, h.queued_update (fun _ _ => Iff.rfl) (h.queued c),
      h.running_update (fun _ _ => Iff.rfl) (h.running c), h.onQueue, h.deviceRuns,
      fun t' ht' => h.starts t' (deviceRun_update Pc.noConfusion ht'),
      fun t' t'' ht' ht'' =>
        h.oneStart t' t'' (deviceRun_update Pc.noConfusion ht') (deviceRun_update Pc.noConfusion ht''),
      h.oneOff_update fun c' hc' => Or.inl (hoff.trans hc'),
      forall_selected_update h.waits
        (fun c' hc' => by
          obtain rfl := Option.some.inj hc'
          rw [Function.update_self]
          exact ⟨rfl, fun _ => hrunning⟩)
        fun t' hne ht' => absurd (Pc.streamoff_of_waits ht') (hothers t' hne),
      forall_selected_update h.cancelled (fun c' hc' => absurd hc'.symm (Option.some_ne_none c'))
        fun t' hne ht' => absurd (Pc.streamoff_of_cancelled ht') (hothers t' hne),
      h.pending_goto fun hw => absurd (hwill.symm.trans hw) Bool.false_ne_true⟩
  · rw [heq]
    have hcurr : s.currCtx ≠ some c := fun hc => Bool.false_ne_true (hrunning.symm.trans ((h.running c).mpr hc))
    have hmem : ∀ c', c' ≠ c → (c' ∈ q ↔ c' ∈ s.jobQueue) := by
      intro c' hcc
      rcases hq with ⟨-, hq⟩ | ⟨-, hq⟩
      · rw [hq]
        exact List.mem_erase_of_ne hcc
      · rw [hq]
    have hnot : c ∉ q := by
      rcases hq with ⟨-, hq⟩ | ⟨hqueued, hq⟩
      · rw [hq]
        exact h.nodup.not_mem_erase
      · rw [hq, h.queued, hqueued]
        exact Bool.false_ne_true
    have hnodup : q.Nodup := by
      rcases hq with ⟨-, hq⟩ | ⟨-, hq⟩
      · exact hq ▸ h.nodup.erase c
      · exact hq ▸ h.nodup
    have hsub : s.jobQueue = [] → q = [] := by
      intro hnil
      rcases hq with ⟨-, hq⟩ | ⟨-, hq⟩
      · rw [hq, hnil]
        rfl
      · rw [hq, hnil]
    refine ⟨hnodup, h.queued_update hmem (iff_of_false hnot Bool.false_ne_true),
      h.running_update (fun _ _ => Iff.rfl) (iff_of_false Bool.false_ne_true hcurr), fun c' hc' => ?_, h.deviceRuns,
      fun t' ht' => h.starts t' (deviceRun_update Pc.noConfusion ht'),
      fun t' t'' ht' ht'' =>
        h.oneStart t' t'' (deviceRun_update Pc.noConfusion ht') (deviceRun_update Pc.noConfusion ht''),
      h.oneOff_update fun c' hc' => Or.inl (hoff.trans hc'),
      forall_selected_update h.waits (fun c' hc' => absurd hc'.symm (Option.some_ne_none c'))
        fun t' hne ht' => absurd (Pc.streamoff_of_waits ht') (hothers t' hne),
      forall_selected_update h.cancelled
        (fun c' hc' => by
          obtain rfl := Option.some.inj hc'
          rw [Function.update_self]
          exact ⟨rfl, rfl⟩)
        fun t' hne ht' => absurd (Pc.streamoff_of_cancelled ht') (hothers t' hne),
      fun hne => h.pending_goto (fun hw => absurd (hwill.symm.trans hw) Bool.false_ne_true) fun hnil =>
        hne (hsub hnil)⟩
    · exact (hmem c' fun hcc => hcurr (hcc ▸ hc')).mpr (h.onQueue c' hc')

/-- The last section of a `streamoff`: the context is not queued any more. -/
theorem Scheduled.dropQueue (h : Scheduled s) {c : CtxPtr} {type : BufType} (ht : s.pc t = .dropQueue c type) :
    Scheduled ((v4l2M2mDropQueue s c type).goto t .idle) := by
  have hoff : (s.pc t).streamoff = some c := by
    rw [ht]
    rfl
  have hcanc : (s.pc t).cancelled = some c := by
    rw [ht]
    rfl
  have hwill : (s.pc t).willRun = false := by
    rw [ht]
    rfl
  have hothers : ∀ t', t' ≠ t → (s.pc t').streamoff ≠ some c := fun t' hne hc => hne (h.oneOff t' t c hc hoff)
  have hcurr := h.not_curr_of_cancelled hcanc
  obtain ⟨-, hqueued⟩ := h.cancelled t c hcanc
  have hnot : c ∉ s.jobQueue := fun hmem => Bool.false_ne_true (hqueued.symm.trans ((h.queued c).mp hmem))
  have hdrop : Scheduled (({ s with
      jobFlags := Function.update s.jobFlags c ⟨false, false, false⟩ } : M2mSys n).goto t .idle) :=
    ⟨h.nodup, h.queued_update (fun _ _ => Iff.rfl) (iff_of_false hnot Bool.false_ne_true),
      h.running_update (fun _ _ => Iff.rfl) (iff_of_false Bool.false_ne_true hcurr), h.onQueue, h.deviceRuns,
      fun t' ht' => h.starts t' (deviceRun_update Pc.noConfusion ht'),
      fun t' t'' ht' ht'' =>
        h.oneStart t' t'' (deviceRun_update Pc.noConfusion ht') (deviceRun_update Pc.noConfusion ht''),
      h.oneOff_update fun c' hc' => absurd hc'.symm (Option.some_ne_none c'),
      forall_selected_update h.waits (fun c' hc' => absurd hc'.symm (Option.some_ne_none c'))
        fun t' hne ht' => absurd (Pc.streamoff_of_waits ht') (hothers t' hne),
      forall_selected_update h.cancelled (fun c' hc' => absurd hc'.symm (Option.some_ne_none c'))
        fun t' hne ht' => absurd (Pc.streamoff_of_cancelled ht') (hothers t' hne),
      h.pending_goto fun hw => absurd (hwill.symm.trans hw) Bool.false_ne_true⟩
  unfold v4l2M2mDropQueue
  dsimp only
  rw [hqueued, if_neg Bool.false_ne_true]
  rw [if_neg (by rw [setQueue_currCtx]; exact hcurr)]
  cases type with
  | output => exact hdrop.setQueue c .output _
  | capture => exact hdrop.setQueue c .capture _

/-- The work item is run, and is not scheduled any more. -/
theorem Scheduled.work (h : Scheduled s) : Scheduled (({ s with jobWork := false } : M2mSys n).goto t .tryRun) := by
  have hgoto : Scheduled (s.goto t .tryRun) :=
    h.goto Pc.noConfusion (fun c hc => absurd hc.symm (Option.some_ne_none c)) rfl
      (fun c hc => absurd hc.symm (Option.some_ne_none c)) fun _ => Or.inl rfl
  refine ⟨h.nodup, h.queued, h.running, h.onQueue, h.deviceRuns, hgoto.starts, hgoto.oneStart, hgoto.oneOff,
    hgoto.waits, hgoto.cancelled, fun _ _ => Or.inr ⟨t, ?_⟩⟩
  change (Function.update s.pc t .tryRun t).willRun = true
  rw [Function.update_self]
  rfl

/-- The work is scheduled. -/
theorem Scheduled.scheduleWork (h : Scheduled s) :
    Scheduled (({ s with jobWork := true } : M2mSys n).goto t .idle) := by
  have hwork : Scheduled { s with jobWork := true } :=
    ⟨h.nodup, h.queued, h.running, h.onQueue, h.deviceRuns, h.starts, h.oneStart, h.oneOff, h.waits, h.cancelled,
      fun _ _ => Or.inl rfl⟩
  exact hwork.goto Pc.noConfusion (fun c hc => absurd hc.symm (Option.some_ne_none c)) rfl
    (fun c hc => absurd hc.symm (Option.some_ne_none c)) fun _ => Or.inr (Or.inl rfl)

/-- A thread leaves a `streamoff`. -/
theorem Scheduled.goto_idle (h : Scheduled s) (ht : (s.pc t).willRun = false) : Scheduled (s.goto t .idle) :=
  h.goto Pc.noConfusion (fun c hc => absurd hc.symm (Option.some_ne_none c)) rfl
    (fun c hc => absurd hc.symm (Option.some_ne_none c)) fun hw => absurd (ht.symm.trans hw) Bool.false_ne_true

/-- A thread goes on in a `streamoff`, whose context is cancelled. -/
theorem Scheduled.goto_cancelled (h : Scheduled s) {c : CtxPtr} {p : Pc} (hp : p.cancelled = some c)
    (hwaits : p.waits = none) (hoff : (s.pc t).streamoff = some c) (hflags : (s.jobFlags c).Cancelled) :
    Scheduled (s.goto t p) := by
  have hwill : (s.pc t).willRun = false := by
    rcases hpc : s.pc t with _ | _ | _ | _ | _ | _ | _ | _ | _ | _ | _ <;> rw [hpc] at hoff <;>
      first | rfl | exact absurd hoff.symm (Option.some_ne_none c)
  refine h.goto (fun heq => ?_) (fun c' hc' => Or.inl ?_) hwaits (fun c' hc' => ?_)
    fun hw => absurd (hwill.symm.trans hw) Bool.false_ne_true
  · rw [heq] at hp
    exact Option.some_ne_none c hp.symm
  · rw [hoff, ← hc', Pc.streamoff_of_cancelled hp]
  · rw [hp] at hc'
    exact Option.some.inj hc' ▸ hflags

/-- A thread goes on. -/
theorem Scheduled.next (h : Scheduled s) (jobReady : Bool) (ret : ℤ) (hs : m2mNext s t jobReady ret = some s') :
    Scheduled s' := by
  unfold m2mNext at hs
  split at hs
  · exact absurd hs.symm (Option.some_ne_none s')
  · next c after ht =>
    obtain rfl := Option.some.inj hs
    split
    · refine h.goto Pc.noConfusion (fun c' hc' => absurd hc'.symm (Option.some_ne_none c')) rfl
        (fun c' hc' => absurd hc'.symm (Option.some_ne_none c')) fun hw => Or.inl ?_
      rw [ht] at hw
      exact hw
    · exact h.goto_after after
  · next c after ht =>
    obtain rfl := Option.some.inj hs
    split
    · refine h.goto Pc.noConfusion (fun c' hc' => absurd hc'.symm (Option.some_ne_none c')) rfl
        (fun c' hc' => absurd hc'.symm (Option.some_ne_none c')) fun hw => Or.inl ?_
      rw [ht] at hw
      exact hw
    · exact h.goto_after after
  · next c after ht =>
    obtain rfl := Option.some.inj hs
    exact h.queueJob c jobReady after
  · obtain rfl := Option.some.inj hs
    exact h.tryRun
  · next ht =>
    obtain ⟨c, hc, rfl⟩ := Option.map_eq_some_iff.mp hs
    exact h.deviceRun ht hc
  · obtain rfl := Option.some.inj hs
    exact h.scheduleWork
  · next c type ht =>
    obtain rfl := Option.some.inj hs
    exact h.cancelJob ht
  · next c type ht =>
    obtain rfl := Option.some.inj hs
    split
    · exact h
    · next hrunning =>
      obtain ⟨habort, himp⟩ := h.waits t c (by rw [ht]; rfl)
      exact h.goto_cancelled rfl rfl (by rw [ht]; rfl)
        ⟨habort, Bool.not_eq_true _ ▸ fun hq => hrunning (himp hq)⟩
  · next c type ht =>
    obtain rfl := Option.some.inj hs
    split
    · exact h.goto_idle (by rw [ht]; rfl)
    · have hgoto : Scheduled (s.goto t (.dropQueue c type)) :=
        h.goto_cancelled rfl rfl (by rw [ht]; rfl) (h.cancelled t c (by rw [ht]; rfl))
      cases type with
      | output => exact hgoto.setQueue c .output _
      | capture => exact hgoto.setQueue c .capture _
  · next c type ht =>
    obtain rfl := Option.some.inj hs
    exact h.dropQueue ht

/-- **A step keeps the scheduling**, where a `streamoff` does not begin while another one of the context is under
way. -/
theorem Scheduled.step {e : M2mAct n} (h : Scheduled s) (he : OneStreamoff s e) (hs : m2mStep s e = some s') :
    Scheduled s' := by
  cases e with
  | trySchedule t c =>
    obtain ⟨ht, heq⟩ := Option.ite_none_right_eq_some.mp hs
    obtain rfl := Option.some.inj heq
    exact h.goto Pc.noConfusion (fun c' hc' => absurd hc'.symm (Option.some_ne_none c')) rfl
      (fun c' hc' => absurd hc'.symm (Option.some_ne_none c')) fun hw => by
        rw [ht] at hw
        exact absurd hw Bool.false_ne_true
  | streamoff t c type =>
    obtain ⟨ht, heq⟩ := Option.ite_none_right_eq_some.mp hs
    obtain rfl := Option.some.inj heq
    refine h.goto Pc.noConfusion (fun c' hc' => Or.inr ?_) rfl
      (fun c' hc' => absurd hc'.symm (Option.some_ne_none c')) fun hw => by
        rw [ht] at hw
        exact absurd hw Bool.false_ne_true
    exact Option.some.inj hc' ▸ he
  | jobFinish t c =>
    obtain ⟨⟨ht, hc⟩, heq⟩ := Option.ite_none_right_eq_some.mp hs
    have hcurr := (h.deviceRuns c hc).1
    have hfinish : v4l2M2mJobFinish { s with deviceRuns := s.deviceRuns.erase c } c = ({ s with
        deviceRuns := s.deviceRuns.erase c
        jobQueue := s.jobQueue.erase c
        jobFlags := Function.update s.jobFlags c { s.jobFlags c with queued := false, running := false }
        currCtx := none }, true) := if_neg (not_not.mpr hcurr)
    rw [hfinish, if_pos rfl] at heq
    obtain rfl := Option.some.inj heq
    exact h.jobFinish hc
  | work t =>
    obtain ⟨-, heq⟩ := Option.ite_none_right_eq_some.mp hs
    obtain rfl := Option.some.inj heq
    exact h.work
  | next t jobReady ret => exact h.next jobReady ret hs
  | setQueue c type q =>
    obtain rfl := Option.some.inj hs
    exact h.setQueue c type q

end Invariant

/-- **In every interleaving** where no two `streamoff` of one context overlap, the scheduling works. -/
theorem scheduling_run {n : ℕ} (outQ capQ : CtxPtr → QueueCtx) (es : List (M2mAct n)) (s : M2mSys n)
    (hone : Along m2mStep OneStreamoff (M2mSys.initial n outQ capQ) es)
    (h : run m2mStep (M2mSys.initial n outQ capQ) es = some s) : Scheduling s :=
  (run_inv_along (fun _ _ _ hs he ht => hs.step he ht) (Scheduled.initial n outQ capQ) hone h).scheduling

/-- Both queues of every context are streaming and `buffered`. -/
def readyQ : CtxPtr → QueueCtx := fun _ => ⟨true, true, true⟩

/-- The context 0 is run and cancelled while the context 1 waits for its turn; the job is done, the `streamoff`
ends, and the context 1 is run by the work item. -/
def takeTurns : List (M2mAct 3) :=
  [.trySchedule 0 0, .next 0 true 0, .next 0 true 0, .next 0 true 0, .next 0 true 0, .next 0 true 0,
    .trySchedule 0 1, .next 0 true 0, .next 0 true 0, .next 0 true 0, .next 0 true 0,
    .streamoff 1 0 .output, .next 1 true 0, .jobFinish 2 0, .next 1 true 0, .next 1 true 0, .next 1 true 0,
    .next 2 true 0, .next 2 true 0, .work 2, .next 2 true 0, .next 2 true 0]

theorem scheduling_takeTurns : ∃ s, run m2mStep (M2mSys.initial 3 readyQ readyQ) takeTurns = some s ∧
    s.currCtx = some 1 ∧ s.deviceRuns = [1] ∧ Scheduling s := by
  have hrun : (run m2mStep (M2mSys.initial 3 readyQ readyQ) takeTurns).map (fun s => (s.currCtx, s.deviceRuns)) =
      some (some 1, [1]) := by decide +kernel
  obtain ⟨s, hs, heq⟩ := Option.map_eq_some_iff.mp hrun
  obtain ⟨hcurr, hruns⟩ : s.currCtx = some 1 ∧ s.deviceRuns = [1] := Prod.mk.inj heq
  exact ⟨s, hs, hcurr, hruns, scheduling_run readyQ readyQ takeTurns s (by decide +kernel) hs⟩

/-! ## Two `streamoff` of one context -/

/-- The context 0 is about to be queued.  Its two queues are switched off by two threads; one of them has cancelled
the job when the other one clears the flags. -/
def overlap : List (M2mAct 3) :=
  [.trySchedule 0 0, .next 0 true 0, .next 0 true 0, .streamoff 1 0 .output, .next 1 true 0,
    .streamoff 2 0 .capture, .next 2 true 0, .next 1 true 0, .next 1 true 0, .next 0 true 0, .next 0 true 0]

/-- The context 0 is started; the context 1 is queued; the other `streamoff` ends, and then the job does. -/
def overlapEnd : List (M2mAct 3) :=
  [.next 0 true 0, .trySchedule 0 1, .next 0 true 0, .next 0 true 0, .next 0 true 0, .next 0 true 0,
    .next 2 true 0, .next 2 true 0, .jobFinish 0 0]

/-- The context 0 is run, and the context 1 queued; the first section of `v4l2_m2m_job_finish` is left. -/
def finishing : List (M2mAct 3) :=
  [.trySchedule 0 0, .next 0 true 0, .next 0 true 0, .next 0 true 0, .next 0 true 0, .next 0 true 0,
    .trySchedule 0 1, .next 0 true 0, .next 0 true 0, .next 0 true 0, .next 0 true 0, .jobFinish 2 0]

/-- **Where two `streamoff` of one context overlap**, a context is about to be started after its job was cancelled,
and a context is left on the queue that nothing will run.  Where they do not, there is a time when a context is
queued, none is running, and all that is there is a `v4l2_m2m_job_finish` that will schedule the work. -/
theorem not_scheduling :
    (∃ s, run m2mStep (M2mSys.initial 3 readyQ readyQ) overlap = some s ∧ s.pc 0 = .deviceRun ∧
      s.currCtx = some 0 ∧ (s.pc 2).cancelled = some 0) ∧
    (∃ s, run m2mStep (M2mSys.initial 3 readyQ readyQ) (overlap ++ overlapEnd) = some s ∧ s.jobQueue = [1] ∧
      s.currCtx = none ∧ s.jobWork = false ∧ ∀ t, s.pc t = .idle) ∧
    ∃ s, run m2mStep (M2mSys.initial 3 readyQ readyQ) finishing = some s ∧ s.jobQueue = [1] ∧
      s.currCtx = none ∧ s.jobWork = false ∧ ∀ t, s.pc t ≠ .tryRun := by
  have hstart : (run m2mStep (M2mSys.initial 3 readyQ readyQ) overlap).map
      (fun s => (s.pc 0, s.currCtx, (s.pc 2).cancelled)) = some (.deviceRun, some 0, some 0) := by decide +kernel
  have hlost : (run m2mStep (M2mSys.initial 3 readyQ readyQ) (overlap ++ overlapEnd)).map
      (fun s => (s.jobQueue, s.currCtx, s.jobWork, decide (∀ t, s.pc t = .idle))) = some ([1], none, false, true) := by
    decide +kernel
  have hgap : (run m2mStep (M2mSys.initial 3 readyQ readyQ) finishing).map
      (fun s => (s.jobQueue, s.currCtx, s.jobWork, decide (∀ t, s.pc t ≠ .tryRun))) =
        some ([1], none, false, true) := by decide +kernel
  refine ⟨?_, ?_, ?_⟩
  · obtain ⟨s, hs, heq⟩ := Option.map_eq_some_iff.mp hstart
    simp only [Prod.mk.injEq] at heq
    exact ⟨s, hs, heq⟩
  · obtain ⟨s, hs, heq⟩ := Option.map_eq_some_iff.mp hlost
    simp only [Prod.mk.injEq, decide_eq_true_eq] at heq
    exact ⟨s, hs, heq⟩
  · obtain ⟨s, hs, heq⟩ := Option.map_eq_some_iff.mp hgap
    simp only [Prod.mk.injEq, decide_eq_true_eq] at heq
    exact ⟨s, hs, heq⟩

end V4l2
end TbsMedia
