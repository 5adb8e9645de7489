import Mathlib
import TbsMedia.Lib.Runs

/-!
# Media requests

A media request has objects bound to it, and counts those that are not completed.  Once it is queued it is
complete when the last of them is completed or unbound, and the reference is dropped that the queue ioctl took.

The count is the number of objects of the list that are not completed (`Counted`), and the state tells whether
some of them may be, or all are (`Phases`).  A section of an object takes one from the count at most; while no
completed object is unbound from a queued request, that object was counted (`uncount_section`), and with the
last one the request is complete (`uncount_last`).

* `mediaRequestObjectBind`, `mediaRequestObjectUnbind`, `mediaRequestObjectComplete`: the sections of the
  objects, under `req->lock`.
* `reqStep`: a step of a request.
* `ExactlyCompleted`: the count is right, and the request is completed at the right step.
* `exactlyCompleted_run`: it holds of every run in which no object is unbound from a queued request after it
  has been completed.
* `not_exactlyCompleted`: a run in which one is.
-/

namespace TbsMedia
namespace Mc

open Lib

def EBUSY : ℤ := 16

/-! ## Requests and their objects -/

inductive MediaRequestState where
  | idle
  | validating
  | queued
  | complete
  | cleaning
  | updating
deriving DecidableEq

abbrev ObjPtr := ℕ

/-- A `struct media_request_object`: whether `obj->req` is the request, and whether it is completed. -/
structure MediaRequestObject where
  req : Bool
  completed : Bool

/-- A `struct media_request`, with the contents of the objects there are. -/
structure MediaRequest where
  kref : ℕ
  state : MediaRequestState
  updatingCount : UInt32
  accessCount : UInt32
  objects : List ObjPtr
  numIncompleteObjects : UInt32
  obj : ObjPtr → MediaRequestObject

/-- `media_request_lock_for_update`. -/
def mediaRequestLockForUpdate (r : MediaRequest) : MediaRequest × ℤ :=
  if r.state = .idle ∨ r.state = .updating then
    ({ r with state := .updating, updatingCount := r.updatingCount + 1 }, 0)
  else (r, -EBUSY)

/-- `media_request_unlock_for_update`. -/
def mediaRequestUnlockForUpdate (r : MediaRequest) : MediaRequest :=
  let r := { r with updatingCount := r.updatingCount - 1 }
  if r.updatingCount = 0 then { r with state := .idle } else r

/-- `media_request_lock_for_access`. -/
def mediaRequestLockForAccess (r : MediaRequest) : MediaRequest × ℤ :=
  if r.state = .complete then ({ r with accessCount := r.accessCount + 1 }, 0) else (r, -EBUSY)

/-- `media_request_unlock_for_access`. -/
def mediaRequestUnlockForAccess (r : MediaRequest) : MediaRequest :=
  if r.accessCount = 0 then r else { r with accessCount := r.accessCount - 1 }

/-- `media_request_object_bind`: buffers go behind the other objects. -/
def mediaRequestObjectBind (r : MediaRequest) (isBuffer : Bool) (o : ObjPtr) : MediaRequest × ℤ :=
  if r.state ≠ .updating then (r, -EBUSY)
  else
    ({ r with
       obj := Function.update r.obj o { r.obj o with req := true }
       objects := if isBuffer then r.objects ++ [o] else o :: r.objects
       numIncompleteObjects := r.numIncompleteObjects + 1 }, 0)

/-- There is one incomplete object less: a queued request is complete when it was the last one. -/
def uncount (r : MediaRequest) : MediaRequest × Bool :=
  let r := { r with numIncompleteObjects := r.numIncompleteObjects - 1 }
  if r.state = .queued ∧ r.numIncompleteObjects = 0 then ({ r with state := .complete }, true) else (r, false)

/-- The object leaves the list. -/
def unlink (r : MediaRequest) (o : ObjPtr) : MediaRequest :=
  { r with objects := r.objects.erase o, obj := Function.update r.obj o { r.obj o with req := false } }

/-- The section of `media_request_object_unbind`, and whether a reference is to be dropped. -/
def mediaRequestObjectUnbind (r : MediaRequest) (o : ObjPtr) : MediaRequest × Bool :=
  if (r.obj o).req = false then (r, false)
  else if r.state = .complete ∨ r.state = .validating then (unlink r o, false)
  else if r.state = .cleaning then
    if (r.obj o).completed then (unlink r o, false)
    else ({ unlink r o with numIncompleteObjects := r.numIncompleteObjects - 1 }, false)
  else if r.numIncompleteObjects = 0 then (unlink r o, false)
  else uncount (unlink r o)

/-- The object is completed. -/
def markCompleted (r : MediaRequest) (o : ObjPtr) : MediaRequest :=
  { r with obj := Function.update r.obj o { r.obj o with completed := true } }

/-- The section of `media_request_object_complete`, and whether a reference is to be dropped. -/
def mediaRequestObjectComplete (r : MediaRequest) (o : ObjPtr) : MediaRequest × Bool :=
  if (r.obj o).completed then (r, false)
  else if r.numIncompleteObjects = 0 ∨ r.state ≠ .queued then (markCompleted r o, false)
  else uncount (markCompleted r o)

/-- What `media_request_clean` leaves when all objects are unbound. -/
def cleanEnd (r : MediaRequest) : MediaRequest :=
  { r with updatingCount := 0, accessCount := 0, numIncompleteObjects := 0 }

/-- `media_request_release`, with `media_request_clean`. -/
def mediaRequestRelease (r : MediaRequest) : MediaRequest :=
  cleanEnd (r.objects.foldl (fun r o => (mediaRequestObjectUnbind r o).1) { r with state := .cleaning })

/-- The first section of `media_request_ioctl_queue`, which takes a reference, and whether it goes on. -/
def mediaRequestIoctlQueue (r : MediaRequest) : MediaRequest × Bool :=
  let r := { r with kref := r.kref + 1 }
  let r := if r.state = .idle then { r with state := .validating } else r
  (r, r.state = .validating)

/-- The second section of `media_request_ioctl_queue`, behind `req_validate`. -/
def mediaRequestValidated (r : MediaRequest) (valid : Bool) : MediaRequest :=
  { r with state := if valid then .queued else .idle }

/-- The first section of `media_request_ioctl_reinit`. -/
def mediaRequestIoctlReinit (r : MediaRequest) : MediaRequest × ℤ :=
  if r.state ≠ .idle ∧ r.state ≠ .complete then (r, -EBUSY)
  else if r.accessCount ≠ 0 then (r, -EBUSY)
  else ({ r with state := .cleaning }, 0)

/-! ## Steps -/

/-- A request, and those who use it. -/
structure ReqSys where
  req : MediaRequest
  /-- A queue ioctl of the request holds `req_queue_mutex`. -/
  queueing : Bool
  /-- A reinit ioctl unbinds the objects. -/
  reiniting : Bool
  /-- The references of others than the queue ioctl. -/
  holders : ℕ
  /-- The references that queue ioctls took, and those that were dropped. -/
  taken : ℕ
  dropped : ℕ
  /-- The calls that have yet to drop a reference that a queue ioctl took. -/
  puts : ℕ
  freed : Bool

/-- What happens next. -/
inductive ReqAct where
  | lockForUpdate
  | unlockForUpdate
  | lockForAccess
  | unlockForAccess
  | bind (isBuffer : Bool) (o : ObjPtr)
  | unbind (o : ObjPtr)
  | complete (o : ObjPtr)
  | queue
  | validated (valid : Bool)
  | queued
  | reinit
  | reinitDone
  | putQueued
  | get
  | put

/-- `media_request_put`: the last reference frees the request. -/
def mediaRequestPut (s : ReqSys) : ReqSys :=
  let r := { s.req with kref := s.req.kref - 1 }
  if r.kref = 0 then { s with req := mediaRequestRelease r, freed := true } else { s with req := r }

/-- A section is left, and a reference is to be dropped or not. -/
def ReqSys.leave (s : ReqSys) (r : MediaRequest × Bool) : ReqSys :=
  { s with req := r.1, puts := if r.2 then s.puts + 1 else s.puts }

/-- A reference is held while the request is reinitialised, updated or accessed. -/
def InUse (s : ReqSys) : Prop :=
  s.reiniting ∨ s.req.updatingCount ≠ 0 ∨ s.req.accessCount ≠ 0

instance (s : ReqSys) : Decidable (InUse s) :=
  inferInstanceAs (Decidable (_ ∨ _))

/-- A step of a request that has not been freed, or `none` where nothing of the kind can happen.  Objects are
bound as `media_request_object_init` leaves them; they are completed while the request is queued, and not
unbound while it is validated.  These are guards of the model and not of the code: it has warnings for some of them, and
it reads `obj->req` before it takes the lock, so that an object must not be completed while it is being unbound. -/
def reqStep (s : ReqSys) (e : ReqAct) : Option ReqSys :=
  if s.freed then none
  else match e with
  | .lockForUpdate =>
    if 0 < s.holders then some { s with req := (mediaRequestLockForUpdate s.req).1 } else none
  | .unlockForUpdate =>
    if s.req.updatingCount = 0 then none else some { s with req := mediaRequestUnlockForUpdate s.req }
  | .lockForAccess => if 0 < s.holders then some { s with req := (mediaRequestLockForAccess s.req).1 } else none
  | .unlockForAccess => some { s with req := mediaRequestUnlockForAccess s.req }
  | .bind isBuffer o =>
    if (s.req.obj o).req = false ∧ (s.req.obj o).completed = false then
      some { s with req := (mediaRequestObjectBind s.req isBuffer o).1 }
    else none
  | .unbind o =>
    if s.req.state = .validating then none else some (s.leave (mediaRequestObjectUnbind s.req o))
  | .complete o =>
    if s.req.state = .queued ∧ (s.req.obj o).req then some (s.leave (mediaRequestObjectComplete s.req o))
    else none
  | .queue =>
    if 0 < s.holders ∧ s.queueing = false then
      let r := mediaRequestIoctlQueue s.req
      some { s with
        req := r.1
        queueing := r.2
        taken := s.taken + 1
        puts := if r.2 then s.puts else s.puts + 1 }
    else none
  | .validated valid =>
    if s.req.state = .validating then
      some { s with
        req := mediaRequestValidated s.req valid
        queueing := valid
        puts := if valid then s.puts else s.puts + 1 }
    else none
  | .queued =>
    if s.req.state = .validating then none else some { s with queueing := false }
  | .reinit =>
    if 0 < s.holders then
      let r := mediaRequestIoctlReinit s.req
      some { s with req := r.1, reiniting := if r.2 = 0 then true else s.reiniting }
    else none
  | .reinitDone =>
    if s.reiniting ∧ s.req.objects = [] then
      some { s with req := { cleanEnd s.req with state := .idle }, reiniting := false }
    else none
  | .putQueued =>
    if s.puts = 0 then none
    else some (mediaRequestPut { s with puts := s.puts - 1, dropped := s.dropped + 1 })
  | .get =>
    if 0 < s.holders then
      some { s with holders := s.holders + 1, req := { s.req with kref := s.req.kref + 1 } }
    else none
  | .put =>
    if 0 < s.holders ∧ (InUse s → 1 < s.holders) then some (mediaRequestPut { s with holders := s.holders - 1 })
    else none

/-- A request that has just been allocated. -/
def ReqSys.initial : ReqSys where
  req :=
    { kref := 1
      state := .idle
      updatingCount := 0
      accessCount := 0
      objects := []
      numIncompleteObjects := 0
      obj := fun _ => ⟨false, false⟩ }
  queueing := false
  reiniting := false
  holders := 1
  taken := 0
  dropped := 0
  puts := 0
  freed := false

/-! ## What is to hold -/

/-- The number of bound objects that are not completed. -/
def incomplete (r : MediaRequest) : ℕ :=
  r.objects.countP fun o => !(r.obj o).completed

/-- The reference that a queue ioctl holds. -/
def queueRef (r : MediaRequest) : ℕ :=
  if r.state = .validating ∨ r.state = .queued then 1 else 0

/-- The step completes or unbinds the last object that is not completed. -/
def CompletesLast (s : ReqSys) (e : ReqAct) : Prop :=
  ∃ o, (e = .complete o ∨ e = .unbind o) ∧ o ∈ s.req.objects ∧ (s.req.obj o).completed = false ∧
    ∀ o' ∈ s.req.objects, o' ≠ o → (s.req.obj o').completed = true

/-- No object is unbound from a queued request after it has been completed, and the objects can be counted. -/
def InOrder (s : ReqSys) : ReqAct → Prop
  | .bind _ _ => s.req.objects.length + 1 < 2 ^ 32
  | .unbind o => s.req.state = .queued → (s.req.obj o).req = true → (s.req.obj o).completed = false
  | _ => True

instance (s : ReqSys) : (e : ReqAct) → Decidable (InOrder s e)
  | .bind _ _ => inferInstanceAs (Decidable (_ < _))
  | .unbind _ => inferInstanceAs (Decidable (_ → _ → _))
  | .lockForUpdate | .unlockForUpdate | .lockForAccess | .unlockForAccess | .complete _ | .queue | .validated _
  | .queued | .reinit | .reinitDone | .putQueued | .get | .put => inferInstanceAs (Decidable True)

/-- **Completion is exact**: the incomplete objects are counted; a complete request has none; each reference that
a queue ioctl took is held until the request is no longer validated or queued, and dropped once from then on;
and a queued request becomes complete at the step that completes or unbinds its last incomplete object. -/
structure ExactlyCompleted (s : ReqSys) : Prop where
  counted : s.req.numIncompleteObjects.toNat = incomplete s.req
  complete : s.req.state = .complete → ∀ o ∈ s.req.objects, (s.req.obj o).completed = true
  refs : s.taken = s.dropped + s.puts + queueRef s.req
  kref : s.freed = false → s.req.kref = s.holders + s.puts + queueRef s.req
  last : ∀ e t, InOrder s e → reqStep s e = some t → s.req.state = .queued →
    (t.req.state = .complete ↔ CompletesLast s e) ∧ (t.req.state ≠ .complete → t.req.state = .queued)

/-! ## The count -/

/-- The objects of the list are the bound ones, and the count is the number of those that are not completed. -/
structure Counted (r : MediaRequest) : Prop where
  nodup : r.objects.Nodup
  bound : ∀ o, o ∈ r.objects ↔ (r.obj o).req = true
  few : r.objects.length < 2 ^ 32
  count : r.numIncompleteObjects.toNat = incomplete r

section Count

variable {r : MediaRequest} {o : ObjPtr}

/-- The state and the other counts are no business of the objects. -/
theorem Counted.of_eq {r' : MediaRequest} (h : Counted r) (ho : r'.objects = r.objects) (hobj : r'.obj = r.obj)
    (hn : r'.numIncompleteObjects = r.numIncompleteObjects) : Counted r' where
  nodup := ho.symm ▸ h.nodup
  bound := by
    intro o
    rw [ho, hobj]
    exact h.bound o
  few := ho.symm ▸ h.few
  count := by
    unfold incomplete
    rw [ho, hobj, hn]
    exact h.count

theorem Counted.incomplete_lt (h : Counted r) : incomplete r < 2 ^ 32 :=
  Nat.lt_of_le_of_lt (List.countP_le_length ..) h.few

theorem sub_one_toNat {n : UInt32} (h : n ≠ 0) : (n - 1).toNat + 1 = n.toNat := by
  have hpos : n.toNat ≠ 0 := fun hz => h (UInt32.toNat_inj.mp hz)
  have hlt := n.toNat_lt
  rw [UInt32.toNat_sub]
  change (2 ^ 32 - 1 + n.toNat) % 2 ^ 32 + 1 = n.toNat
  omega

/-- There is an incomplete object to be counted. -/
theorem Counted.num_ne_zero (h : Counted r) (ho : o ∈ r.objects) (hc : (r.obj o).completed = false) :
    r.numIncompleteObjects ≠ 0 := by
  intro hz
  have hcount := h.count
  rw [hz] at hcount
  have hnone := List.countP_eq_zero.mp hcount.symm o ho
  rw [hc] at hnone
  exact hnone rfl

theorem unlink_completed (r : MediaRequest) (o o' : ObjPtr) :
    ((unlink r o).obj o').completed = (r.obj o').completed := by
  change (Function.update r.obj o { r.obj o with req := false } o').completed = _
  by_cases h : o' = o
  · rw [h, Function.update_self]
  · rw [Function.update_of_ne h]

/-- An object leaves the list. -/
theorem incomplete_unlink (ho : o ∈ r.objects) :
    incomplete (unlink r o) + (if (r.obj o).completed then 0 else 1) = incomplete r := by
  have hfun : (fun o' => !((unlink r o).obj o').completed) = fun o' => !(r.obj o').completed :=
    funext fun o' => by rw [unlink_completed]
  have hperm := List.perm_cons_erase ho
  have hsplit : incomplete r = List.countP (fun o' => !(r.obj o').completed) (o :: r.objects.erase o) :=
    hperm.countP_eq _
  unfold incomplete at hsplit ⊢
  rw [hfun, hsplit, List.countP_cons]
  cases (r.obj o).completed <;> rfl

/-- All but the count is right once the object is unlinked. -/
theorem Counted.unlink (h : Counted r) {n : UInt32} (hn : n.toNat = incomplete (unlink r o)) :
    Counted { unlink r o with numIncompleteObjects := n } where
  nodup := h.nodup.erase o
  bound := by
    intro o'
    change o' ∈ r.objects.erase o ↔ (Function.update r.obj o { r.obj o with req := false } o').req = true
    rw [h.nodup.mem_erase_iff]
    by_cases heq : o' = o
    · rw [heq, Function.update_self]
      simp
    · rw [Function.update_of_ne heq, ← h.bound o']
      exact and_iff_right heq
  few := Nat.lt_of_le_of_lt List.length_erase_le h.few
  count := hn

/-- An object is completed. -/
theorem incomplete_markCompleted (h : Counted r) (ho : o ∈ r.objects) (hc : (r.obj o).completed = false) :
    incomplete (markCompleted r o) + 1 = incomplete r := by
  have hperm := List.perm_cons_erase ho
  have hsplit : incomplete r = List.countP (fun o' => !(r.obj o').completed) (o :: r.objects.erase o) :=
    hperm.countP_eq _
  have hsplit' : incomplete (markCompleted r o) =
      List.countP (fun o' => !((markCompleted r o).obj o').completed) (o :: r.objects.erase o) :=
    hperm.countP_eq _
  have hself : ((markCompleted r o).obj o).completed = true := by
    unfold markCompleted
    simp
  have hrest : List.countP (fun o' => !((markCompleted r o).obj o').completed) (r.objects.erase o) =
      List.countP (fun o' => !(r.obj o').completed) (r.objects.erase o) := by
    refine List.countP_congr fun o' ho' => ?_
    have hne : o' ≠ o := (h.nodup.mem_erase_iff.mp ho').1
    change (!(Function.update r.obj o { r.obj o with completed := true } o').completed) = true ↔ _
    rw [Function.update_of_ne hne]
  rw [hsplit, hsplit', List.countP_cons, List.countP_cons, hrest, hself, hc]
  simp

theorem Counted.markCompleted (h : Counted r) {n : UInt32} (hn : n.toNat = incomplete (markCompleted r o)) :
    Counted { markCompleted r o with numIncompleteObjects := n } where
  nodup := h.nodup
  bound := by
    intro o'
    change o' ∈ r.objects ↔ (Function.update r.obj o { r.obj o with completed := true } o').req = true
    rw [h.bound o']
    by_cases heq : o' = o
    · rw [heq, Function.update_self]
    · rw [Function.update_of_ne heq]
  few := h.few
  count := hn

/-- An object is bound. -/
theorem Counted.bind (h : Counted r) (hreq : (r.obj o).req = false) (hc : (r.obj o).completed = false)
    (hfew : r.objects.length + 1 < 2 ^ 32) (isBuffer : Bool) : Counted (mediaRequestObjectBind r isBuffer o).1 := by
  unfold mediaRequestObjectBind
  split
  · exact h
  · have ho : o ∉ r.objects := fun hmem => Bool.false_ne_true (hreq.symm.trans ((h.bound o).mp hmem))
    have hperm : (if isBuffer then r.objects ++ [o] else o :: r.objects).Perm (o :: r.objects) := by
      split
      · exact List.perm_append_singleton o r.objects
      · exact List.Perm.refl _
    have hlt := h.incomplete_lt
    refine ⟨hperm.nodup_iff.mpr (List.nodup_cons.mpr ⟨ho, h.nodup⟩), fun o' => ?_, ?_, ?_⟩
    · dsimp only
      rw [hperm.mem_iff, List.mem_cons]
      by_cases heq : o' = o
      · rw [heq, Function.update_self]
        simp
      · rw [Function.update_of_ne heq, h.bound o']
        exact or_iff_right heq
    · dsimp only
      rw [hperm.length_eq]
      exact hfew
    · unfold incomplete
      dsimp only
      have hself : (Function.update r.obj o { r.obj o with req := true } o).completed = false := by
        rw [Function.update_self]
        exact hc
      have hold : List.countP (fun o' => !(Function.update r.obj o { r.obj o with req := true } o').completed)
          r.objects = incomplete r := by
        refine List.countP_congr fun o' ho' => ?_
        have hne : o' ≠ o := fun heq => ho (heq ▸ ho')
        rw [Function.update_of_ne hne]
      have hle : incomplete r ≤ r.objects.length := List.countP_le_length ..
      rw [hperm.countP_eq, List.countP_cons, hold, hself, UInt32.toNat_add, h.count]
      change (incomplete r + 1) % 2 ^ 32 = incomplete r + 1
      omega

/-- The count goes down by one, and the request is complete at zero. -/
theorem uncount_fst (r : MediaRequest) : (uncount r).1 = { r with
    numIncompleteObjects := r.numIncompleteObjects - 1
    state := if r.state = .queued ∧ r.numIncompleteObjects - 1 = 0 then .complete else r.state } := by
  unfold uncount
  dsimp only
  split <;> rfl

theorem uncount_snd (r : MediaRequest) :
    (uncount r).2 = true ↔ r.state = .queued ∧ r.numIncompleteObjects - 1 = 0 := by
  unfold uncount
  dsimp only
  split
  · next h => exact iff_of_true rfl h
  · next h => exact iff_of_false Bool.false_ne_true h

end Count

/-! ## The sections of the objects -/

/-- What the state of a request says of its objects, and of those who update it. -/
structure Phases (r : MediaRequest) : Prop where
  fresh : r.state = .idle ∨ r.state = .validating ∨ r.state = .updating →
    ∀ o ∈ r.objects, (r.obj o).completed = false
  complete : r.state = .complete → ∀ o ∈ r.objects, (r.obj o).completed = true
  updating : r.updatingCount ≠ 0 → r.state = .updating

/-- What a section of the objects leaves, and whether a reference is to be dropped. -/
structure Section (r : MediaRequest) (x : MediaRequest × Bool) : Prop where
  counted : Counted x.1
  phases : Phases x.1
  kref : x.1.kref = r.kref
  refs : queueRef x.1 + (if x.2 then 1 else 0) = queueRef r
  cleaning : r.state = .cleaning → x.1.state = .cleaning

section Sections

variable {r : MediaRequest} {o : ObjPtr}

/-- The incomplete objects are none when all are completed. -/
theorem incomplete_eq_zero (r : MediaRequest) : incomplete r = 0 ↔ ∀ o ∈ r.objects, (r.obj o).completed = true := by
  unfold incomplete
  rw [List.countP_eq_zero]
  refine forall₂_congr fun o _ => ?_
  cases (r.obj o).completed <;> simp

theorem Section.unchanged (hc : Counted r) (hp : Phases r) : Section r (r, false) :=
  ⟨hc, hp, rfl, rfl, id⟩

/-- Unlinking leaves the phases. -/
theorem Phases.unlink (h : Phases r) {n : UInt32} : Phases { unlink r o with numIncompleteObjects := n } where
  fresh := fun hs o' ho' => (unlink_completed r o o').trans (h.fresh hs o' (List.mem_of_mem_erase ho'))
  complete := fun hs o' ho' => (unlink_completed r o o').trans (h.complete hs o' (List.mem_of_mem_erase ho'))
  updating := h.updating

/-- One object less is counted, in a request that is idle, updated or queued. -/
theorem uncount_section {r₁ : MediaRequest} (hc : Counted { r₁ with numIncompleteObjects := r₁.numIncompleteObjects - 1 })
    (hp : Phases { r₁ with numIncompleteObjects := r₁.numIncompleteObjects - 1 }) (hkref : r₁.kref = r.kref)
    (hstate : r₁.state = r.state) : Section r (uncount r₁) := by
  have hfst := uncount_fst r₁
  have hsnd := uncount_snd r₁
  by_cases hlast : r₁.state = .queued ∧ r₁.numIncompleteObjects - 1 = 0
  · rw [if_pos hlast] at hfst
    have hall : ∀ o ∈ r₁.objects, (r₁.obj o).completed = true := by
      refine (incomplete_eq_zero { r₁ with numIncompleteObjects := r₁.numIncompleteObjects - 1 }).mp ?_
      rw [← hc.count]
      exact congrArg UInt32.toNat hlast.2
    have hzero : (uncount r₁).1.updatingCount = 0 := by
      rw [hfst]
      by_contra hne
      exact absurd (hlast.1.symm.trans (hp.updating hne)) (by decide)
    refine ⟨?_, ⟨fun h => ?_, fun _ => ?_, fun h => absurd hzero h⟩, ?_, ?_, fun h => ?_⟩
    · rw [hfst]
      exact hc.of_eq rfl rfl rfl
    · rw [hfst] at h
      rcases h with h | h | h <;> cases h
    · rw [hfst]
      exact hall
    · rw [hfst]
      exact hkref
    · rw [hfst, if_pos (hsnd.mpr hlast)]
      unfold queueRef
      rw [← hstate, hlast.1]
      rfl
    · exact absurd (h.symm.trans (hstate.symm.trans hlast.1)) (by decide)
  · rw [if_neg hlast] at hfst
    refine ⟨by rw [hfst]; exact hc, by rw [hfst]; exact hp, by rw [hfst]; exact hkref, ?_, fun h => ?_⟩
    · rw [hfst, if_neg fun h => hlast (hsnd.mp h)]
      unfold queueRef
      rw [hstate]
      rfl
    · rw [hfst]
      exact hstate.trans h

/-- **An object is unbound.** -/
theorem unbind_section (hc : Counted r) (hp : Phases r) (hval : r.state ≠ .validating)
    (hin : r.state = .queued → (r.obj o).req = true → (r.obj o).completed = false) :
    Section r (mediaRequestObjectUnbind r o) := by
  unfold mediaRequestObjectUnbind
  split
  · exact Section.unchanged hc hp
  next hreq =>
  have hreq : (r.obj o).req = true := Bool.not_eq_false _ ▸ hreq
  have ho : o ∈ r.objects := (hc.bound o).mpr hreq
  have hinc := incomplete_unlink ho
  split
  · next hstate =>
    have hdone : (r.obj o).completed = true := hp.complete (hstate.resolve_right hval) o ho
    rw [if_pos hdone] at hinc
    exact ⟨hc.unlink (n := r.numIncompleteObjects) (hc.count.trans hinc.symm), hp.unlink, rfl, rfl, id⟩
  next hnot =>
  split
  · next hclean =>
    split
    · next hdone =>
      rw [if_pos hdone] at hinc
      exact ⟨hc.unlink (n := r.numIncompleteObjects) (hc.count.trans hinc.symm), hp.unlink, rfl, rfl, id⟩
    · next hdone =>
      rw [if_neg hdone] at hinc
      have hsub := sub_one_toNat (hc.num_ne_zero ho (Bool.eq_false_iff.mpr hdone))
      have hcount := hc.count
      exact ⟨hc.unlink (by omega), hp.unlink, rfl, rfl, id⟩
  next hclean =>
  have hdone : (r.obj o).completed = false := by
    rcases hs : r.state with _ | _ | _ | _ | _ | _
    · exact hp.fresh (Or.inl hs) o ho
    · exact absurd hs hval
    · exact hin hs hreq
    · exact absurd (Or.inl hs) hnot
    · exact absurd hs hclean
    · exact hp.fresh (Or.inr (Or.inr hs)) o ho
  have hnum := hc.num_ne_zero ho hdone
  rw [if_neg (Bool.eq_false_iff.mp hdone)] at hinc
  have hsub := sub_one_toNat hnum
  have hcount := hc.count
  rw [if_neg hnum]
  exact uncount_section (hc.unlink (by change (r.numIncompleteObjects - 1).toNat = _; omega)) hp.unlink rfl rfl

/-- **An object of a queued request is completed.** -/
theorem complete_section (hc : Counted r) (hp : Phases r) (hq : r.state = .queued) (hreq : (r.obj o).req = true) :
    Section r (mediaRequestObjectComplete r o) := by
  unfold mediaRequestObjectComplete
  split
  · exact Section.unchanged hc hp
  next hdone =>
  have hdone : (r.obj o).completed = false := Bool.eq_false_iff.mpr hdone
  have ho : o ∈ r.objects := (hc.bound o).mpr hreq
  have hinc := incomplete_markCompleted hc ho hdone
  have hnum := hc.num_ne_zero ho hdone
  have hsub := sub_one_toNat hnum
  have hcount := hc.count
  rw [if_neg fun h => h.elim hnum fun hne => hne hq]
  refine uncount_section (hc.markCompleted (by change (r.numIncompleteObjects - 1).toNat = _; omega)) ?_ rfl rfl
  refine ⟨fun h => ?_, fun h => ?_, hp.updating⟩
  · change r.state = _ ∨ r.state = _ ∨ r.state = _ at h
    rw [hq] at h
    rcases h with h | h | h <;> exact absurd h (by decide)
  · exact absurd (hq.symm.trans h) (by decide)

/-- In a request that is released, objects are unbound one after the other. -/
theorem released_section (l : List ObjPtr) (hc : Counted r) (hp : Phases r) (hclean : r.state = .cleaning) :
    Counted (l.foldl (fun r o => (mediaRequestObjectUnbind r o).1) r) ∧
      (l.foldl (fun r o => (mediaRequestObjectUnbind r o).1) r).state = .cleaning ∧
      ∀ o, o ∈ (l.foldl (fun r o => (mediaRequestObjectUnbind r o).1) r).objects ↔ o ∈ r.objects ∧ o ∉ l := by
  induction l generalizing r with
  | nil => exact ⟨hc, hclean, fun o => by simp⟩
  | cons o l ih =>
    have hs := unbind_section (o := o) hc hp (by rw [hclean]; decide) fun h => absurd (hclean.symm.trans h) (by decide)
    obtain ⟨hc', hclean', hmem⟩ := ih hs.counted hs.phases (hs.cleaning hclean)
    refine ⟨hc', hclean', fun o' => ?_⟩
    rw [List.foldl_cons, hmem, List.mem_cons, not_or]
    have hunbound : o' ∈ (mediaRequestObjectUnbind r o).1.objects ↔ o' ∈ r.objects ∧ o' ≠ o := by
      have herase : o' ∈ (unlink r o).objects ↔ o' ∈ r.objects ∧ o' ≠ o := by
        change o' ∈ r.objects.erase o ↔ _
        rw [hc.nodup.mem_erase_iff, and_comm]
      unfold mediaRequestObjectUnbind
      split
      · next hreq =>
        refine (and_iff_left_of_imp fun ho' heq => ?_).symm
        rw [heq, hc.bound o, hreq] at ho'
        exact Bool.false_ne_true ho'
      · have hopen : ¬ (r.state = .complete ∨ r.state = .validating) := by rw [hclean]; decide
        rw [if_neg hopen]
        split
        · exact herase
        · exact herase
    rw [hunbound, and_assoc]

/-- **A request is released**: no object is bound any more. -/
theorem mediaRequestRelease_spec (hc : Counted r) (hp : Phases { r with state := .cleaning }) :
    Counted (mediaRequestRelease r) ∧ Phases (mediaRequestRelease r) ∧ (mediaRequestRelease r).state = .cleaning := by
  have hc₁ : Counted { r with state := .cleaning } := hc.of_eq rfl rfl rfl
  obtain ⟨hc', hclean, hmem⟩ := released_section r.objects hc₁ hp rfl
  unfold mediaRequestRelease
  generalize r.objects.foldl (fun r o => (mediaRequestObjectUnbind r o).1) { r with state := .cleaning } = r' at *
  have hnone : r'.objects = [] := List.eq_nil_iff_forall_not_mem.mpr fun o ho => (hmem o).mp ho |>.2 ((hmem o).mp ho).1
  refine ⟨⟨hc'.nodup, hc'.bound, hc'.few, ?_⟩, ⟨fun h => ?_, fun h => ?_, fun h => absurd rfl h⟩, hclean⟩
  · unfold incomplete cleanEnd
    dsimp only
    rw [hnone]
    rfl
  · intro o ho
    change o ∈ r'.objects at ho
    rw [hnone] at ho
    exact absurd ho List.not_mem_nil
  · exact absurd (hclean.symm.trans h) (by decide)

end Sections

/-! ## The last object -/

section Last

variable {r : MediaRequest} {o : ObjPtr}

/-- The object is the last one that is not completed. -/
def IsLast (r : MediaRequest) (o : ObjPtr) : Prop :=
  o ∈ r.objects ∧ (r.obj o).completed = false ∧ ∀ o' ∈ r.objects, o' ≠ o → (r.obj o').completed = true

/-- A queued request is complete where no object is left to be completed. -/
theorem uncount_last {u : MediaRequest} (hq : u.state = .queued)
    (hc : Counted { u with numIncompleteObjects := u.numIncompleteObjects - 1 }) :
    ((uncount u).1.state = .complete ↔ ∀ o ∈ u.objects, (u.obj o).completed = true) ∧
      ((uncount u).1.state ≠ .complete → (uncount u).1.state = .queued) := by
  have hzero : u.numIncompleteObjects - 1 = 0 ↔ ∀ o ∈ u.objects, (u.obj o).completed = true := by
    have hcount := hc.count
    have hiff := incomplete_eq_zero { u with numIncompleteObjects := u.numIncompleteObjects - 1 }
    rw [← hcount] at hiff
    exact (UInt32.toNat_inj (b := 0)).symm.trans hiff
  rw [uncount_fst, ← hzero]
  dsimp only
  by_cases h : u.numIncompleteObjects - 1 = 0
  · rw [if_pos ⟨hq, h⟩]
    exact ⟨iff_of_true rfl h, fun hne => absurd rfl hne⟩
  · rw [if_neg fun h' => h h'.2, hq]
    exact ⟨iff_of_false (by decide) h, fun _ => rfl⟩

/-- An object is unbound from a queued request. -/
theorem unbind_last (hc : Counted r) (hq : r.state = .queued)
    (hin : (r.obj o).req = true → (r.obj o).completed = false) :
    ((mediaRequestObjectUnbind r o).1.state = .complete ↔ IsLast r o) ∧
      ((mediaRequestObjectUnbind r o).1.state ≠ .complete → (mediaRequestObjectUnbind r o).1.state = .queued) := by
  by_cases hreq : (r.obj o).req = false
  · have hnot : ¬ IsLast r o := fun h => Bool.false_ne_true (hreq.symm.trans ((hc.bound o).mp h.1))
    have heq : mediaRequestObjectUnbind r o = (r, false) := if_pos hreq
    rw [heq]
    exact ⟨iff_of_false (by rw [hq]; decide) hnot, fun _ => hq⟩
  · have hbound : (r.obj o).req = true := Bool.not_eq_false _ ▸ hreq
    have hdone := hin hbound
    have ho : o ∈ r.objects := (hc.bound o).mpr hbound
    have hnum := hc.num_ne_zero ho hdone
    have heq : mediaRequestObjectUnbind r o = uncount (unlink r o) := by
      unfold mediaRequestObjectUnbind
      rw [if_neg hreq, hq, if_neg (by decide), if_neg (by decide), if_neg hnum]
    have hinc := incomplete_unlink ho
    rw [if_neg (Bool.eq_false_iff.mp hdone)] at hinc
    have hsub := sub_one_toNat hnum
    have hcount := hc.count
    have hlast := uncount_last (u := unlink r o) hq
      (hc.unlink (by change (r.numIncompleteObjects - 1).toNat = _; omega))
    rw [heq]
    refine ⟨hlast.1.trans ⟨fun h => ⟨ho, hdone, fun o' ho' hne => ?_⟩, fun h o' ho' => ?_⟩, hlast.2⟩
    · rw [← unlink_completed r o o']
      exact h o' (hc.nodup.mem_erase_iff.mpr ⟨hne, ho'⟩)
    · obtain ⟨hne, hmem⟩ := hc.nodup.mem_erase_iff.mp ho'
      rw [unlink_completed]
      exact h.2.2 o' hmem hne

/-- An object of a queued request is completed. -/
theorem complete_last (hc : Counted r) (hq : r.state = .queued) (hreq : (r.obj o).req = true) :
    ((mediaRequestObjectComplete r o).1.state = .complete ↔ IsLast r o) ∧
      ((mediaRequestObjectComplete r o).1.state ≠ .complete →
        (mediaRequestObjectComplete r o).1.state = .queued) := by
  have ho : o ∈ r.objects := (hc.bound o).mpr hreq
  by_cases hdone : (r.obj o).completed = true
  · have hnot : ¬ IsLast r o := fun h => Bool.false_ne_true (h.2.1.symm.trans hdone)
    have heq : mediaRequestObjectComplete r o = (r, false) := if_pos hdone
    rw [heq]
    exact ⟨iff_of_false (by rw [hq]; decide) hnot, fun _ => hq⟩
  · have hopen : (r.obj o).completed = false := Bool.eq_false_iff.mpr hdone
    have hnum := hc.num_ne_zero ho hopen
    have heq : mediaRequestObjectComplete r o = uncount (markCompleted r o) := by
      unfold mediaRequestObjectComplete
      rw [if_neg hdone, if_neg fun h => h.elim hnum fun hne => hne hq]
    have hinc := incomplete_markCompleted hc ho hopen
    have hsub := sub_one_toNat hnum
    have hcount := hc.count
    have hlast := uncount_last (u := markCompleted r o) hq
      (hc.markCompleted (by change (r.numIncompleteObjects - 1).toNat = _; omega))
    have hother : ∀ o', o' ≠ o → ((markCompleted r o).obj o').completed = (r.obj o').completed :=
      fun o' hne => congrArg MediaRequestObject.completed (Function.update_of_ne hne _ _)
    have hself : ((markCompleted r o).obj o).completed = true :=
      congrArg MediaRequestObject.completed (Function.update_self o _ r.obj)
    rw [heq]
    refine ⟨hlast.1.trans ⟨fun h => ⟨ho, hopen, fun o' ho' hne => ?_⟩, fun h o' ho' => ?_⟩, hlast.2⟩
    · rw [← hother o' hne]
      exact h o' ho'
    · by_cases hne : o' = o
      · rw [hne]
        exact hself
      · rw [hother o' hne]
        exact h.2.2 o' ho' hne

end Last

/-! ## Runs -/

/-- What holds between the steps. -/
structure Sound (s : ReqSys) : Prop where
  counted : Counted s.req
  phases : Phases s.req
  refs : s.taken = s.dropped + s.puts + queueRef s.req
  kref : s.freed = false → s.req.kref = s.holders + s.puts + queueRef s.req
  reiniting : s.freed = false → s.reiniting = true → s.req.state = .cleaning
  used : s.freed = false → InUse s → 0 < s.holders

theorem sound_initial : Sound ReqSys.initial where
  counted :=
    { nodup := List.nodup_nil
      bound := fun o => iff_of_false List.not_mem_nil Bool.false_ne_true
      few := by decide
      count := rfl }
  phases := ⟨fun _ _ ho => absurd ho List.not_mem_nil, fun _ _ ho => absurd ho List.not_mem_nil, fun h => absurd rfl h⟩
  refs := rfl
  kref := fun _ => rfl
  reiniting := fun _ h => absurd h Bool.false_ne_true
  used := fun _ _ => Nat.one_pos

/-- The phases do not depend on the count and the references. -/
theorem Phases.of_eq {r r' : MediaRequest} (h : Phases r) (hs : r'.state = r.state) (ho : r'.objects = r.objects)
    (hobj : r'.obj = r.obj) (hu : r'.updatingCount = r.updatingCount) : Phases r' := by
  refine ⟨?_, ?_, ?_⟩
  · rw [hs, ho, hobj]
    exact h.fresh
  · rw [hs, ho, hobj]
    exact h.complete
  · rw [hs, hu]
    exact h.updating

/-- A section of the objects is left. -/
theorem Sound.leave {s : ReqSys} (h : Sound s) (hf : s.freed = false) {x : MediaRequest × Bool} (hx : Section s.req x)
    (hu : x.1.updatingCount = s.req.updatingCount) (ha : x.1.accessCount = s.req.accessCount) :
    Sound (s.leave x) := by
  have hrefs := hx.refs
  have hputs : (s.leave x).puts = s.puts + (if x.2 then 1 else 0) := by
    unfold ReqSys.leave
    dsimp only
    split <;> rfl
  refine ⟨hx.counted, hx.phases, ?_, fun _ => ?_, fun _ hr => hx.cleaning (h.reiniting hf hr), fun _ hin => ?_⟩
  · rw [hputs]
    change s.taken = s.dropped + (s.puts + _) + queueRef x.1
    rw [h.refs]
    omega
  · rw [hputs]
    change x.1.kref = s.holders + (s.puts + _) + queueRef x.1
    rw [hx.kref, h.kref hf]
    omega
  · refine h.used hf ?_
    unfold InUse at hin ⊢
    rw [← hu, ← ha]
    exact hin

theorem unbind_counts (r : MediaRequest) (o : ObjPtr) :
    (mediaRequestObjectUnbind r o).1.updatingCount = r.updatingCount ∧
      (mediaRequestObjectUnbind r o).1.accessCount = r.accessCount := by
  unfold mediaRequestObjectUnbind
  repeat' split
  all_goals first | exact ⟨rfl, rfl⟩ | (rw [uncount_fst]; exact ⟨rfl, rfl⟩)

theorem complete_counts (r : MediaRequest) (o : ObjPtr) :
    (mediaRequestObjectComplete r o).1.updatingCount = r.updatingCount ∧
      (mediaRequestObjectComplete r o).1.accessCount = r.accessCount := by
  unfold mediaRequestObjectComplete
  repeat' split
  all_goals first | exact ⟨rfl, rfl⟩ | (rw [uncount_fst]; exact ⟨rfl, rfl⟩)

/-- **A reference is dropped**, and with the last one the request is released. -/
theorem sound_mediaRequestPut {s : ReqSys} (hc : Counted s.req) (hp : Phases s.req)
    (hrefs : s.taken = s.dropped + s.puts + queueRef s.req)
    (hkref : s.req.kref = s.holders + s.puts + queueRef s.req + 1)
    (hre : s.reiniting = true → s.req.state = .cleaning) (hused : InUse s → 0 < s.holders) :
    Sound (mediaRequestPut s) := by
  unfold mediaRequestPut
  dsimp only
  split
  · next hzero =>
    have hholders : s.holders = 0 ∧ queueRef s.req = 0 := by omega
    have hidle : s.req.updatingCount = 0 := by
      by_contra hne
      have := hused (Or.inr (Or.inl hne))
      omega
    have hpc : Phases { s.req with kref := s.req.kref - 1, state := .cleaning } :=
      ⟨fun h => (by rcases h with h | h | h <;> cases h), fun h => (by cases h), fun h => absurd hidle h⟩
    obtain ⟨hc', hp', hclean⟩ := mediaRequestRelease_spec (r := { s.req with kref := s.req.kref - 1 })
      (hc.of_eq rfl rfl rfl) hpc
    refine ⟨hc', hp', ?_, fun h => (by cases h), fun h => (by cases h), fun h => (by cases h)⟩
    dsimp only
    rw [hrefs, hholders.2]
    unfold queueRef
    rw [hclean]
    rfl
  · refine ⟨hc.of_eq rfl rfl rfl, hp.of_eq rfl rfl rfl rfl, hrefs, fun _ => ?_, fun _ => hre, fun _ => hused⟩
    change s.req.kref - 1 = s.holders + s.puts + queueRef s.req
    omega

/-- A request that is not freed takes the step. -/
theorem reqStep_freed {s t : ReqSys} {e : ReqAct} (h : reqStep s e = some t) : s.freed = false := by
  unfold reqStep at h
  by_contra hf
  rw [if_pos (Bool.not_eq_false _ ▸ hf)] at h
  exact absurd h.symm (Option.some_ne_none t)

theorem of_ite {p : Prop} [Decidable p] {x t : ReqSys} (h : (if p then some x else none) = some t) : p ∧ x = t := by
  by_cases hp : p
  · rw [if_pos hp] at h
    exact ⟨hp, Option.some.inj h⟩
  · rw [if_neg hp] at h
    exact absurd h.symm (Option.some_ne_none t)

theorem of_ite_not {p : Prop} [Decidable p] {x t : ReqSys} (h : (if p then none else some x) = some t) :
    ¬ p ∧ x = t := by
  by_cases hp : p
  · rw [if_pos hp] at h
    exact absurd h.symm (Option.some_ne_none t)
  · rw [if_neg hp] at h
    exact ⟨hp, Option.some.inj h⟩

/-- The request is locked for an update, or is not idle. -/
theorem sound_lockForUpdate {s : ReqSys} (h : Sound s) (hf : s.freed = false) (hpos : 0 < s.holders) :
    Sound { s with req := (mediaRequestLockForUpdate s.req).1 } := by
  unfold mediaRequestLockForUpdate
  split
  · next hidle =>
    have href : queueRef s.req = 0 := by
      unfold queueRef
      rcases hidle with hs | hs <;> rw [hs] <;> rfl
    refine ⟨h.counted.of_eq rfl rfl rfl, ⟨fun _ => ?_, fun hs => (by cases hs), fun _ => rfl⟩, ?_, fun _ => ?_,
      fun _ hr => ?_, fun _ _ => hpos⟩
    · refine h.phases.fresh ?_
      rcases hidle with hs | hs
      · exact Or.inl hs
      · exact Or.inr (Or.inr hs)
    · have hrefs := h.refs
      rw [href] at hrefs
      exact hrefs
    · have hkref := h.kref hf
      rw [href] at hkref
      exact hkref
    · have hclean := h.reiniting hf hr
      rcases hidle with hs | hs <;> rw [hs] at hclean <;> cases hclean
  · exact h

theorem sound_unlockForUpdate {s : ReqSys} (h : Sound s) (hf : s.freed = false) (hne : s.req.updatingCount ≠ 0) :
    Sound { s with req := mediaRequestUnlockForUpdate s.req } := by
  have hs := h.phases.updating hne
  have href : queueRef s.req = 0 := by
    unfold queueRef
    rw [hs]
    rfl
  have hpos := h.used hf (Or.inr (Or.inl hne))
  have hre : s.reiniting = true → False := fun hr => by
    have hclean := h.reiniting hf hr
    rw [hs] at hclean
    cases hclean
  have hrefs := h.refs
  have hkref := h.kref hf
  rw [href] at hrefs hkref
  unfold mediaRequestUnlockForUpdate
  dsimp only
  split
  · next hzero =>
    exact ⟨h.counted.of_eq rfl rfl rfl, ⟨fun _ => h.phases.fresh (Or.inr (Or.inr hs)), fun h => (by cases h),
      fun hne => absurd hzero hne⟩, hrefs, fun _ => hkref, fun _ hr => (hre hr).elim, fun _ _ => hpos⟩
  · exact ⟨h.counted.of_eq rfl rfl rfl, ⟨h.phases.fresh, h.phases.complete, fun _ => hs⟩, h.refs, h.kref,
      h.reiniting, fun _ _ => hpos⟩

theorem sound_access {s : ReqSys} (h : Sound s) (n : UInt32) (hpos : s.freed = false → n ≠ 0 → 0 < s.holders) :
    Sound { s with req := { s.req with accessCount := n } } :=
  ⟨h.counted.of_eq rfl rfl rfl, h.phases.of_eq rfl rfl rfl rfl, h.refs, h.kref, h.reiniting, fun hf hin => by
    rcases hin with hr | hu | ha
    · exact h.used hf (Or.inl hr)
    · exact h.used hf (Or.inr (Or.inl hu))
    · exact hpos hf ha⟩

/-- An object is bound. -/
theorem sound_bind {s : ReqSys} (h : Sound s) {isBuffer : Bool} {o : ObjPtr} (hreq : (s.req.obj o).req = false)
    (hc : (s.req.obj o).completed = false) (hfew : s.req.objects.length + 1 < 2 ^ 32) :
    Sound { s with req := (mediaRequestObjectBind s.req isBuffer o).1 } := by
  have hcounted := h.counted.bind hreq hc hfew isBuffer
  unfold mediaRequestObjectBind at hcounted ⊢
  split
  · exact h
  · next hs =>
    rw [if_neg hs] at hcounted
    have hs : s.req.state = .updating := not_not.mp hs
    refine ⟨hcounted, ⟨fun _ o' ho' => ?_, fun hcomp => ?_, h.phases.updating⟩, h.refs, h.kref, h.reiniting, h.used⟩
    · change (Function.update s.req.obj o { s.req.obj o with req := true } o').completed = false
      by_cases heq : o' = o
      · rw [heq, Function.update_self]
        exact hc
      · rw [Function.update_of_ne heq]
        refine h.phases.fresh (Or.inr (Or.inr hs)) o' ?_
        change o' ∈ (if isBuffer then s.req.objects ++ [o] else o :: s.req.objects) at ho'
        split at ho'
        · exact (List.mem_append.mp ho').resolve_right fun hm => heq (List.mem_singleton.mp hm)
        · exact (List.mem_cons.mp ho').resolve_left heq
    · exact absurd (hs.symm.trans hcomp) (by decide)

/-- The queue ioctl takes its reference. -/
theorem sound_queue {s : ReqSys} (h : Sound s) (hf : s.freed = false) (hidle : s.req.state ≠ .validating) :
    Sound { s with
      req := (mediaRequestIoctlQueue s.req).1
      queueing := (mediaRequestIoctlQueue s.req).2
      taken := s.taken + 1
      puts := if (mediaRequestIoctlQueue s.req).2 then s.puts else s.puts + 1 } := by
  have hrefs := h.refs
  have hkref := h.kref hf
  by_cases hs : s.req.state = .idle
  · have hq : mediaRequestIoctlQueue s.req = ({ s.req with kref := s.req.kref + 1, state := .validating }, true) := by
      unfold mediaRequestIoctlQueue
      dsimp only
      rw [if_pos hs]
      rfl
    have href : queueRef s.req = 0 := by
      unfold queueRef
      rw [hs]
      rfl
    rw [href] at hrefs hkref
    rw [hq]
    refine ⟨h.counted.of_eq rfl rfl rfl, ⟨fun _ => h.phases.fresh (Or.inl hs), fun hc => (by cases hc), fun hu => ?_⟩,
      ?_, fun _ => ?_, fun _ hr => ?_, h.used⟩
    · exact absurd ((h.phases.updating hu).symm.trans hs) (by decide)
    · change s.taken + 1 = s.dropped + s.puts + 1
      omega
    · change s.req.kref + 1 = s.holders + s.puts + 1
      omega
    · exact absurd ((h.reiniting hf hr).symm.trans hs) (by decide)
  · have hq : mediaRequestIoctlQueue s.req = ({ s.req with kref := s.req.kref + 1 }, false) := by
      unfold mediaRequestIoctlQueue
      dsimp only
      rw [if_neg hs]
      exact congrArg (Prod.mk _) (decide_eq_false hidle)
    rw [hq]
    refine ⟨h.counted.of_eq rfl rfl rfl, h.phases.of_eq rfl rfl rfl rfl, ?_, fun _ => ?_, h.reiniting, h.used⟩
    · change s.taken + 1 = s.dropped + (s.puts + 1) + queueRef s.req
      omega
    · change s.req.kref + 1 = s.holders + (s.puts + 1) + queueRef s.req
      omega

/-- The request is valid, and queued, or it is idle again. -/
theorem sound_validated {s : ReqSys} (h : Sound s) (hf : s.freed = false) (hs : s.req.state = .validating)
    (valid : Bool) :
    Sound { s with
      req := mediaRequestValidated s.req valid
      queueing := valid
      puts := if valid then s.puts else s.puts + 1 } := by
  have hrefs := h.refs
  have hkref := h.kref hf
  have href : queueRef s.req = 1 := by
    unfold queueRef
    rw [hs]
    rfl
  rw [href] at hrefs hkref
  have hzero : s.req.updatingCount = 0 := by
    by_contra hne
    exact absurd ((h.phases.updating hne).symm.trans hs) (by decide)
  have hre : s.reiniting = true → False := fun hr => by
    have hclean := h.reiniting hf hr
    rw [hs] at hclean
    cases hclean
  have hfresh := h.phases.fresh (Or.inr (Or.inl hs))
  cases valid with
  | true =>
    exact ⟨h.counted.of_eq rfl rfl rfl, ⟨fun _ => hfresh, fun hc => (by cases hc), fun hu => absurd hzero hu⟩, hrefs,
      fun _ => hkref, fun _ hr => (hre hr).elim, h.used⟩
  | false =>
    exact ⟨h.counted.of_eq rfl rfl rfl, ⟨fun _ => hfresh, fun hc => (by cases hc), fun hu => absurd hzero hu⟩, hrefs,
      fun _ => hkref, fun _ hr => (hre hr).elim, h.used⟩

/-- The reinit ioctl begins to unbind the objects, or finds the request in use. -/
theorem sound_reinit {s : ReqSys} (h : Sound s) (hf : s.freed = false) (hpos : 0 < s.holders) :
    Sound { s with
      req := (mediaRequestIoctlReinit s.req).1
      reiniting := if (mediaRequestIoctlReinit s.req).2 = 0 then true else s.reiniting } := by
  unfold mediaRequestIoctlReinit
  split
  · exact h
  · next hs =>
    split
    · exact h
    · have hs : s.req.state = .idle ∨ s.req.state = .complete := by
        rw [not_and_or, not_not, not_not] at hs
        exact hs
      have href : queueRef s.req = 0 := by
        unfold queueRef
        rcases hs with hs | hs <;> rw [hs] <;> rfl
      have hzero : s.req.updatingCount = 0 := by
        by_contra hne
        have hup := h.phases.updating hne
        rcases hs with hs | hs <;> rw [hs] at hup <;> cases hup
      have hrefs := h.refs
      have hkref := h.kref hf
      rw [href] at hrefs hkref
      refine ⟨h.counted.of_eq rfl rfl rfl, ⟨fun hst => ?_, fun hst => (by cases hst), fun hu => absurd hzero hu⟩, hrefs,
        fun _ => hkref, fun _ _ => rfl, fun _ _ => hpos⟩
      rcases hst with hst | hst | hst <;> cases hst

/-- The reinit ioctl has unbound all objects. -/
theorem sound_reinitDone {s : ReqSys} (h : Sound s) (hf : s.freed = false) (hr : s.reiniting = true)
    (hnone : s.req.objects = []) :
    Sound { s with req := { cleanEnd s.req with state := .idle }, reiniting := false } := by
  have href : queueRef s.req = 0 := by
    unfold queueRef
    rw [h.reiniting hf hr]
    rfl
  have hrefs := h.refs
  have hkref := h.kref hf
  rw [href] at hrefs hkref
  have hpos := h.used hf (Or.inl hr)
  refine ⟨⟨h.counted.nodup, h.counted.bound, h.counted.few, ?_⟩, ⟨fun _ o ho => ?_, fun hst => (by cases hst),
    fun hu => absurd rfl hu⟩, hrefs, fun _ => hkref, fun _ hr => (by cases hr), fun _ _ => hpos⟩
  · unfold incomplete cleanEnd
    dsimp only
    rw [hnone]
    rfl
  · change o ∈ s.req.objects at ho
    rw [hnone] at ho
    exact absurd ho List.not_mem_nil

/-- A request is validated by the ioctl that holds the mutex. -/
def Serialised (s : ReqSys) : Prop :=
  s.freed = false → s.req.state = .validating → s.queueing = true

theorem unbind_state (r : MediaRequest) (o : ObjPtr) :
    (mediaRequestObjectUnbind r o).1.state = r.state ∨ (mediaRequestObjectUnbind r o).1.state = .complete := by
  have huncount : ∀ r₁ : MediaRequest, r₁.state = r.state →
      (uncount r₁).1.state = r.state ∨ (uncount r₁).1.state = .complete := by
    intro r₁ h
    rw [uncount_fst]
    dsimp only
    split
    · exact Or.inr rfl
    · exact Or.inl h
  unfold mediaRequestObjectUnbind
  repeat' split
  all_goals first | exact Or.inl rfl | exact huncount _ rfl

theorem serialised_put {s : ReqSys} (h : s.req.state = .validating → s.queueing = true) :
    Serialised (mediaRequestPut s) := by
  unfold mediaRequestPut Serialised
  dsimp only
  split
  · exact fun hf => by cases hf
  · exact fun _ => h

/-- Only the queue ioctl lets a request be validated. -/
theorem serialised_reqStep {s t : ReqSys} {e : ReqAct} (h : Serialised s) (ht : reqStep s e = some t) :
    Serialised t := by
  have hf := reqStep_freed ht
  unfold reqStep at ht
  rw [if_neg (Bool.eq_false_iff.mp hf)] at ht
  cases e with
  | lockForUpdate =>
    obtain ⟨-, rfl⟩ := of_ite ht
    unfold mediaRequestLockForUpdate
    split
    · exact fun _ hs => by cases hs
    · exact h
  | unlockForUpdate =>
    obtain ⟨-, rfl⟩ := of_ite_not ht
    unfold mediaRequestUnlockForUpdate
    dsimp only
    split
    · exact fun _ hs => by cases hs
    · exact h
  | lockForAccess =>
    obtain ⟨-, rfl⟩ := of_ite ht
    unfold mediaRequestLockForAccess
    split <;> exact h
  | unlockForAccess =>
    obtain rfl := Option.some.inj ht
    unfold mediaRequestUnlockForAccess
    split <;> exact h
  | bind isBuffer o =>
    obtain ⟨-, rfl⟩ := of_ite ht
    unfold mediaRequestObjectBind
    split <;> exact h
  | unbind o =>
    obtain ⟨hval, rfl⟩ := of_ite_not ht
    intro _ hs
    change (mediaRequestObjectUnbind s.req o).1.state = .validating at hs
    rcases unbind_state s.req o with hst | hst
    · exact absurd (hst.symm.trans hs) hval
    · exact absurd (hst.symm.trans hs) (by decide)
  | complete o =>
    obtain ⟨hq, rfl⟩ := of_ite ht
    intro _ hs
    change (mediaRequestObjectComplete s.req o).1.state = .validating at hs
    unfold mediaRequestObjectComplete at hs
    split at hs
    · exact absurd (hq.1.symm.trans hs) (by decide)
    · split at hs
      · exact absurd (hq.1.symm.trans hs) (by decide)
      · rw [uncount_fst] at hs
        dsimp only at hs
        split at hs
        · cases hs
        · exact absurd (hq.1.symm.trans hs) (by decide)
  | queue =>
    obtain ⟨-, rfl⟩ := of_ite ht
    intro _ hs
    exact decide_eq_true hs
  | validated valid =>
    obtain ⟨-, rfl⟩ := of_ite ht
    intro _ hs
    cases valid <;> cases hs
  | queued =>
    obtain ⟨hval, rfl⟩ := of_ite_not ht
    exact fun _ hs => absurd hs hval
  | reinit =>
    obtain ⟨-, rfl⟩ := of_ite ht
    unfold mediaRequestIoctlReinit
    split
    · exact h
    · split
      · exact h
      · exact fun _ hs => by cases hs
  | reinitDone =>
    obtain ⟨-, rfl⟩ := of_ite ht
    exact fun _ hs => by cases hs
  | putQueued =>
    obtain ⟨-, rfl⟩ := of_ite_not ht
    exact serialised_put (h hf)
  | get =>
    obtain ⟨-, rfl⟩ := of_ite ht
    exact h
  | put =>
    obtain ⟨-, rfl⟩ := of_ite ht
    exact serialised_put (h hf)

/-- **A step keeps the count** and the references. -/
theorem sound_reqStep {s t : ReqSys} {e : ReqAct} (h : Sound s) (hser : Serialised s) (hin : InOrder s e)
    (ht : reqStep s e = some t) : Sound t := by
  have hf := reqStep_freed ht
  have hrefs := h.refs
  have hkref := h.kref hf
  unfold reqStep at ht
  rw [if_neg (Bool.eq_false_iff.mp hf)] at ht
  cases e with
  | lockForUpdate =>
    obtain ⟨hpos, rfl⟩ := of_ite ht
    exact sound_lockForUpdate h hf hpos
  | unlockForUpdate =>
    obtain ⟨hne, rfl⟩ := of_ite_not ht
    exact sound_unlockForUpdate h hf hne
  | lockForAccess =>
    obtain ⟨hpos, rfl⟩ := of_ite ht
    unfold mediaRequestLockForAccess
    split
    · exact sound_access h _ fun _ _ => hpos
    · exact h
  | unlockForAccess =>
    obtain rfl := Option.some.inj ht
    unfold mediaRequestUnlockForAccess
    split
    · exact h
    · next hne => exact sound_access h _ fun hf _ => h.used hf (Or.inr (Or.inr hne))
  | bind isBuffer o =>
    obtain ⟨hfresh, rfl⟩ := of_ite ht
    exact sound_bind h hfresh.1 hfresh.2 hin
  | unbind o =>
    obtain ⟨hval, rfl⟩ := of_ite_not ht
    obtain ⟨hu, ha⟩ := unbind_counts s.req o
    exact h.leave hf (unbind_section h.counted h.phases hval hin) hu ha
  | complete o =>
    obtain ⟨hq, rfl⟩ := of_ite ht
    obtain ⟨hu, ha⟩ := complete_counts s.req o
    exact h.leave hf (complete_section h.counted h.phases hq.1 hq.2) hu ha
  | queue =>
    obtain ⟨hfree, rfl⟩ := of_ite ht
    refine sound_queue h hf fun hs => ?_
    exact Bool.false_ne_true (hfree.2.symm.trans (hser hf hs))
  | validated valid =>
    obtain ⟨hs, rfl⟩ := of_ite ht
    exact sound_validated h hf hs valid
  | queued =>
    obtain ⟨-, rfl⟩ := of_ite_not ht
    exact ⟨h.counted, h.phases, h.refs, h.kref, h.reiniting, h.used⟩
  | reinit =>
    obtain ⟨hpos, rfl⟩ := of_ite ht
    exact sound_reinit h hf hpos
  | reinitDone =>
    obtain ⟨hr, rfl⟩ := of_ite ht
    exact sound_reinitDone h hf hr.1 hr.2
  | putQueued =>
    obtain ⟨hne, rfl⟩ := of_ite_not ht
    refine sound_mediaRequestPut h.counted h.phases ?_ ?_ (h.reiniting hf) (h.used hf)
    · change s.taken = s.dropped + 1 + (s.puts - 1) + queueRef s.req
      omega
    · change s.req.kref = s.holders + (s.puts - 1) + queueRef s.req + 1
      omega
  | get =>
    obtain ⟨hpos, rfl⟩ := of_ite ht
    refine ⟨h.counted.of_eq rfl rfl rfl, h.phases.of_eq rfl rfl rfl rfl, hrefs, fun _ => ?_, h.reiniting,
      fun _ _ => Nat.succ_pos _⟩
    change s.req.kref + 1 = s.holders + 1 + s.puts + queueRef s.req
    omega
  | put =>
    obtain ⟨hpos, rfl⟩ := of_ite ht
    refine sound_mediaRequestPut h.counted h.phases hrefs ?_ (h.reiniting hf) fun hu => ?_
    · change s.req.kref = s.holders - 1 + s.puts + queueRef s.req + 1
      omega
    · have := hpos.2 hu
      change 0 < s.holders - 1
      omega

/-- A queued request is complete at the step that completes or unbinds its last incomplete object. -/
theorem reqStep_last {s t : ReqSys} {e : ReqAct} (h : Sound s) (hin : InOrder s e) (ht : reqStep s e = some t)
    (hq : s.req.state = .queued) :
    (t.req.state = .complete ↔ CompletesLast s e) ∧ (t.req.state ≠ .complete → t.req.state = .queued) := by
  have hf := reqStep_freed ht
  have hkref := h.kref hf
  have href : queueRef s.req = 1 := by
    unfold queueRef
    rw [hq]
    rfl
  rw [href] at hkref
  have hkeep : (∀ o, e ≠ .complete o ∧ e ≠ .unbind o) → t.req.state = .queued →
      (t.req.state = .complete ↔ CompletesLast s e) ∧ (t.req.state ≠ .complete → t.req.state = .queued) := by
    intro hne ht
    refine ⟨iff_of_false (by rw [ht]; decide) ?_, fun _ => ht⟩
    rintro ⟨o, he | he, -⟩
    · exact (hne o).1 he
    · exact (hne o).2 he
  have hput : ∀ u : ReqSys, u.req.state = .queued → 1 < u.req.kref → (mediaRequestPut u).req.state = .queued := by
    intro u hu hk
    unfold mediaRequestPut
    rw [if_neg (by change ¬ u.req.kref - 1 = 0; omega)]
    exact hu
  unfold reqStep at ht
  rw [if_neg (Bool.eq_false_iff.mp hf)] at ht
  cases e with
  | unbind o =>
    obtain ⟨-, rfl⟩ := of_ite_not ht
    obtain ⟨hlast, hstay⟩ := unbind_last (o := o) h.counted hq fun hreq => hin hq hreq
    refine ⟨hlast.trans ⟨fun hl => ⟨o, Or.inr rfl, hl⟩, ?_⟩, hstay⟩
    rintro ⟨o', he | he, hl⟩
    · cases he
    · obtain rfl := ReqAct.unbind.inj he
      exact hl
  | complete o =>
    obtain ⟨hc, rfl⟩ := of_ite ht
    obtain ⟨hlast, hstay⟩ := complete_last (o := o) h.counted hq hc.2
    refine ⟨hlast.trans ⟨fun hl => ⟨o, Or.inl rfl, hl⟩, ?_⟩, hstay⟩
    rintro ⟨o', he | he, hl⟩
    · obtain rfl := ReqAct.complete.inj he
      exact hl
    · cases he
  | lockForUpdate =>
    obtain ⟨-, rfl⟩ := of_ite ht
    refine hkeep (fun o => ⟨by simp, by simp⟩) ?_
    unfold mediaRequestLockForUpdate
    rw [hq, if_neg (by decide)]
    exact hq
  | unlockForUpdate =>
    obtain ⟨hne, rfl⟩ := of_ite_not ht
    exact absurd ((h.phases.updating hne).symm.trans hq) (by decide)
  | lockForAccess =>
    obtain ⟨-, rfl⟩ := of_ite ht
    refine hkeep (fun o => ⟨by simp, by simp⟩) ?_
    unfold mediaRequestLockForAccess
    split <;> exact hq
  | unlockForAccess =>
    obtain rfl := Option.some.inj ht
    refine hkeep (fun o => ⟨by simp, by simp⟩) ?_
    unfold mediaRequestUnlockForAccess
    split <;> exact hq
  | bind isBuffer o =>
    obtain ⟨-, rfl⟩ := of_ite ht
    refine hkeep (fun o => ⟨by simp, by simp⟩) ?_
    unfold mediaRequestObjectBind
    split <;> exact hq
  | queue =>
    obtain ⟨-, rfl⟩ := of_ite ht
    refine hkeep (fun o => ⟨by simp, by simp⟩) ?_
    have hst : s.req.state ≠ .idle := by rw [hq]; decide
    unfold mediaRequestIoctlQueue
    dsimp only
    rw [if_neg hst]
    exact hq
  | validated valid =>
    obtain ⟨hs, rfl⟩ := of_ite ht
    exact absurd (hs.symm.trans hq) (by decide)
  | queued =>
    obtain ⟨-, rfl⟩ := of_ite_not ht
    exact hkeep (fun o => ⟨by simp, by simp⟩) hq
  | reinit =>
    obtain ⟨-, rfl⟩ := of_ite ht
    refine hkeep (fun o => ⟨by simp, by simp⟩) ?_
    unfold mediaRequestIoctlReinit
    rw [hq, if_pos (by decide)]
    exact hq
  | reinitDone =>
    obtain ⟨hr, rfl⟩ := of_ite ht
    exact absurd ((h.reiniting hf hr.1).symm.trans hq) (by decide)
  | putQueued =>
    obtain ⟨hne, rfl⟩ := of_ite_not ht
    refine hkeep (fun o => ⟨by simp, by simp⟩) (hput _ hq ?_)
    change 1 < s.req.kref
    omega
  | get =>
    obtain ⟨-, rfl⟩ := of_ite ht
    exact hkeep (fun o => ⟨by simp, by simp⟩) hq
  | put =>
    obtain ⟨hpos, rfl⟩ := of_ite ht
    refine hkeep (fun o => ⟨by simp, by simp⟩) (hput _ hq ?_)
    change 1 < s.req.kref
    omega

/-- **In every run** in which no object is unbound from a queued request after it has been completed, completion
is exact. -/
theorem exactlyCompleted_run (es : List ReqAct) (s : ReqSys) (hin : Along reqStep InOrder ReqSys.initial es)
    (h : run reqStep ReqSys.initial es = some s) : ExactlyCompleted s := by
  have hsound : Sound s ∧ Serialised s :=
    run_inv_along (I := fun s => Sound s ∧ Serialised s)
      (fun _ _ _ hs hin ht => ⟨sound_reqStep hs.1 hs.2 hin ht, serialised_reqStep hs.2 ht⟩)
      ⟨sound_initial, fun _ hs => (by cases hs)⟩ hin h
  obtain ⟨hs, -⟩ := hsound
  exact ⟨hs.counted.count, hs.phases.complete, hs.refs, hs.kref, fun _ _ hin ht hq => reqStep_last hs hin ht hq⟩

/-- A buffer and a control handler are bound, and the request is queued. -/
def bindTwo : List ReqAct :=
  [.lockForUpdate, .bind false 0, .bind true 1, .unlockForUpdate, .queue, .validated true, .queued]

/-- The controls are completed, the buffer is unbound, and the request is reinitialised. -/
theorem exactlyCompleted_run_bindTwo : ∃ s, run reqStep ReqSys.initial
    (bindTwo ++ [.complete 0, .unbind 1, .putQueued, .reinit, .unbind 0, .reinitDone]) = some s ∧
      ExactlyCompleted s := by
  have hgo : (run reqStep ReqSys.initial
      (bindTwo ++ [.complete 0, .unbind 1, .putQueued, .reinit, .unbind 0, .reinitDone])).isSome = true := by
    decide +kernel
  have hin : Along reqStep InOrder ReqSys.initial
      (bindTwo ++ [.complete 0, .unbind 1, .putQueued, .reinit, .unbind 0, .reinitDone]) := by
    decide +kernel
  obtain ⟨s, hs⟩ := Option.isSome_iff_exists.mp hgo
  exact ⟨s, hs, exactlyCompleted_run _ s hin hs⟩

/-- **An object is unbound after it has been completed**: the request is complete, and the other object is not. -/
theorem not_exactlyCompleted : ∃ s, run reqStep ReqSys.initial (bindTwo ++ [.complete 0, .unbind 0]) = some s ∧
    s.req.state = .complete ∧ 1 ∈ s.req.objects ∧ (s.req.obj 1).completed = false := by
  have hval : (run reqStep ReqSys.initial (bindTwo ++ [.complete 0, .unbind 0])).map
      (fun s => (s.req.state, s.req.objects, (s.req.obj 1).completed)) = some (.complete, [1], false) := by
    decide +kernel
  obtain ⟨s, hs, hobs⟩ := Option.map_eq_some_iff.mp hval
  obtain ⟨hstate, hrest⟩ := Prod.mk.inj hobs
  obtain ⟨hobjects, hc⟩ := Prod.mk.inj hrest
  exact ⟨s, hs, hstate, by rw [hobjects]; exact List.mem_singleton_self 1, hc⟩

end Mc
end TbsMedia
