import Mathlib
import TbsMedia.Lib.Custody
import TbsMedia.Lib.Runs
import TbsMedia.Vb2.Qbuf

/-!
# Buffers whose memory comes from user space

The planes of such a buffer are compared with what user space provides each time the buffer is prepared, and those that
have changed are acquired anew.  The driver initialises the buffer when its planes are there, and cleans it up before
the first of them goes.

The first loop leaves the planes alone up to the first one that has changed.  There the buffer is cleaned up,
with all its planes held, and only from there on planes are released and acquired (`Turn`, `Going`).  An error
behind that finds nothing initialised (`Stopped`); one in front of it is what `InTime` excludes.

* `prepareUserptr`, `prepareDmabuf`, `freeBuffer`: the functions.
* `Balanced`: initialisation and cleaning up take turns, with the planes held, and each plane is released once.
* `InTime`: no plane is refused before the first one that has changed.
* `balanced_run`: the log is balanced if all planes that are refused are refused in time.
* `not_balanced`: a plane that is too small takes the memory of a buffer that has not been cleaned up.
-/

namespace TbsMedia
namespace Vb2

open Lib

/-! ## State -/

/-- `VB2_MEMORY_USERPTR` and `VB2_MEMORY_DMABUF`. -/
inductive ImportMemory where
  | userptr
  | dmabuf
deriving DecidableEq

/-- A `struct vb2_plane`.  Both `m.userptr` and `m.fd` are of the union `m`, of which a queue uses one. -/
structure ImportPlane where
  memPriv : Option ℕ
  dbuf : Option ℕ
  dbufMapped : Bool
  userptr : UInt64
  fd : ℤ
  length : UInt32
  minLength : UInt32
  bytesused : UInt32
  dataOffset : UInt32

/-- What user space provides for a plane. -/
structure UserPlane where
  userptr : UInt64
  fd : ℤ
  length : UInt32
  bytesused : UInt32
  dataOffset : UInt32

/-- Calls for a shared buffer. -/
inductive DmabufEvent where
  | getDbuf (dbuf : ℕ)
  | putDbuf (dbuf : Option ℕ)
  | map (m : Option ℕ)
  | unmap (m : ℕ)
deriving DecidableEq

/-- A `struct vb2_buffer`, with the calls that have been made, the latest first.  Memory that is acquired has the number
of its acquisition. -/
structure ImportBuffer where
  numPlanes : ℕ
  planes : ℕ → ImportPlane
  copiedTimestamp : Bool
  next : ℕ
  log : List (CustodyEvent ℕ DmabufEvent)

/-- What the callbacks return in a preparation, for each plane. -/
structure Provided where
  fill : ℤ
  user : ℕ → UserPlane
  getUserptr : ℕ → ℤ
  dmaBufGet : ℕ → Option ℕ
  dbufSize : ℕ → ℕ
  attach : ℕ → ℤ
  map : ℕ → ℤ
  bufInit : ℤ
  bufPrepare : ℤ

/-- A plane is changed. -/
def ImportBuffer.modify (b : ImportBuffer) (k : ℕ) (f : ImportPlane → ImportPlane) : ImportBuffer :=
  { b with planes := Function.update b.planes k (f (b.planes k)) }

/-- A call is made. -/
def ImportBuffer.call (b : ImportBuffer) (e : CustodyEvent ℕ DmabufEvent) : ImportBuffer :=
  { b with log := e :: b.log }

/-- What a plane holds. -/
def ImportBuffer.mem (b : ImportBuffer) (k : ℕ) : Option ℕ := (b.planes k).memPriv

/-- What the planes hold. -/
def ImportBuffer.mems (b : ImportBuffer) : List (Option ℕ) := (List.range b.numPlanes).map b.mem

/-- A call of `buf_init` that succeeds. -/
def ImportBuffer.bufInit (b : ImportBuffer) : ImportBuffer := b.call (.start b.mems)

/-- A call of `buf_cleanup`. -/
def ImportBuffer.bufCleanup (b : ImportBuffer) : ImportBuffer := b.call (.stop b.mems)

/-- Memory is acquired for a plane. -/
def ImportBuffer.acquire (b : ImportBuffer) (k : ℕ) (dbuf : Option ℕ) : ImportBuffer :=
  ({ b with next := b.next + 1 }.call (.get b.next)).modify k fun p => { p with memPriv := some b.next, dbuf := dbuf }

/-! ## Releasing planes -/

/-- `put_userptr`, if there is something to put. -/
def putUserptr (b : ImportBuffer) (k : ℕ) : ImportBuffer :=
  match b.mem k with
  | none => b
  | some m => (b.call (.put m)).modify k fun p => { p with memPriv := none }

/-- A plane in the error path of `__prepare_userptr`. -/
def abandonUserptr (b : ImportBuffer) (k : ℕ) : ImportBuffer :=
  (putUserptr b k).modify k fun p => { p with userptr := 0, length := 0 }

/-- `__vb2_plane_dmabuf_put`. -/
def vb2PlaneDmabufPut (b : ImportBuffer) (k : ℕ) : ImportBuffer :=
  match b.mem k with
  | none => b
  | some m =>
    let b := if (b.planes k).dbufMapped then b.call (.other (.unmap m)) else b
    ((b.call (.put m)).call (.other (.putDbuf (b.planes k).dbuf))).modify k
      fun p => { p with memPriv := none, dbuf := none, dbufMapped := false }

/-- A plane is released on an error. -/
def ImportMemory.abandon : ImportMemory → ImportBuffer → ℕ → ImportBuffer
  | .userptr => abandonUserptr
  | .dmabuf => vb2PlaneDmabufPut

/-- All planes are released on an error. -/
def abandonPlanes (mem : ImportMemory) (b : ImportBuffer) : ImportBuffer :=
  (List.range b.numPlanes).foldl mem.abandon b

/-! ## Comparing planes -/

/-- The local variables of a preparation. -/
structure Verify where
  buf : ImportBuffer
  user : ℕ → UserPlane
  reacquired : Bool
  ret : ℤ

/-- A loop over the planes, until an error. -/
def verifyLoop (body : Verify → ℕ → Verify) : List ℕ → Verify → Verify
  | [], s => s
  | k :: ks, s => if (body s k).ret ≠ 0 then body s k else verifyLoop body ks (body s k)

/-- The buffer is cleaned up, unless it has been already. -/
def Verify.reacquire (s : Verify) : Verify :=
  if s.reacquired then s
  else { s with reacquired := true, buf := { s.buf.bufCleanup with copiedTimestamp := false } }

/-- The plane is what it was. -/
def sameUserptr (p : ImportPlane) (u : UserPlane) : Prop :=
  p.userptr ≠ 0 ∧ p.userptr = u.userptr ∧ p.length = u.length

instance (p : ImportPlane) (u : UserPlane) : Decidable (sameUserptr p u) := inferInstanceAs (Decidable (_ ∧ _))

/-- The body of the first loop of `__prepare_userptr`. -/
def verifyUserptr (d : Provided) (s : Verify) (k : ℕ) : Verify :=
  if sameUserptr (s.buf.planes k) (s.user k) then s
  else if (s.user k).length < (s.buf.planes k).minLength then { s with ret := -EINVAL }
  else
    let s := if s.buf.mem k ≠ none then s.reacquire else s
    let b := (putUserptr s.buf k).modify k fun p =>
      { p with bytesused := 0, length := 0, userptr := 0, dataOffset := 0 }
    if d.getUserptr k ≠ 0 then { s with buf := b, ret := d.getUserptr k }
    else { s with buf := b.acquire k (b.planes k).dbuf }

/-- The length of a plane: that of the shared buffer, if none is provided. -/
def dmabufLength (d : Provided) (u : UserPlane) (dbuf : ℕ) : UInt32 :=
  if u.length = 0 then UInt32.ofNat (d.dbufSize dbuf) else u.length

/-- The plane is what it was. -/
def sameDmabuf (p : ImportPlane) (dbuf : ℕ) (length : UInt32) : Prop :=
  p.dbuf = some dbuf ∧ p.length = length

instance (p : ImportPlane) (dbuf : ℕ) (length : UInt32) : Decidable (sameDmabuf p dbuf length) :=
  inferInstanceAs (Decidable (_ ∧ _))

/-- The body of the first loop of `__prepare_dmabuf`, for a descriptor of `dbuf`. -/
def verifyDbuf (d : Provided) (s : Verify) (k : ℕ) (dbuf : ℕ) : Verify :=
  let length := dmabufLength d (s.user k) dbuf
  let s := { s with
    buf := s.buf.call (.other (.getDbuf dbuf))
    user := Function.update s.user k { s.user k with length := length } }
  if length < (s.buf.planes k).minLength then
    { s with buf := s.buf.call (.other (.putDbuf (some dbuf))), ret := -EINVAL }
  else if sameDmabuf (s.buf.planes k) dbuf length then
    { s with buf := s.buf.call (.other (.putDbuf (some dbuf))) }
  else
    let s := s.reacquire
    let b := (vb2PlaneDmabufPut s.buf k).modify k fun p =>
      { p with bytesused := 0, length := 0, fd := 0, dataOffset := 0 }
    if d.attach k ≠ 0 then { s with buf := b.call (.other (.putDbuf (some dbuf))), ret := d.attach k }
    else { s with buf := b.acquire k (some dbuf) }

/-- The body of the first loop of `__prepare_dmabuf`. -/
def verifyDmabuf (d : Provided) (s : Verify) (k : ℕ) : Verify :=
  match d.dmaBufGet k with
  | none => { s with ret := -EINVAL }
  | some dbuf => verifyDbuf d s k dbuf

/-- The body of the second loop of `__prepare_dmabuf`. -/
def mapDmabuf (d : Provided) (s : Verify) (k : ℕ) : Verify :=
  if (s.buf.planes k).dbufMapped then s
  else if d.map k ≠ 0 then { s with ret := d.map k }
  else
    { s with
      buf := (s.buf.call (.other (.map (s.buf.mem k)))).modify k fun p => { p with dbufMapped := true } }

/-! ## Preparing -/

/-- What user space provides is copied to the planes. -/
def copyPlanes (mem : ImportMemory) (b : ImportBuffer) (user : ℕ → UserPlane) : ImportBuffer :=
  { b with
    planes := fun k =>
      if k < b.numPlanes then
        { b.planes k with
          bytesused := (user k).bytesused
          length := (user k).length
          userptr := if mem = .userptr then (user k).userptr else (b.planes k).userptr
          fd := if mem = .dmabuf then (user k).fd else (b.planes k).fd
          dataOffset := (user k).dataOffset }
      else b.planes k }

/-- What follows the loops: the driver initialises and prepares the buffer. -/
def finishPrepare (mem : ImportMemory) (d : Provided) (s : Verify) : ImportBuffer × ℤ :=
  let b := copyPlanes mem s.buf s.user
  if s.reacquired ∧ d.bufInit ≠ 0 then (abandonPlanes mem b, d.bufInit)
  else
    let b := if s.reacquired then b.bufInit else b
    if d.bufPrepare ≠ 0 then (abandonPlanes mem b.bufCleanup, d.bufPrepare) else (b, 0)

/-- The loops over the planes. -/
def verifyPlanes (mem : ImportMemory) (d : Provided) (b : ImportBuffer) : Verify :=
  let s : Verify := ⟨b, d.user, b.mem 0 = none, 0⟩
  match mem with
  | .userptr => verifyLoop (verifyUserptr d) (List.range b.numPlanes) s
  | .dmabuf =>
    let s := verifyLoop (verifyDmabuf d) (List.range b.numPlanes) s
    if s.ret ≠ 0 then s else verifyLoop (mapDmabuf d) (List.range b.numPlanes) s

/-- `__prepare_userptr` and `__prepare_dmabuf`. -/
def prepareBuffer (mem : ImportMemory) (d : Provided) (b : ImportBuffer) : ImportBuffer × ℤ :=
  if d.fill ≠ 0 then (b, d.fill)
  else
    let s := verifyPlanes mem d b
    if s.ret ≠ 0 then (abandonPlanes mem s.buf, s.ret) else finishPrepare mem d s

def prepareUserptr : Provided → ImportBuffer → ImportBuffer × ℤ := prepareBuffer .userptr

def prepareDmabuf : Provided → ImportBuffer → ImportBuffer × ℤ := prepareBuffer .dmabuf

/-- A plane is released for good: `__vb2_buf_userptr_put` and `__vb2_buf_dmabuf_put`. -/
def ImportMemory.put : ImportMemory → ImportBuffer → ℕ → ImportBuffer
  | .userptr => putUserptr
  | .dmabuf => vb2PlaneDmabufPut

/-- What `__vb2_queue_free` does to the buffer, with `__vb2_free_mem`. -/
def freeBuffer (mem : ImportMemory) (b : ImportBuffer) : ImportBuffer :=
  let b := if b.mem 0 ≠ none then b.bufCleanup else b
  (List.range b.numPlanes).foldl mem.put b

/-- A preparation as a step. -/
def prepareStep (mem : ImportMemory) (b : ImportBuffer) (d : Provided) : Option ImportBuffer :=
  some (prepareBuffer mem d b).1

/-- A buffer as it is allocated, with the sizes that its planes must have. -/
def ImportBuffer.initial (numPlanes : ℕ) (minLength : ℕ → UInt32) : ImportBuffer where
  numPlanes := numPlanes
  planes := fun k => ⟨none, none, false, 0, 0, 0, minLength k, 0, 0⟩
  copiedTimestamp := false
  next := 0
  log := []

/-! ## What is to hold -/

/-- **The calls are balanced**: the driver initialises and cleans up in turns, each time with the same planes, all of
them held, and ends with cleaning up; memory that is acquired is released once. -/
structure Balanced (log : List (CustodyEvent ℕ DmabufEvent)) : Prop where
  phase : phase log = .idle
  released : ∀ m, .get m ∈ log → log.count (.get m) = 1 ∧ log.count (.put m) = 1

/-- The plane is refused before anything is released for it. -/
def Refused (d : Provided) (b : ImportBuffer) (k : ℕ) : ImportMemory → Prop
  | .userptr => ¬sameUserptr (b.planes k) (d.user k) ∧ (d.user k).length < (b.planes k).minLength
  | .dmabuf => ∀ dbuf ∈ d.dmaBufGet k, dmabufLength d (d.user k) dbuf < (b.planes k).minLength

/-- The plane has changed, and is not refused. -/
def Changed (d : Provided) (b : ImportBuffer) (k : ℕ) : ImportMemory → Prop
  | .userptr => ¬sameUserptr (b.planes k) (d.user k) ∧ ¬(d.user k).length < (b.planes k).minLength
  | .dmabuf => ∃ dbuf ∈ d.dmaBufGet k, ¬dmabufLength d (d.user k) dbuf < (b.planes k).minLength ∧
      ¬sameDmabuf (b.planes k) dbuf (dmabufLength d (d.user k) dbuf)

/-- When the buffer is initialised, no plane is refused before the first one that has changed. -/
def InTime (mem : ImportMemory) (b : ImportBuffer) (d : Provided) : Prop :=
  b.mem 0 ≠ none → d.fill = 0 → ∀ k < b.numPlanes, Refused d b k mem → ∃ j < k, Changed d b j mem

/-! ## What planes hold -/

/-- The planes account for the memory. -/
structure Owned (b : ImportBuffer) : Prop where
  accounted : Accounted b.log b.mem
  fresh : ∀ m, .get m ∈ b.log → m < b.next
  beyond : ∀ k, b.numPlanes ≤ k → b.mem k = none

/-- A plane that nothing is provided for. -/
def Blank (p : ImportPlane) : ImportMemory → Prop
  | .userptr => p.userptr = 0
  | .dmabuf => p.dbuf = none

/-- A plane that holds nothing is not taken for one that is provided. -/
def Blanked (mem : ImportMemory) (b : ImportBuffer) : Prop := ∀ k, b.mem k = none → Blank (b.planes k) mem

section Planes

variable {mem : ImportMemory} {b b' : ImportBuffer} {k : ℕ}

theorem call_planes (b : ImportBuffer) (e : CustodyEvent ℕ DmabufEvent) : (b.call e).planes = b.planes := rfl

theorem modify_planes (b : ImportBuffer) (k : ℕ) (f : ImportPlane → ImportPlane) (j : ℕ) :
    (b.modify k f).planes j = if j = k then f (b.planes k) else b.planes j := by
  change Function.update b.planes k (f (b.planes k)) j = _
  rcases eq_or_ne j k with rfl | hne
  · rw [Function.update_self, if_pos rfl]
  · rw [Function.update_of_ne hne, if_neg hne]

theorem modify_mem (b : ImportBuffer) (k : ℕ) (f : ImportPlane → ImportPlane) :
    (b.modify k f).mem = Function.update b.mem k (f (b.planes k)).memPriv := by
  funext j
  rw [ImportBuffer.mem, modify_planes]
  rcases eq_or_ne j k with rfl | hne
  · rw [if_pos rfl, Function.update_self]
  · rw [if_neg hne, Function.update_of_ne hne]
    rfl

/-- The other fields of a plane do not matter for its memory. -/
theorem modify_mem_of_eq {f : ImportPlane → ImportPlane} (hf : (f (b.planes k)).memPriv = b.mem k) :
    (b.modify k f).mem = b.mem := by
  rw [modify_mem, hf, Function.update_eq_self]

theorem Owned.modify (h : Owned b) {f : ImportPlane → ImportPlane} (hf : (f (b.planes k)).memPriv = b.mem k) :
    Owned (b.modify k f) where
  accounted := by
    rw [modify_mem_of_eq hf]
    exact h.accounted
  fresh := h.fresh
  beyond := by
    rw [modify_mem_of_eq hf]
    exact h.beyond

/-- A call that acquires and releases nothing. -/
theorem Owned.call (h : Owned b) {e : CustodyEvent ℕ DmabufEvent} (hget : ∀ m, e ≠ .get m) (hput : ∀ m, e ≠ .put m) :
    Owned (b.call e) where
  accounted := h.accounted.other hget hput
  fresh := fun m hm => h.fresh m ((List.mem_cons.mp hm).resolve_left (hget m).symm)
  beyond := h.beyond

theorem Owned.other (h : Owned b) (e : DmabufEvent) : Owned (b.call (.other e)) :=
  h.call (fun _ h => nomatch h) fun _ h => nomatch h

theorem Owned.bufCleanup (h : Owned b) : Owned b.bufCleanup :=
  h.call (fun _ h => nomatch h) fun _ h => nomatch h

theorem Owned.bufInit (h : Owned b) : Owned b.bufInit :=
  h.call (fun _ h => nomatch h) fun _ h => nomatch h

/-- What the planes hold is held. -/
theorem Owned.holds (h : Owned b) (hall : ∀ k < b.numPlanes, b.mem k ≠ none) : ∀ m ∈ b.mems, Holds b.log m := by
  intro m hm
  obtain ⟨k, hk, rfl⟩ := List.mem_map.mp hm
  exact h.accounted.holds (hall k (List.mem_range.mp hk))

/-- Memory is acquired for a plane that has none. -/
theorem Owned.acquire (h : Owned b) (hk : k < b.numPlanes) (hnone : b.mem k = none) (dbuf : Option ℕ) :
    Owned (b.acquire k dbuf) ∧ (b.acquire k dbuf).mem = Function.update b.mem k (some b.next) := by
  have hmem : (b.acquire k dbuf).mem = Function.update b.mem k (some b.next) := modify_mem _ k _
  refine ⟨⟨?_, fun m hm => ?_, fun j hj => ?_⟩, hmem⟩
  · rw [hmem]
    exact h.accounted.get (fun hget => lt_irrefl _ (h.fresh _ hget)) hnone
  · rcases List.mem_cons.mp hm with he | hm
    · exact (CustodyEvent.get.inj he).le.trans_lt (Nat.lt_succ_self _)
    · exact (h.fresh m hm).trans (Nat.lt_succ_self _)
  · have hne : j ≠ k := by
      rintro rfl
      exact absurd hk (not_lt.mpr hj)
    rw [hmem, Function.update_of_ne hne]
    exact h.beyond j hj

/-- What is left of a plane that is released. -/
structure Emptied (b b' : ImportBuffer) (k : ℕ) : Prop where
  owned : Owned b'
  empty : b'.mem k = none
  others : ∀ j, j ≠ k → b'.planes j = b.planes j
  phase : phase b'.log = phase b.log
  numPlanes : b'.numPlanes = b.numPlanes

theorem Emptied.mem_of_ne (h : Emptied b b' k) {j : ℕ} (hj : j ≠ k) : b'.mem j = b.mem j :=
  congrArg ImportPlane.memPriv (h.others j hj)

theorem Emptied.refl (h : Owned b) (hnone : b.mem k = none) : Emptied b b k := ⟨h, hnone, fun _ _ => rfl, rfl, rfl⟩

/-- The plane is changed after it has been released. -/
theorem Emptied.modify (h : Emptied b b' k) {f : ImportPlane → ImportPlane}
    (hf : (f (b'.planes k)).memPriv = b'.mem k) : Emptied b (b'.modify k f) k where
  owned := h.owned.modify hf
  empty := by
    rw [modify_mem_of_eq hf]
    exact h.empty
  others := fun j hj => by
    rw [modify_planes, if_neg hj]
    exact h.others j hj
  phase := h.phase
  numPlanes := h.numPlanes

/-- Memory is released, and the plane forgets it. -/
theorem emptied_put (h : Owned b) {m : ℕ} (hm : b.mem k = some m) {f : ImportPlane → ImportPlane}
    (hf : ∀ p, (f p).memPriv = none) : Emptied b ((b.call (.put m)).modify k f) k := by
  have hmem : ((b.call (.put m)).modify k f).mem = Function.update b.mem k none := by
    rw [modify_mem, hf]
    rfl
  refine ⟨⟨?_, fun x hx => ?_, fun j hj => ?_⟩, ?_, fun j hj => ?_, rfl, rfl⟩
  · rw [hmem]
    exact h.accounted.put hm
  · exact h.fresh x ((List.mem_cons.mp hx).resolve_left (put_ne_get m x).symm)
  · rw [hmem]
    rcases eq_or_ne j k with rfl | hne
    · exact Function.update_self ..
    · exact (Function.update_of_ne hne _ _).trans (h.beyond j hj)
  · rw [hmem, Function.update_self]
  · rw [modify_planes, if_neg hj]
    rfl

theorem emptied_putUserptr (h : Owned b) (k : ℕ) : Emptied b (putUserptr b k) k := by
  rcases hm : b.mem k with _ | m
  · rw [putUserptr, hm]
    exact Emptied.refl h hm
  · rw [putUserptr, hm]
    exact emptied_put h hm fun _ => rfl

theorem emptied_vb2PlaneDmabufPut (h : Owned b) (k : ℕ) : Emptied b (vb2PlaneDmabufPut b k) k := by
  rcases hm : b.mem k with _ | m
  · rw [vb2PlaneDmabufPut, hm]
    exact Emptied.refl h hm
  · have hput {c : ImportBuffer} (hc : Owned c) (hplanes : c.planes = b.planes) (hphase : phase c.log = phase b.log)
        (hnum : c.numPlanes = b.numPlanes) (dbuf : Option ℕ) :
        Emptied b (((c.call (.put m)).call (.other (.putDbuf dbuf))).modify k
          fun p => { p with memPriv := none, dbuf := none, dbufMapped := false }) k := by
      have hcm : c.mem k = some m := (congrArg (fun f => (f k).memPriv) hplanes).trans hm
      have he := emptied_put hc hcm (f := fun p => { p with memPriv := none, dbuf := none, dbufMapped := false })
        fun _ => rfl
      exact ⟨he.owned.other (.putDbuf dbuf), he.empty, fun j hj => (he.others j hj).trans (congrFun hplanes j),
        he.phase.trans hphase, he.numPlanes.trans hnum⟩
    rw [vb2PlaneDmabufPut, hm]
    dsimp only
    split
    · exact hput (h.other (.unmap m)) rfl rfl rfl _
    · exact hput h rfl rfl rfl _

end Planes

/-! ## Releasing all planes -/

section Abandoning

variable {mem : ImportMemory} {b : ImportBuffer}

/-- The planes are released one after the other. -/
theorem emptied_loop {body : ImportBuffer → ℕ → ImportBuffer} (hbody : ∀ b k, Owned b → Emptied b (body b k) k)
    (ks : List ℕ) (h : Owned b) :
    Owned (ks.foldl body b) ∧ phase (ks.foldl body b).log = phase b.log ∧
      (ks.foldl body b).numPlanes = b.numPlanes ∧ (∀ k, b.mem k = none → (ks.foldl body b).mem k = none) ∧
      ∀ k ∈ ks, (ks.foldl body b).mem k = none := by
  induction ks generalizing b with
  | nil => exact ⟨h, rfl, rfl, fun _ hk => hk, fun _ hk => absurd hk List.not_mem_nil⟩
  | cons k ks ih =>
    have he := hbody b k h
    obtain ⟨howned, hphase, hnum, hkeep, hall⟩ := ih he.owned
    rw [List.foldl_cons]
    refine ⟨howned, hphase.trans he.phase, hnum.trans he.numPlanes, fun j hj => hkeep j ?_, fun j hj => ?_⟩
    · rcases eq_or_ne j k with rfl | hne
      · exact he.empty
      · exact (he.mem_of_ne hne).trans hj
    · rcases List.mem_cons.mp hj with rfl | hj
      · exact hkeep j he.empty
      · exact hall j hj

theorem emptied_abandon (mem : ImportMemory) (b : ImportBuffer) (k : ℕ) (h : Owned b) :
    Emptied b (mem.abandon b k) k := by
  cases mem with
  | userptr => exact (emptied_putUserptr h k).modify (f := fun p => { p with userptr := 0, length := 0 }) rfl
  | dmabuf => exact emptied_vb2PlaneDmabufPut h k

theorem emptied_memoryPut (mem : ImportMemory) (b : ImportBuffer) (k : ℕ) (h : Owned b) :
    Emptied b (mem.put b k) k := by
  cases mem with
  | userptr => exact emptied_putUserptr h k
  | dmabuf => exact emptied_vb2PlaneDmabufPut h k

theorem vb2PlaneDmabufPut_dbuf (hblank : Blanked .dmabuf b) (k : ℕ) :
    ((vb2PlaneDmabufPut b k).planes k).dbuf = none := by
  rcases hm : b.mem k with _ | m
  · rw [vb2PlaneDmabufPut, hm]
    exact hblank k hm
  · rw [vb2PlaneDmabufPut, hm]
    dsimp only
    rw [modify_planes, if_pos rfl]

/-- A plane that is released counts as blank. -/
theorem blanked_abandon (hblank : Blanked mem b) (h : Owned b) (k : ℕ) : Blanked mem (mem.abandon b k) := by
  intro j hj
  have he := emptied_abandon mem b k h
  rcases eq_or_ne j k with rfl | hne
  · cases mem with
    | userptr =>
      show ((abandonUserptr b j).planes j).userptr = 0
      rw [abandonUserptr, modify_planes, if_pos rfl]
    | dmabuf => exact vb2PlaneDmabufPut_dbuf hblank j
  · rw [he.mem_of_ne hne] at hj
    rw [he.others j hne]
    exact hblank j hj

/-- After an error no plane holds anything. -/
theorem abandonPlanes_spec (h : Owned b) (hblank : Blanked mem b) :
    Owned (abandonPlanes mem b) ∧ Blanked mem (abandonPlanes mem b) ∧
      phase (abandonPlanes mem b).log = phase b.log ∧ (abandonPlanes mem b).numPlanes = b.numPlanes ∧
      ∀ k, (abandonPlanes mem b).mem k = none := by
  obtain ⟨howned, hphase, hnum, hkeep, hall⟩ :=
    emptied_loop (emptied_abandon mem) (List.range b.numPlanes) h
  have hblank' : Owned (abandonPlanes mem b) ∧ Blanked mem (abandonPlanes mem b) :=
    List.foldlRecOn (motive := fun c => Owned c ∧ Blanked mem c) (List.range b.numPlanes) mem.abandon ⟨h, hblank⟩
      fun c hc k _ => ⟨(emptied_abandon mem c k hc.1).owned, blanked_abandon hc.2 hc.1 k⟩
  refine ⟨howned, hblank'.2, hphase, hnum, fun k => ?_⟩
  rcases lt_or_ge k b.numPlanes with hk | hk
  · exact hall k (List.mem_range.mpr hk)
  · exact hkeep k (h.beyond k hk)

end Abandoning

/-! ## The loops -/

section Loops

/-- What each turn of a loop keeps holds at its end, and what a turn leaves that fails holds if one does. -/
theorem verifyLoop_inv {body : Verify → ℕ → Verify} {n : ℕ} {P : ℕ → Verify → Prop} {Q : Verify → Prop}
    (hgo : ∀ k < n, ∀ s, P k s → s.ret = 0 → (body s k).ret = 0 → P (k + 1) (body s k))
    (hstop : ∀ k < n, ∀ s, P k s → s.ret = 0 → (body s k).ret ≠ 0 → Q (body s k))
    {s : Verify} (h : P 0 s) (hret : s.ret = 0) :
    (verifyLoop body (List.range n) s).ret = 0 ∧ P n (verifyLoop body (List.range n) s) ∨
      (verifyLoop body (List.range n) s).ret ≠ 0 ∧ Q (verifyLoop body (List.range n) s) := by
  have hloop (m i : ℕ) (hn : i + m = n) (s : Verify) (h : P i s) (hret : s.ret = 0) :
      (verifyLoop body (List.range' i m) s).ret = 0 ∧ P n (verifyLoop body (List.range' i m) s) ∨
        (verifyLoop body (List.range' i m) s).ret ≠ 0 ∧ Q (verifyLoop body (List.range' i m) s) := by
    induction m generalizing i s with
    | zero =>
      obtain rfl : i = n := hn
      exact Or.inl ⟨hret, h⟩
    | succ m ih =>
      have hi : i < n := by omega
      rw [List.range'_succ, verifyLoop]
      by_cases hr : (body s i).ret = 0
      · rw [if_neg (not_not.mpr hr)]
        exact ih (i + 1) (by omega) _ (hgo i hi s h hret hr) hr
      · rw [if_pos hr]
        exact Or.inr ⟨hr, hstop i hi s h hret hr⟩
  rw [List.range_eq_range']
  exact hloop n 0 (Nat.zero_add n) s h hret

/-- The driver has initialised the buffer with the planes that it has. -/
structure Ready (mem : ImportMemory) (b : ImportBuffer) : Prop where
  phase : phase b.log = .inUse b.mems
  held : ∀ k < b.numPlanes, b.mem k ≠ none
  mapped : mem = .dmabuf → ∀ k < b.numPlanes, (b.planes k).dbufMapped = true

/-- The planes are accounted for, and the buffer is initialised until the first of them has changed. -/
structure Going (mem : ImportMemory) (s : Verify) : Prop where
  owned : Owned s.buf
  blank : Blanked mem s.buf
  ready : s.reacquired = false → Ready mem s.buf
  idle : s.reacquired = true → phase s.buf.log = .idle

/-- What is left when a turn fails. -/
structure Stopped (mem : ImportMemory) (n : ℕ) (s : Verify) : Prop where
  owned : Owned s.buf
  blank : Blanked mem s.buf
  idle : phase s.buf.log = .idle
  numPlanes : s.buf.numPlanes = n

variable {mem : ImportMemory} {s : Verify} {k : ℕ}

/-- The buffer is cleaned up with all its planes held. -/
theorem Going.reacquire (h : Going mem s) :
    Owned s.reacquire.buf ∧ phase s.reacquire.buf.log = .idle ∧ s.reacquire.reacquired = true ∧
      s.reacquire.buf.planes = s.buf.planes ∧ s.reacquire.buf.numPlanes = s.buf.numPlanes ∧
      s.reacquire.user = s.user ∧ s.reacquire.ret = s.ret := by
  rw [Verify.reacquire]
  rcases hr : s.reacquired with _ | _
  · have hready := h.ready hr
    rw [if_neg Bool.false_ne_true]
    exact ⟨⟨h.owned.bufCleanup.accounted, h.owned.bufCleanup.fresh, h.owned.beyond⟩,
      phase_stop hready.phase (h.owned.holds hready.held), rfl, rfl, rfl, rfl, rfl⟩
  · rw [if_pos rfl]
    exact ⟨h.owned, h.idle hr, hr, rfl, rfl, rfl, rfl⟩

/-- What a turn does to a plane that has changed: it is released, and acquired again if that succeeds. -/
theorem replaced {b c : ImportBuffer} (hblank : Blanked mem b) (hidle : phase b.log = .idle)
    (hk : k < b.numPlanes) (hc : Emptied b c k) (hck : Blank (c.planes k) mem) (dbuf : Option ℕ) :
    (Owned c ∧ Blanked mem c ∧ phase c.log = .idle) ∧
      Owned (c.acquire k dbuf) ∧ Blanked mem (c.acquire k dbuf) ∧ phase (c.acquire k dbuf).log = .idle ∧
      (c.acquire k dbuf).mem k ≠ none ∧ ∀ j, b.mem j ≠ none → (c.acquire k dbuf).mem j ≠ none := by
  have hblankc : Blanked mem c := by
    intro j hj
    rcases eq_or_ne j k with rfl | hne
    · exact hck
    · rw [hc.mem_of_ne hne] at hj
      rw [hc.others j hne]
      exact hblank j hj
  obtain ⟨hacquire, hmem⟩ := hc.owned.acquire (k := k) (by rw [hc.numPlanes]; exact hk) hc.empty dbuf
  have hself : (c.acquire k dbuf).mem k ≠ none := by
    rw [hmem, Function.update_self]
    exact Option.some_ne_none _
  refine ⟨⟨hc.owned, hblankc, hc.phase.trans hidle⟩, hacquire, fun j hj => ?_, hc.phase.trans hidle, hself,
    fun j hj => ?_⟩
  · rcases eq_or_ne j k with rfl | hne
    · exact absurd hj hself
    · rw [hmem, Function.update_of_ne hne] at hj
      rw [ImportBuffer.acquire, modify_planes, if_neg hne]
      exact hblankc j hj
  · rcases eq_or_ne j k with rfl | hne
    · exact hself
    · rw [hmem, Function.update_of_ne hne, hc.mem_of_ne hne]
      exact hj

variable {d : Provided} {b : ImportBuffer} {i : ℕ}

/-- The first loop in front of the plane `i`: as long as nothing has been acquired, nothing has changed. -/
structure Turn (mem : ImportMemory) (d : Provided) (b : ImportBuffer) (i : ℕ) (s : Verify) : Prop where
  going : Going mem s
  numPlanes : s.buf.numPlanes = b.numPlanes
  held : ∀ j < i, s.buf.mem j ≠ none
  user : ∀ j, i ≤ j → s.user j = d.user j
  unchanged : s.reacquired = false → s.buf.planes = b.planes ∧ b.mem 0 ≠ none ∧ ∀ j < i, ¬Changed d b j mem

/-- A plane that is refused comes behind one that has changed. -/
theorem Turn.not_refused (h : Turn mem d b i s) (hin : InTime mem b d) (hfill : d.fill = 0) (hi : i < b.numPlanes)
    (hr : s.reacquired = false) : ¬Refused d b i mem := by
  intro hrefused
  obtain ⟨-, hmem, hnone⟩ := h.unchanged hr
  obtain ⟨j, hj, hchanged⟩ := hin hmem hfill i hi hrefused
  exact hnone j hj hchanged

/-- A plane that is what it was is passed over. -/
theorem Turn.pass (h : Turn mem d b i s) {t : Verify} (hgoing : Going mem t)
    (hplanes : t.buf.planes = s.buf.planes) (hnum : t.buf.numPlanes = s.buf.numPlanes)
    (hre : t.reacquired = s.reacquired) (huser : ∀ j, i + 1 ≤ j → t.user j = s.user j) (hheld : s.buf.mem i ≠ none)
    (hsame : s.buf.planes = b.planes → ¬Changed d b i mem) : Turn mem d b (i + 1) t where
  going := hgoing
  numPlanes := hnum.trans h.numPlanes
  held := fun j hj => by
    have hmem : t.buf.mem j = s.buf.mem j := congrArg (fun f => (f j).memPriv) hplanes
    rw [hmem]
    rcases Nat.lt_succ_iff_lt_or_eq.mp hj with hj | rfl
    · exact h.held j hj
    · exact hheld
  user := fun j hj => (huser j hj).trans (h.user j (Nat.le_of_succ_le hj))
  unchanged := fun hr => by
    obtain ⟨hp, hmem, hnone⟩ := h.unchanged (hre ▸ hr)
    refine ⟨hplanes.trans hp, hmem, fun j hj => ?_⟩
    rcases Nat.lt_succ_iff_lt_or_eq.mp hj with hj | rfl
    · exact hnone j hj
    · exact hsame hp

/-- A plane that has changed is held again. -/
theorem Turn.renewed (h : Turn mem d b i s) {t : Verify} {c : ImportBuffer} {dbuf : Option ℕ}
    (ht : t.buf = c.acquire i dbuf) (hre : t.reacquired = true)
    (hnum : (c.acquire i dbuf).numPlanes = s.buf.numPlanes) (huser : ∀ j, i + 1 ≤ j → t.user j = s.user j)
    (hc : Owned (c.acquire i dbuf) ∧ Blanked mem (c.acquire i dbuf) ∧ phase (c.acquire i dbuf).log = .idle ∧
      (c.acquire i dbuf).mem i ≠ none ∧ ∀ j, s.buf.mem j ≠ none → (c.acquire i dbuf).mem j ≠ none) :
    Turn mem d b (i + 1) t where
  going := by
    refine ⟨ht ▸ hc.1, ht ▸ hc.2.1, fun hr => ?_, fun _ => ht ▸ hc.2.2.1⟩
    rw [hre] at hr
    exact absurd hr.symm Bool.false_ne_true
  numPlanes := by rw [ht, hnum, h.numPlanes]
  held := fun j hj => by
    rw [ht]
    rcases Nat.lt_succ_iff_lt_or_eq.mp hj with hj | rfl
    · exact hc.2.2.2.2 j (h.held j hj)
    · exact hc.2.2.2.1
  user := fun j hj => (huser j hj).trans (h.user j (Nat.le_of_succ_le hj))
  unchanged := fun hr => by
    rw [hre] at hr
    exact absurd hr.symm Bool.false_ne_true

/-- A turn of the first loop of `__prepare_userptr`. -/
theorem verifyUserptr_turn (h : Turn .userptr d b i s) (hin : InTime .userptr b d) (hfill : d.fill = 0)
    (hi : i < b.numPlanes) (hret : s.ret = 0) :
    ((verifyUserptr d s i).ret = 0 → Turn .userptr d b (i + 1) (verifyUserptr d s i)) ∧
      ((verifyUserptr d s i).ret ≠ 0 → Stopped .userptr b.numPlanes (verifyUserptr d s i)) := by
  have huser := h.user i le_rfl
  have hik : i < s.buf.numPlanes := by rw [h.numPlanes]; exact hi
  unfold verifyUserptr
  by_cases hsame : sameUserptr (s.buf.planes i) (s.user i)
  · rw [if_pos hsame]
    refine ⟨fun _ => h.pass h.going rfl rfl rfl (fun _ _ => rfl) ?_ fun hp hch => ?_, fun hne => absurd hret hne⟩
    · exact fun hnone => hsame.1 (h.going.blank i hnone)
    · rw [hp, huser] at hsame
      exact hch.1 hsame
  rw [if_neg hsame]
  by_cases hshort : (s.user i).length < (s.buf.planes i).minLength
  · rw [if_pos hshort]
    have hre : s.reacquired = true := by
      rcases hr : s.reacquired with _ | _
      · rw [(h.unchanged hr).1, huser] at hsame hshort
        exact absurd ⟨hsame, hshort⟩ (h.not_refused hin hfill hi hr)
      · rfl
    exact ⟨fun h0 => absurd h0 (show (-EINVAL : ℤ) ≠ 0 by decide),
      fun _ => ⟨h.going.owned, h.going.blank, h.going.idle hre, h.numPlanes⟩⟩
  rw [if_neg hshort]
  dsimp only
  obtain ⟨t, ht, howned, hidle, hre, hplanes, hnum, hus, hr⟩ : ∃ t, (if s.buf.mem i ≠ none then s.reacquire else s) = t ∧
      Owned t.buf ∧ phase t.buf.log = .idle ∧ t.reacquired = true ∧ t.buf.planes = s.buf.planes ∧
      t.buf.numPlanes = s.buf.numPlanes ∧ t.user = s.user ∧ t.ret = s.ret := by
    by_cases hmem : s.buf.mem i ≠ none
    · exact ⟨_, if_pos hmem, h.going.reacquire⟩
    · have hre : s.reacquired = true := by
        rcases hr : s.reacquired with _ | _
        · exact absurd ((h.going.ready hr).held i hik) hmem
        · rfl
      exact ⟨s, if_neg hmem, h.going.owned, h.going.idle hre, hre, rfl, rfl, rfl, rfl⟩
  rw [ht]
  have hmems : t.buf.mem = s.buf.mem := funext fun j => congrArg (fun f => (f j).memPriv) hplanes
  have hblank : Blanked .userptr t.buf := fun j hj => by
    rw [hplanes]
    rw [hmems] at hj
    exact h.going.blank j hj
  have hc := (emptied_putUserptr howned i).modify
    (f := fun p => { p with bytesused := 0, length := 0, userptr := 0, dataOffset := 0 }) rfl
  have hspec := replaced hblank hidle (hnum ▸ hik) hc
    (show Blank _ ImportMemory.userptr by rw [modify_planes, if_pos rfl]; rfl)
    (((putUserptr t.buf i).modify i
      fun p => { p with bytesused := 0, length := 0, userptr := 0, dataOffset := 0 }).planes i).dbuf
  by_cases hget : d.getUserptr i ≠ 0
  · rw [if_pos hget]
    exact ⟨fun h0 => absurd h0 hget, fun _ => ⟨hspec.1.1, hspec.1.2.1, hspec.1.2.2,
      hc.numPlanes.trans (hnum.trans h.numPlanes)⟩⟩
  · rw [if_neg hget]
    rw [hmems] at hspec
    refine ⟨fun _ => h.renewed rfl hre (hc.numPlanes.trans hnum) (fun j _ => congrFun hus j) hspec.2,
      fun hne => absurd (hr.trans hret) hne⟩

/-- A turn of the first loop of `__prepare_dmabuf`, for a descriptor of `dbuf`. -/
theorem verifyDbuf_turn (h : Turn .dmabuf d b i s) (hin : InTime .dmabuf b d) (hfill : d.fill = 0)
    (hi : i < b.numPlanes) (hret : s.ret = 0) {dbuf : ℕ} (hdbuf : d.dmaBufGet i = some dbuf) :
    ((verifyDbuf d s i dbuf).ret = 0 → Turn .dmabuf d b (i + 1) (verifyDbuf d s i dbuf)) ∧
      ((verifyDbuf d s i dbuf).ret ≠ 0 → Stopped .dmabuf b.numPlanes (verifyDbuf d s i dbuf)) := by
  have huser := h.user i le_rfl
  have hik : i < s.buf.numPlanes := by rw [h.numPlanes]; exact hi
  have hlater (u : UserPlane) (j : ℕ) (hj : i + 1 ≤ j) : Function.update s.user i u j = s.user j :=
    Function.update_of_ne (by omega) _ _
  have hcalled (e : DmabufEvent) {t : ImportBuffer} (ht : Owned t ∧ Blanked .dmabuf t ∧ phase t.log = .idle) :
      Owned (t.call (.other e)) ∧ Blanked .dmabuf (t.call (.other e)) ∧ phase (t.call (.other e)).log = .idle :=
    ⟨ht.1.other e, ht.2.1, ht.2.2⟩
  have hgoing (e : DmabufEvent) {t : Verify} (ht : Going .dmabuf t) (u : ℕ → UserPlane) :
      Going .dmabuf { t with buf := t.buf.call (.other e), user := u } :=
    ⟨ht.owned.other e, ht.blank, fun hr => ⟨(ht.ready hr).phase, (ht.ready hr).held, (ht.ready hr).mapped⟩, ht.idle⟩
  unfold verifyDbuf
  dsimp only
  generalize hu : Function.update s.user i { s.user i with length := dmabufLength d (s.user i) dbuf } = user
  have huser' (j : ℕ) (hj : i + 1 ≤ j) : user j = s.user j := by
    rw [← hu]
    exact hlater _ j hj
  rw [huser, call_planes]
  by_cases hshort : dmabufLength d (d.user i) dbuf < (s.buf.planes i).minLength
  · rw [if_pos hshort]
    have hre : s.reacquired = true := by
      rcases hr : s.reacquired with _ | _
      · rw [(h.unchanged hr).1] at hshort
        refine absurd (fun x hx => ?_) (h.not_refused hin hfill hi hr)
        obtain rfl := Option.some.inj (hdbuf.symm.trans hx)
        exact hshort
      · rfl
    refine ⟨fun h0 => absurd h0 (show (-EINVAL : ℤ) ≠ 0 by decide), fun _ => ?_⟩
    have hc := hcalled (.putDbuf (some dbuf)) (hcalled (.getDbuf dbuf) ⟨h.going.owned, h.going.blank, h.going.idle hre⟩)
    exact ⟨hc.1, hc.2.1, hc.2.2, h.numPlanes⟩
  rw [if_neg hshort]
  by_cases hsame : sameDmabuf (s.buf.planes i) dbuf (dmabufLength d (d.user i) dbuf)
  · rw [if_pos hsame]
    refine ⟨fun _ => h.pass (hgoing (.putDbuf (some dbuf)) (hgoing (.getDbuf dbuf) h.going user) user) rfl rfl rfl
      huser' ?_ fun hp hch => ?_, fun hne => absurd hret hne⟩
    · intro hnone
      exact Option.some_ne_none dbuf (hsame.1.symm.trans (h.going.blank i hnone))
    · obtain ⟨x, hx, -, hne⟩ := hch
      obtain rfl := Option.some.inj (hdbuf.symm.trans hx)
      rw [hp] at hsame
      exact hne hsame
  rw [if_neg hsame]
  obtain ⟨howned, hidle, hre, hplanes, hnum, hus, hr⟩ := (hgoing (.getDbuf dbuf) h.going user).reacquire
  generalize Verify.reacquire
    { s with buf := s.buf.call (.other (.getDbuf dbuf)), user := user } = t at howned hidle hre hplanes hnum hus hr ⊢
  have hmems : t.buf.mem = s.buf.mem := funext fun j => congrArg (fun f => (f j).memPriv) hplanes
  have hblank : Blanked .dmabuf t.buf := fun j hj => by
    rw [hplanes]
    rw [hmems] at hj
    exact h.going.blank j hj
  have hc := (emptied_vb2PlaneDmabufPut howned i).modify
    (f := fun p => { p with bytesused := 0, length := 0, fd := 0, dataOffset := 0 }) rfl
  have hspec := replaced hblank hidle (hnum ▸ hik) hc
    (show Blank _ ImportMemory.dmabuf by
      rw [modify_planes, if_pos rfl]
      exact vb2PlaneDmabufPut_dbuf hblank i) (some dbuf)
  by_cases hattach : d.attach i ≠ 0
  · rw [if_pos hattach]
    refine ⟨fun h0 => absurd h0 hattach, fun _ => ?_⟩
    have hput := hcalled (.putDbuf (some dbuf)) hspec.1
    exact ⟨hput.1, hput.2.1, hput.2.2, hc.numPlanes.trans (hnum.trans h.numPlanes)⟩
  · rw [if_neg hattach]
    rw [hmems] at hspec
    refine ⟨fun _ => h.renewed rfl hre (hc.numPlanes.trans hnum) (fun j hj => ?_) hspec.2,
      fun hne => absurd (hr.trans hret) hne⟩
    exact (congrFun hus j).trans (huser' j hj)

/-- A turn of the first loop of `__prepare_dmabuf`. -/
theorem verifyDmabuf_turn (h : Turn .dmabuf d b i s) (hin : InTime .dmabuf b d) (hfill : d.fill = 0)
    (hi : i < b.numPlanes) (hret : s.ret = 0) :
    ((verifyDmabuf d s i).ret = 0 → Turn .dmabuf d b (i + 1) (verifyDmabuf d s i)) ∧
      ((verifyDmabuf d s i).ret ≠ 0 → Stopped .dmabuf b.numPlanes (verifyDmabuf d s i)) := by
  rcases hdbuf : d.dmaBufGet i with _ | dbuf
  · have hre : s.reacquired = true := by
      rcases hr : s.reacquired with _ | _
      · refine absurd (fun x hx => ?_) (h.not_refused hin hfill hi hr)
        rw [hdbuf] at hx
        exact nomatch hx
      · rfl
    rw [verifyDmabuf, hdbuf]
    exact ⟨fun h0 => absurd h0 (show (-EINVAL : ℤ) ≠ 0 by decide),
      fun _ => ⟨h.going.owned, h.going.blank, h.going.idle hre, h.numPlanes⟩⟩
  · rw [verifyDmabuf, hdbuf]
    exact verifyDbuf_turn h hin hfill hi hret hdbuf

/-- The second loop of `__prepare_dmabuf` in front of the plane `i`. -/
structure Mapped (n i : ℕ) (s : Verify) : Prop where
  going : Going .dmabuf s
  numPlanes : s.buf.numPlanes = n
  held : ∀ j < n, s.buf.mem j ≠ none
  mapped : ∀ j < i, (s.buf.planes j).dbufMapped = true

/-- A turn of the second loop of `__prepare_dmabuf`. -/
theorem mapDmabuf_turn {n : ℕ} (h : Mapped n i s) (hi : i < n) (hret : s.ret = 0) :
    ((mapDmabuf d s i).ret = 0 → Mapped n (i + 1) (mapDmabuf d s i)) ∧
      ((mapDmabuf d s i).ret ≠ 0 → Stopped .dmabuf n (mapDmabuf d s i)) := by
  have hik : i < s.buf.numPlanes := by rw [h.numPlanes]; exact hi
  have hnext {t : ImportBuffer} (hi' : (t.planes i).dbufMapped = true)
      (hlt : ∀ j < i, (t.planes j).dbufMapped = true) : ∀ j < i + 1, (t.planes j).dbufMapped = true := by
    intro j hj
    rcases Nat.lt_succ_iff_lt_or_eq.mp hj with hj | rfl
    · exact hlt j hj
    · exact hi'
  unfold mapDmabuf
  by_cases hmapped : (s.buf.planes i).dbufMapped = true
  · rw [if_pos hmapped]
    exact ⟨fun _ => ⟨h.going, h.numPlanes, h.held, hnext hmapped h.mapped⟩, fun hne => absurd hret hne⟩
  rw [if_neg hmapped]
  have hre : s.reacquired = true := by
    rcases hr : s.reacquired with _ | _
    · exact absurd ((h.going.ready hr).mapped rfl i hik) hmapped
    · rfl
  by_cases hmap : d.map i ≠ 0
  · rw [if_pos hmap]
    exact ⟨fun h0 => absurd h0 hmap, fun _ => ⟨h.going.owned, h.going.blank, h.going.idle hre, h.numPlanes⟩⟩
  rw [if_neg hmap]
  have hmem : ((s.buf.call (.other (.map (s.buf.mem i)))).modify i fun p => { p with dbufMapped := true }).mem =
      s.buf.mem := modify_mem_of_eq rfl
  refine ⟨fun _ => ⟨⟨(h.going.owned.other _).modify (f := fun p => { p with dbufMapped := true }) rfl, fun j hj => ?_,
    fun hr => ?_, fun _ => h.going.idle hre⟩,
    h.numPlanes, fun j hj => ?_, hnext ?_ fun j hj => ?_⟩, fun hne => absurd hret hne⟩
  · dsimp only at hj ⊢
    rw [hmem] at hj
    have hblank := h.going.blank j hj
    rw [modify_planes]
    split
    · subst j
      exact hblank
    · exact hblank
  · exact absurd (hre.symm.trans hr).symm Bool.false_ne_true
  · dsimp only
    rw [hmem]
    exact h.held j hj
  · dsimp only
    rw [modify_planes, if_pos rfl]
  · dsimp only
    rw [modify_planes, if_neg hj.ne]
    exact h.mapped j hj

end Loops

/-! ## Preparing and freeing -/

section Preparing

variable {mem : ImportMemory} {d : Provided} {b : ImportBuffer} {s : Verify} {n : ℕ}

/-- Between the calls the buffer is initialised, or it has no memory. -/
structure AtRest (mem : ImportMemory) (n : ℕ) (b : ImportBuffer) : Prop where
  owned : Owned b
  blank : Blanked mem b
  numPlanes : b.numPlanes = n
  state : Ready mem b ∨ phase b.log = .idle ∧ ∀ k, b.mem k = none

/-- All planes are there. -/
structure Verified (mem : ImportMemory) (n : ℕ) (s : Verify) : Prop where
  going : Going mem s
  numPlanes : s.buf.numPlanes = n
  held : ∀ j < n, s.buf.mem j ≠ none
  mapped : mem = .dmabuf → ∀ j < n, (s.buf.planes j).dbufMapped = true

theorem AtRest.ready_of_ne (h : AtRest mem n b) (hmem : b.mem 0 ≠ none) : Ready mem b :=
  h.state.resolve_right fun hidle => hmem (hidle.2 0)

theorem AtRest.idle_of_eq (h : AtRest mem n b) (hn : 0 < n) (hmem : b.mem 0 = none) : phase b.log = .idle :=
  (h.state.resolve_left fun hready => hready.held 0 (by rw [h.numPlanes]; exact hn) hmem).1

/-- In front of the first loop. -/
theorem AtRest.turn (h : AtRest mem n b) (hn : 0 < n) : Turn mem d b 0 ⟨b, d.user, b.mem 0 = none, 0⟩ where
  going := by
    refine ⟨h.owned, h.blank, fun hr => ?_, fun hr => ?_⟩
    · exact h.ready_of_ne (of_decide_eq_false hr)
    · exact h.idle_of_eq hn (of_decide_eq_true hr)
  numPlanes := rfl
  held := fun j hj => absurd hj (Nat.not_lt_zero j)
  user := fun _ _ => rfl
  unchanged := fun hr => ⟨rfl, of_decide_eq_false hr, fun j hj => absurd hj (Nat.not_lt_zero j)⟩

/-- The loops end with all planes there, or with an error that leaves the buffer cleaned up. -/
theorem verifyPlanes_spec (h : AtRest mem n b) (hn : 0 < n) (hin : InTime mem b d) (hfill : d.fill = 0) :
    (verifyPlanes mem d b).ret = 0 ∧ Verified mem n (verifyPlanes mem d b) ∨
      (verifyPlanes mem d b).ret ≠ 0 ∧ Stopped mem n (verifyPlanes mem d b) := by
  have hturn : Turn mem d b 0 ⟨b, d.user, b.mem 0 = none, 0⟩ := h.turn hn
  obtain rfl := h.numPlanes
  cases mem with
  | userptr =>
    refine (verifyLoop_inv (P := Turn .userptr d b) (Q := Stopped .userptr b.numPlanes)
      (fun k hk s hs hret => (verifyUserptr_turn hs hin hfill hk hret).1)
      (fun k hk s hs hret => (verifyUserptr_turn hs hin hfill hk hret).2) hturn rfl).imp_left fun hend => ?_
    exact ⟨hend.1, hend.2.going, hend.2.numPlanes, hend.2.held, fun he => nomatch he⟩
  | dmabuf =>
    have hfirst := verifyLoop_inv (P := Turn .dmabuf d b) (Q := Stopped .dmabuf b.numPlanes)
      (fun k hk s hs hret => (verifyDmabuf_turn hs hin hfill hk hret).1)
      (fun k hk s hs hret => (verifyDmabuf_turn hs hin hfill hk hret).2) hturn rfl
    rw [verifyPlanes]
    generalize verifyLoop (verifyDmabuf d) (List.range b.numPlanes) ⟨b, d.user, b.mem 0 = none, 0⟩ = s at hfirst ⊢
    rcases hfirst with ⟨hret, hend⟩ | ⟨hret, hstop⟩
    · rw [if_neg (not_not.mpr hret)]
      have hmapped : Mapped b.numPlanes 0 s :=
        ⟨hend.going, hend.numPlanes, hend.held, fun j hj => absurd hj (Nat.not_lt_zero j)⟩
      refine (verifyLoop_inv (P := Mapped b.numPlanes) (Q := Stopped .dmabuf b.numPlanes)
        (fun k hk s hs hret => (mapDmabuf_turn hs hk hret).1)
        (fun k hk s hs hret => (mapDmabuf_turn hs hk hret).2) hmapped hret).imp_left fun hend => ?_
      exact ⟨hend.1, hend.2.going, hend.2.numPlanes, hend.2.held, fun _ => hend.2.mapped⟩
    · rw [if_pos hret]
      exact Or.inr ⟨hret, hstop⟩

theorem copyPlanes_mem (mem : ImportMemory) (b : ImportBuffer) (user : ℕ → UserPlane) :
    (copyPlanes mem b user).mem = b.mem := by
  funext k
  show ((copyPlanes mem b user).planes k).memPriv = (b.planes k).memPriv
  unfold copyPlanes
  dsimp only
  split <;> rfl

theorem copyPlanes_dbufMapped (mem : ImportMemory) (b : ImportBuffer) (user : ℕ → UserPlane) (k : ℕ) :
    ((copyPlanes mem b user).planes k).dbufMapped = (b.planes k).dbufMapped := by
  unfold copyPlanes
  dsimp only
  split <;> rfl

/-- What is provided is copied to planes that are there. -/
theorem Verified.copied (h : Verified mem n s) :
    Owned (copyPlanes mem s.buf s.user) ∧ Blanked mem (copyPlanes mem s.buf s.user) := by
  refine ⟨⟨?_, h.going.owned.fresh, ?_⟩, fun k hk => ?_⟩
  · rw [copyPlanes_mem]
    exact h.going.owned.accounted
  · rw [copyPlanes_mem]
    exact h.going.owned.beyond
  · rw [copyPlanes_mem] at hk
    have hout : ¬k < s.buf.numPlanes := fun hlt => h.held k (h.numPlanes ▸ hlt) hk
    have hsame : (copyPlanes mem s.buf s.user).planes k = s.buf.planes k := if_neg hout
    rw [hsame]
    exact h.going.blank k hk

/-- A buffer that has been cleaned up gives its planes away. -/
theorem atRest_abandonPlanes (howned : Owned b) (hblank : Blanked mem b) (hnum : b.numPlanes = n)
    (hidle : phase b.log = .idle) : AtRest mem n (abandonPlanes mem b) := by
  obtain ⟨howned', hblank', hphase, hnum', hnone⟩ := abandonPlanes_spec howned hblank
  exact ⟨howned', hblank', hnum'.trans hnum, Or.inr ⟨hphase.trans hidle, hnone⟩⟩

/-- **A preparation leaves the buffer initialised, or without memory.** -/
theorem atRest_finishPrepare (h : Verified mem n s) : AtRest mem n (finishPrepare mem d s).1 := by
  obtain ⟨howned, hblank⟩ := h.copied
  have hnum : (copyPlanes mem s.buf s.user).numPlanes = n := h.numPlanes
  have hheld : ∀ k < (copyPlanes mem s.buf s.user).numPlanes, (copyPlanes mem s.buf s.user).mem k ≠ none := by
    rw [copyPlanes_mem, hnum]
    exact h.held
  have hmapped : mem = .dmabuf → ∀ k < (copyPlanes mem s.buf s.user).numPlanes,
      ((copyPlanes mem s.buf s.user).planes k).dbufMapped = true := by
    intro hm k hk
    rw [copyPlanes_dbufMapped]
    exact h.mapped hm k (hnum ▸ hk)
  have hmems : (copyPlanes mem s.buf s.user).mems = s.buf.mems := by
    rw [ImportBuffer.mems, copyPlanes_mem]
    rfl
  have hidle : s.reacquired = true → phase (copyPlanes mem s.buf s.user).log = .idle := h.going.idle
  have hready : s.reacquired = false → phase (copyPlanes mem s.buf s.user).log =
      .inUse (copyPlanes mem s.buf s.user).mems := by
    rw [hmems]
    exact fun hr => (h.going.ready hr).phase
  rw [finishPrepare]
  dsimp only
  generalize copyPlanes mem s.buf s.user = b at howned hblank hnum hheld hmapped hidle hready ⊢
  by_cases hinit : s.reacquired = true ∧ d.bufInit ≠ 0
  · rw [if_pos hinit]
    exact atRest_abandonPlanes howned hblank hnum (hidle hinit.1)
  rw [if_neg hinit]
  have hc : AtRest mem n (if s.reacquired then b.bufInit else b) ∧
      Ready mem (if s.reacquired then b.bufInit else b) := by
    rcases hr : s.reacquired with _ | _
    · have hb : Ready mem b := ⟨hready hr, hheld, hmapped⟩
      rw [if_neg Bool.false_ne_true]
      exact ⟨⟨howned, hblank, hnum, Or.inl hb⟩, hb⟩
    · have hb : Ready mem b.bufInit := ⟨phase_start (hidle hr) (howned.holds hheld), hheld, hmapped⟩
      rw [if_pos rfl]
      exact ⟨⟨howned.bufInit, hblank, hnum, Or.inl hb⟩, hb⟩
  generalize (if s.reacquired then b.bufInit else b) = c at hc ⊢
  obtain ⟨hrest, hc⟩ := hc
  split
  · exact atRest_abandonPlanes hrest.owned.bufCleanup hrest.blank hrest.numPlanes
      (phase_stop hc.phase (hrest.owned.holds hc.held))
  · exact hrest

theorem atRest_prepareBuffer (h : AtRest mem n b) (hn : 0 < n) (hin : InTime mem b d) :
    AtRest mem n (prepareBuffer mem d b).1 := by
  rw [prepareBuffer]
  by_cases hfill : d.fill ≠ 0
  · rw [if_pos hfill]
    exact h
  rw [if_neg hfill]
  dsimp only
  rcases verifyPlanes_spec h hn hin (not_not.mp hfill) with ⟨hret, hend⟩ | ⟨hret, hstop⟩
  · rw [if_neg (not_not.mpr hret)]
    exact atRest_finishPrepare hend
  · rw [if_pos hret]
    exact atRest_abandonPlanes hstop.owned hstop.blank hstop.numPlanes hstop.idle

/-- A buffer that is freed is cleaned up first, if it is initialised. -/
theorem balanced_freeBuffer (h : AtRest mem n b) (hn : 0 < n) : Balanced (freeBuffer mem b).log := by
  obtain ⟨howned, hidle⟩ : Owned (if b.mem 0 ≠ none then b.bufCleanup else b) ∧
      phase (if b.mem 0 ≠ none then b.bufCleanup else b).log = .idle := by
    by_cases hmem : b.mem 0 = none
    · rw [if_neg (not_not.mpr hmem)]
      exact ⟨h.owned, h.idle_of_eq hn hmem⟩
    · have hready := h.ready_of_ne hmem
      rw [if_pos hmem]
      exact ⟨h.owned.bufCleanup, phase_stop hready.phase (h.owned.holds hready.held)⟩
  rw [freeBuffer]
  generalize (if b.mem 0 ≠ none then b.bufCleanup else b) = c at howned hidle ⊢
  obtain ⟨howned', hphase, -, hkeep, hall⟩ := emptied_loop (emptied_memoryPut mem) (List.range c.numPlanes) howned
  refine ⟨hphase.trans hidle, fun m hm => howned'.accounted.settled (fun k => ?_) hm⟩
  rcases lt_or_ge k c.numPlanes with hk | hk
  · exact hall k (List.mem_range.mpr hk)
  · exact hkeep k (howned.beyond k hk)

theorem atRest_initial (mem : ImportMemory) (n : ℕ) (minLength : ℕ → UInt32) :
    AtRest mem n (.initial n minLength) where
  owned := ⟨accounted_nil, fun _ hm => absurd hm List.not_mem_nil, fun _ _ => rfl⟩
  blank := fun k _ => by
    cases mem <;> rfl
  numPlanes := rfl
  state := Or.inr ⟨rfl, fun _ => rfl⟩

/-- **The calls are balanced in every run** in which planes are refused in time. -/
theorem balanced_run {minLength : ℕ → UInt32} {ds : List Provided} (hn : 0 < n)
    (hin : Along (prepareStep mem) (InTime mem) (.initial n minLength) ds)
    (h : run (prepareStep mem) (.initial n minLength) ds = some b) : Balanced (freeBuffer mem b).log := by
  have hrest : AtRest mem n b := by
    refine run_inv_along (I := AtRest mem n) ?_ (atRest_initial mem n minLength) hin h
    rintro b d _ hb hd ⟨⟩
    exact atRest_prepareBuffer hb hn hd
  exact balanced_freeBuffer hrest hn

end Preparing

/-! ## Two planes -/

instance (d : Provided) (b : ImportBuffer) (k : ℕ) : (mem : ImportMemory) → Decidable (Refused d b k mem)
  | .userptr => inferInstanceAs (Decidable (_ ∧ _))
  | .dmabuf => inferInstanceAs (Decidable (∀ dbuf ∈ d.dmaBufGet k, _))

instance (d : Provided) (b : ImportBuffer) (k : ℕ) : (mem : ImportMemory) → Decidable (Changed d b k mem)
  | .userptr => inferInstanceAs (Decidable (_ ∧ _))
  | .dmabuf => inferInstanceAs (Decidable (∃ dbuf ∈ d.dmaBufGet k, _))

instance (mem : ImportMemory) (b : ImportBuffer) (d : Provided) : Decidable (InTime mem b d) :=
  inferInstanceAs (Decidable (_ → _ → ∀ k < b.numPlanes, _))

/-- Planes at `address` and behind it, of `length` bytes each; `buf_prepare` returns `ret`. -/
def twoPlanes (address : UInt64) (length : UInt32) (ret : ℤ) : Provided where
  fill := 0
  user := fun k => ⟨address + UInt64.ofNat k, k, length, 0, 0⟩
  getUserptr := fun _ => 0
  dmaBufGet := fun k => some k
  dbufSize := fun _ => 4096
  attach := fun _ => 0
  map := fun _ => 0
  bufInit := 0
  bufPrepare := ret

/-- The buffer is prepared twice with the same planes, once with others, and once more in vain. -/
def fourPreparations : List Provided :=
  [twoPlanes 0x10000 4096 0, twoPlanes 0x10000 4096 0, twoPlanes 0x20000 4096 0, twoPlanes 0x20000 4096 (-5)]

theorem balanced_run_fourPreparations : ∃ b,
    run (prepareStep .userptr) (.initial 2 fun _ => 4096) fourPreparations = some b ∧
      Balanced (freeBuffer .userptr b).log := by
  obtain ⟨b, hb⟩ := Option.isSome_iff_exists.mp
    (show (run (prepareStep .userptr) (.initial 2 fun _ => 4096) fourPreparations).isSome = true by decide +kernel)
  have hin : Along (prepareStep .userptr) (InTime .userptr) (.initial 2 fun _ => 4096) fourPreparations := by
    decide +kernel
  exact ⟨b, hb, balanced_run (by decide) hin hb⟩

/-- A plane that is too small: the buffer loses its planes without having been cleaned up. -/
theorem not_balanced : ∃ b,
    run (prepareStep .userptr) (.initial 2 fun _ => 4096) [twoPlanes 0x10000 4096 0, twoPlanes 0x20000 10 0] = some b ∧
      (freeBuffer .userptr b).log =
        [.put 1, .put 0, .start [some 0, some 1], .get 1, .get 0] ∧ ¬Balanced (freeBuffer .userptr b).log := by
  obtain ⟨b, hb⟩ := Option.isSome_iff_exists.mp
    (show (run (prepareStep .userptr) (.initial 2 fun _ => 4096)
      [twoPlanes 0x10000 4096 0, twoPlanes 0x20000 10 0]).isSome = true by decide +kernel)
  have hlog : (run (prepareStep .userptr) (.initial 2 fun _ => 4096)
      [twoPlanes 0x10000 4096 0, twoPlanes 0x20000 10 0]).map (fun b => (freeBuffer .userptr b).log) =
        some [.put 1, .put 0, .start [some 0, some 1], .get 1, .get 0] := by decide +kernel
  rw [hb] at hlog
  replace hlog : (freeBuffer .userptr b).log = [.put 1, .put 0, .start [some 0, some 1], .get 1, .get 0] :=
    Option.some.inj hlog
  refine ⟨b, hb, hlog, fun h => ?_⟩
  have hphase := h.phase
  rw [hlog] at hphase
  exact absurd hphase (by decide +kernel)

end Vb2
end TbsMedia
