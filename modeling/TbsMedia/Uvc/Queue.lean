import Mathlib
import TbsMedia.Uvc.Video

/-!
# Who has a buffer

A buffer of a stream is with the queue, with copy operations that are still to be run, with both, or with
neither, and then it has been given back.  Its reference count says so, in every state of a stream
(`Owned`).  Each function of the decoder keeps that.

* `Owned.release`: a reference is dropped, and the buffer is given back with the last one.
* `Owned.nextBuffers`, `Owned.decodeData`, `Owned.runCopy`: what the decoder does with a buffer.
-/

namespace TbsMedia
namespace Uvc

open Function Lib

/-- All copy operations that are still to be run. -/
def allOps (s : Stream) : List CopyOp := s.ops ++ s.works.flatten

/-- How many of them are on a buffer. -/
def opsOn (s : Stream) (a : ℕ) : ℕ := (allOps s).countP fun op => op.buf == a

/-- The references of a buffer, which is in the queue or not and has `n` copy operations on it. -/
structure Held (b : UvcBuffer) (inQueue : Bool) (n : ℕ) : Prop where
  free : b.free = true → inQueue = false ∧ n = 0
  ref : b.free = false → b.ref = inQueue.toNat + n ∧ 0 < b.ref
  ready : b.free = false → inQueue = false → b.state = .ready
  queued : b.state = .queued → b.bytesused = 0 ∧ n = 0

/-- Every reference is accounted for. -/
structure Owned (s : Stream) : Prop where
  nodup : s.irqqueue.Nodup
  buf : s.buf = none ∨ s.buf = s.irqqueue.head?
  tail : ∀ a ∈ s.irqqueue.tail, (s.bufs a).state = .queued
  held : ∀ a, Held (s.bufs a) (decide (a ∈ s.irqqueue)) (opsOn s a)

variable {s t : Stream} {a b n : ℕ} {data : List UInt8} {op : CopyOp}

@[simp] theorem set_bufs (s : Stream) (a : ℕ) (b : UvcBuffer) : (s.set a b).bufs a = b := update_self ..

theorem set_bufs_of_ne (s : Stream) (c : UvcBuffer) (h : b ≠ a) : (s.set a c).bufs b = s.bufs b :=
  update_of_ne h ..

/-- The state of a buffer says whether it is with the driver. -/
theorem free_eq {c : UvcBuffer} {state : BufState} (h : c.state = state) :
    c.free = (state == .idle || state == .done || state == .error) := by
  unfold UvcBuffer.free
  rw [h]

/-- A buffer that has just been queued. -/
theorem held_queued {c : UvcBuffer} (hstate : c.state = .queued) (hbytes : c.bytesused = 0) (href : c.ref = 1) :
    Held c true 0 :=
  ⟨fun hno => absurd ((free_eq hstate).symm.trans hno) (by decide), fun _ => ⟨href, by omega⟩,
    fun _ hno => absurd hno (by decide), fun _ => ⟨hbytes, rfl⟩⟩

/-- A buffer that has been given back. -/
theorem held_given {c : UvcBuffer} (hstate : c.state = .done ∨ c.state = .error) : Held c false 0 := by
  have hfree : c.free = true := by
    rcases hstate with hstate | hstate
    · exact free_eq hstate
    · exact free_eq hstate
  have hnot : c.state ≠ .queued := by
    rcases hstate with hstate | hstate
    · rw [hstate]
      decide
    · rw [hstate]
      decide
  exact ⟨fun _ => ⟨rfl, rfl⟩, fun hno => absurd (hfree.symm.trans hno) (by decide),
    fun hno => absurd (hfree.symm.trans hno) (by decide), fun hno => absurd hno hnot⟩

theorem opsOn_congr (hops : t.ops = s.ops) (hworks : t.works = s.works) (a : ℕ) : opsOn t a = opsOn s a := by
  unfold opsOn allOps
  rw [hops, hworks]

/-- The first buffer of the queue is not among the others. -/
theorem Owned.notMem_tail (h : Owned s) (ha : s.irqqueue.head? = some a) : a ∉ s.irqqueue.tail := by
  have hnodup := h.nodup
  rw [List.eq_cons_of_mem_head? (Option.mem_def.mpr ha)] at hnodup
  exact (List.nodup_cons.mp hnodup).1

theorem mem_of_head? (ha : s.irqqueue.head? = some a) : a ∈ s.irqqueue := List.mem_of_mem_head? ha

/-- The buffer of the URB is the first one of the queue. -/
theorem Owned.head (h : Owned s) (ha : s.buf = some a) : s.irqqueue.head? = some a := by
  rcases h.buf with hnone | hhead
  · rw [hnone] at ha
    cases ha
  · exact hhead.symm.trans ha

/-- Only the queue, the operations, and the states, references and sizes of the buffers matter. -/
theorem Owned.congr (h : Owned s) (hqueue : t.irqqueue = s.irqqueue) (hbuf : t.buf = s.buf)
    (hops : t.ops = s.ops) (hworks : t.works = s.works)
    (hbufs : ∀ a, (t.bufs a).state = (s.bufs a).state ∧ (t.bufs a).ref = (s.bufs a).ref ∧
      (t.bufs a).bytesused = (s.bufs a).bytesused) : Owned t := by
  refine ⟨by rw [hqueue]; exact h.nodup, by rw [hqueue, hbuf]; exact h.buf, fun a ha => ?_, fun a => ?_⟩
  · rw [hqueue] at ha
    rw [(hbufs a).1]
    exact h.tail a ha
  · obtain ⟨hstate, href, hbytes⟩ := hbufs a
    obtain ⟨hfree, hheld, hready, hqueued⟩ := h.held a
    have hsame : (t.bufs a).free = (s.bufs a).free := by
      unfold UvcBuffer.free
      rw [hstate]
    rw [hqueue, opsOn_congr hops hworks]
    exact ⟨by rw [hsame]; exact hfree, by rw [hsame, href]; exact hheld,
      by rw [hsame, hstate]; exact hready, by rw [hstate, hbytes]; exact hqueued⟩

/-- The error flag, the memory or the sequence number of a buffer is written to. -/
theorem Owned.setData (h : Owned s) {c : UvcBuffer} (hstate : c.state = (s.bufs a).state)
    (href : c.ref = (s.bufs a).ref) (hbytes : c.bytesused = (s.bufs a).bytesused) : Owned (s.set a c) := by
  refine h.congr rfl rfl rfl rfl fun b => ?_
  by_cases hb : b = a
  · subst hb
    rw [set_bufs]
    exact ⟨hstate, href, hbytes⟩
  · rw [set_bufs_of_ne s c hb]
    exact ⟨rfl, rfl, rfl⟩

/-- The first buffer of the queue becomes active or ready. -/
theorem Owned.setState (h : Owned s) (ha : s.irqqueue.head? = some a) {c : UvcBuffer}
    (hstate : c.state = .active ∨ c.state = .ready) (href : c.ref = (s.bufs a).ref) : Owned (s.set a c) := by
  have hmem := mem_of_head? ha
  have hfree : (s.bufs a).free = false := by
    by_contra hno
    have hout := ((h.held a).free (Bool.eq_true_of_not_eq_false hno)).1
    exact absurd hmem (of_decide_eq_false hout)
  refine ⟨h.nodup, h.buf, fun b hb => ?_, fun b => ?_⟩
  · have hba : b ≠ a := fun heq => h.notMem_tail ha (heq ▸ hb)
    rw [set_bufs_of_ne s c hba]
    exact h.tail b hb
  · by_cases hb : b = a
    · subst hb
      rw [set_bufs]
      show Held c (decide (b ∈ s.irqqueue)) (opsOn s b)
      obtain ⟨href', hpos⟩ := (h.held b).ref hfree
      refine ⟨fun hno => ?_, fun _ => by rw [href]; exact ⟨href', hpos⟩, fun _ hout => ?_, fun hno => ?_⟩
      · rcases hstate with hstate | hstate
        · exact absurd ((free_eq hstate).symm.trans hno) (by decide)
        · exact absurd ((free_eq hstate).symm.trans hno) (by decide)
      · exact absurd hmem (of_decide_eq_false hout)
      · rw [hno] at hstate
        exact absurd hstate (by decide)
    · rw [set_bufs_of_ne s c hb]
      exact h.held b

/-! ## References are dropped -/

/-- A reference on the buffer `a` is about to be dropped. -/
structure Releasing (s : Stream) (a : ℕ) : Prop where
  nodup : s.irqqueue.Nodup
  buf : s.buf = none ∨ s.buf = s.irqqueue.head?
  tail : ∀ b ∈ s.irqqueue.tail, (s.bufs b).state = .queued
  held : ∀ b, b ≠ a → Held (s.bufs b) (decide (b ∈ s.irqqueue)) (opsOn s b)
  free : (s.bufs a).free = false
  ref : (s.bufs a).ref = (decide (a ∈ s.irqqueue)).toNat + opsOn s a + 1
  ready : a ∉ s.irqqueue → (s.bufs a).state = .ready
  queued : (s.bufs a).state ≠ .queued

/-- An empty buffer that nobody has goes to the end of the queue. -/
theorem owned_enqueue (hnodup : s.irqqueue.Nodup) (hbuf : s.buf = none ∨ s.buf = s.irqqueue.head?)
    (htail : ∀ b ∈ s.irqqueue.tail, (s.bufs b).state = .queued)
    (hheld : ∀ b, b ≠ a → Held (s.bufs b) (decide (b ∈ s.irqqueue)) (opsOn s b))
    (hqueue : a ∉ s.irqqueue) (hops : opsOn s a = 0) {c : UvcBuffer} (hstate : c.state = .queued)
    (hbytes : c.bytesused = 0) (href : c.ref = 1) :
    Owned { s.set a c with irqqueue := s.irqqueue ++ [a] } := by
  have hstays : ∀ b, b ≠ a → (s.set a c).bufs b = s.bufs b := fun b hb => set_bufs_of_ne s c hb
  refine ⟨?_, ?_, fun b hb => ?_, fun b => ?_⟩
  · exact List.Nodup.append hnodup (List.nodup_singleton a) (by simpa using hqueue)
  · show s.buf = none ∨ s.buf = (s.irqqueue ++ [a]).head?
    rcases hbuf with hnone | hhead
    · exact Or.inl hnone
    · cases hq : s.irqqueue with
      | nil =>
        rw [hq] at hhead
        exact Or.inl hhead
      | cons d l =>
        rw [hq] at hhead
        exact Or.inr hhead
  · show ((s.set a c).bufs b).state = .queued
    by_cases hba : b = a
    · subst hba
      rw [set_bufs]
      exact hstate
    · rw [hstays b hba]
      refine htail b ?_
      replace hb : b ∈ (s.irqqueue ++ [a]).tail := hb
      cases hq : s.irqqueue with
      | nil =>
        rw [hq] at hb
        exact absurd hb List.not_mem_nil
      | cons d l =>
        rw [hq] at hb
        rcases List.mem_append.mp hb with hb | hb
        · exact hb
        · exact absurd (List.mem_singleton.mp hb) hba
  · show Held ((s.set a c).bufs b) (decide (b ∈ s.irqqueue ++ [a])) (opsOn s b)
    by_cases hba : b = a
    · subst hba
      rw [set_bufs, hops, decide_eq_true (List.mem_append_right _ (List.mem_singleton_self b))]
      exact held_queued hstate hbytes href
    · have hmem : b ∈ s.irqqueue ++ [a] ↔ b ∈ s.irqqueue := by
        rw [List.mem_append, List.mem_singleton]
        exact or_iff_left hba
      rw [hstays b hba, decide_eq_decide.mpr hmem]
      exact hheld b hba

/-- Two writes to a buffer. -/
theorem set_set (s : Stream) (a : ℕ) (b c : UvcBuffer) : (s.set a b).set a c = s.set a c := by
  unfold Stream.set
  dsimp only
  rw [update_idem]

theorem queueBufferRequeue_eq (s : Stream) (a : ℕ) :
    queueBufferRequeue s a =
      { s.set a { s.bufs a with error := false, state := .queued, bytesused := 0, ref := 1 } with
        irqqueue := s.irqqueue ++ [a] } := by
  unfold queueBufferRequeue bufferQueue
  rw [set_bufs, set_set]
  rfl

theorem prepareAndQueue_eq (s : Stream) (a : ℕ) (mem : Mem UInt8) (length : ℕ) :
    prepareAndQueue s a mem length =
      { s.set a { s.bufs a with
          state := .queued, error := false, mem := mem, length := length, bytesused := 0, ref := 1 } with
        irqqueue := s.irqqueue ++ [a] } := by
  unfold prepareAndQueue bufferQueue
  rw [set_bufs, set_set]
  rfl

/-- **A buffer is given back** once nobody has it. -/
theorem owned_complete (hnodup : s.irqqueue.Nodup) (hbuf : s.buf = none ∨ s.buf = s.irqqueue.head?)
    (htail : ∀ b ∈ s.irqqueue.tail, (s.bufs b).state = .queued)
    (hheld : ∀ b, b ≠ a → Held (s.bufs b) (decide (b ∈ s.irqqueue)) (opsOn s b))
    (hqueue : a ∉ s.irqqueue) (hops : opsOn s a = 0) : Owned (queueBufferComplete s a) := by
  unfold queueBufferComplete
  dsimp only
  by_cases hdrop : (s.dropCorrupted && (s.bufs a).error) = true
  · rw [if_pos hdrop, queueBufferRequeue_eq]
    exact owned_enqueue hnodup hbuf htail hheld hqueue hops rfl rfl rfl
  · rw [if_neg hdrop]
    refine ⟨hnodup, hbuf, fun b hb => ?_, fun b => ?_⟩
    · have hba : b ≠ a := fun heq => hqueue (heq ▸ List.mem_of_mem_tail hb)
      show ((Stream.set s a _).bufs b).state = _
      rw [set_bufs_of_ne _ _ hba]
      exact htail b hb
    · show Held ((Stream.set s a _).bufs b) (decide (b ∈ s.irqqueue)) (opsOn s b)
      by_cases hba : b = a
      · subst hba
        rw [set_bufs, hops, decide_eq_false hqueue]
        refine held_given ?_
        dsimp only
        split_ifs
        · exact Or.inr rfl
        · exact Or.inl rfl
      · rw [set_bufs_of_ne _ _ hba]
        exact hheld b hba

/-- **A reference is dropped**. -/
theorem Releasing.release (h : Releasing s a) : Owned (queueBufferRelease s a) := by
  obtain ⟨hnodup, hbuf, htail, hheld, hfree, href, hready, hqueued⟩ := h
  have hbufs : ∀ b, b ≠ a → (s.set a { s.bufs a with ref := (s.bufs a).ref - 1 }).bufs b = s.bufs b :=
    fun b hb => set_bufs_of_ne s _ hb
  have hself := set_bufs s a { s.bufs a with ref := (s.bufs a).ref - 1 }
  have htail' : ∀ b ∈ s.irqqueue.tail,
      ((s.set a { s.bufs a with ref := (s.bufs a).ref - 1 }).bufs b).state = .queued := by
    intro b hb
    by_cases hba : b = a
    · subst hba
      exact absurd (htail b hb) hqueued
    · rw [hbufs b hba]
      exact htail b hb
  unfold queueBufferRelease
  dsimp only
  rw [hself]
  dsimp only
  by_cases hlast : (s.bufs a).ref - 1 = 0
  · rw [if_pos hlast]
    have hout : decide (a ∈ s.irqqueue) = false := by
      cases hin : decide (a ∈ s.irqqueue) with
      | false => rfl
      | true =>
        rw [hin, Bool.toNat_true] at href
        omega
    rw [hout, Bool.toNat_false] at href
    refine owned_complete hnodup hbuf htail' (fun b hb => ?_) (of_decide_eq_false hout) ?_
    · rw [hbufs b hb]
      exact hheld b hb
    · show opsOn s a = 0
      omega
  · rw [if_neg hlast]
    refine ⟨hnodup, hbuf, htail', fun b => ?_⟩
    show Held _ (decide (b ∈ s.irqqueue)) (opsOn s b)
    by_cases hba : b = a
    · subst hba
      rw [hself]
      refine ⟨fun hno => absurd (hno.symm.trans hfree) (by decide), fun _ => ?_, fun _ hout => ?_,
        fun hno => absurd hno hqueued⟩
      · dsimp only
        omega
      · exact hready (of_decide_eq_false hout)
    · rw [hbufs b hba]
      exact hheld b hba

/-! ## What the decoder does with a buffer -/

/-- A buffer that is with the driver. -/
theorem Owned.not_free (h : Owned s) (ha : a ∈ s.irqqueue) : (s.bufs a).free = false := by
  by_contra hno
  have hout := ((h.held a).free (Bool.eq_true_of_not_eq_false hno)).1
  exact absurd ha (of_decide_eq_false hout)

/-- The queue without its first buffer. -/
theorem erase_head (ha : s.irqqueue.head? = some a) : s.irqqueue.erase a = s.irqqueue.tail := by
  cases hq : s.irqqueue with
  | nil =>
    rw [hq] at ha
    cases ha
  | cons c l =>
    rw [hq] at ha
    obtain rfl : c = a := Option.some.inj ha
    rw [List.erase_cons_head, List.tail_cons]

theorem mem_tail_iff (ha : s.irqqueue.head? = some a) (hb : b ≠ a) :
    b ∈ s.irqqueue.tail ↔ b ∈ s.irqqueue := by
  rw [← erase_head ha, List.mem_erase_of_ne hb]

/-- The decoder is done with the first buffer. -/
theorem Owned.queueNextBuffer (h : Owned s) (ha : s.irqqueue.head? = some a)
    (hready : (s.bufs a).state = .ready) : Owned (queueNextBuffer s a) := by
  have hmem := mem_of_head? ha
  have hfree := h.not_free hmem
  obtain ⟨href, -⟩ := (h.held a).ref hfree
  rw [decide_eq_true hmem, Bool.toNat_true] at href
  unfold Uvc.queueNextBuffer
  dsimp only
  rw [erase_head ha]
  refine Releasing.release ⟨h.nodup.sublist (List.tail_sublist _), Or.inr rfl, fun b hb => ?_, fun b hb => ?_, hfree,
    ?_, fun _ => hready, ?_⟩
  · exact h.tail b (List.mem_of_mem_tail hb)
  · show Held (s.bufs b) (decide (b ∈ s.irqqueue.tail)) (opsOn s b)
    rw [decide_eq_decide.mpr (mem_tail_iff ha hb)]
    exact h.held b
  · show (s.bufs a).ref = (decide (a ∈ s.irqqueue.tail)).toNat + opsOn s a + 1
    rw [decide_eq_false (h.notMem_tail ha), Bool.toNat_false, href]
    omega
  · show (s.bufs a).state ≠ .queued
    rw [hready]
    decide

/-- A size that is wrong marks the buffer. -/
theorem Owned.validateBuffer (h : Owned s) (a : ℕ) : Owned (validateBuffer s a) := by
  unfold Uvc.validateBuffer
  by_cases hwrong : s.dwMaxVideoFrameSize ≠ (s.bufs a).bytesused ∧ ¬ s.compressed
  · rw [if_pos hwrong]
    exact h.setData rfl rfl rfl
  · rw [if_neg hwrong]
    exact h

theorem validateBuffer_spec (s : Stream) (a : ℕ) :
    (validateBuffer s a).irqqueue = s.irqqueue ∧ (validateBuffer s a).buf = s.buf ∧
      ∀ b, ((validateBuffer s a).bufs b).state = (s.bufs b).state := by
  unfold validateBuffer
  split_ifs
  · refine ⟨rfl, rfl, fun b => ?_⟩
    by_cases hb : b = a
    · subst hb
      rw [set_bufs]
    · rw [set_bufs_of_ne _ _ hb]
  · exact ⟨rfl, rfl, fun _ => rfl⟩

/-- **The next buffer** takes the place of the first one. -/
theorem Owned.nextBuffers (h : Owned s) (ha : s.irqqueue.head? = some a)
    (hready : (s.bufs a).state = .ready) : Owned (nextBuffers s a) := by
  obtain ⟨hqueue, -, hstate⟩ := validateBuffer_spec s a
  unfold Uvc.nextBuffers
  dsimp only
  refine Owned.queueNextBuffer ((h.validateBuffer a).congr rfl rfl rfl rfl fun _ => ⟨rfl, rfl, rfl⟩) ?_ ?_
  · exact (congrArg List.head? hqueue).trans ha
  · exact (hstate a).trans hready

theorem opsOn_push (s : Stream) (op : CopyOp) (c : UvcBuffer) (b : ℕ) :
    opsOn { s.set a c with ops := s.ops ++ [op] } b = opsOn s b + (if op.buf = b then 1 else 0) := by
  unfold opsOn allOps Stream.set
  dsimp only
  rw [List.countP_append, List.countP_append, List.countP_append, List.countP_singleton]
  have hiff : (if (op.buf == b) = true then 1 else 0) = if op.buf = b then 1 else 0 := if_congr beq_iff_eq rfl rfl
  rw [hiff]
  omega

/-- **A copy operation is set up** for the first buffer. -/
theorem Owned.decodeData (h : Owned s) (ha : s.irqqueue.head? = some a)
    (hstate : (s.bufs a).state = .active ∨ (s.bufs a).state = .ready) : Owned (decodeData s a data) := by
  have hmem := mem_of_head? ha
  have hfree := h.not_free hmem
  obtain ⟨href, -⟩ := (h.held a).ref hfree
  rw [decide_eq_true hmem, Bool.toNat_true] at href
  unfold Uvc.decodeData
  dsimp only
  by_cases hzero : data.length = 0
  · rw [if_pos hzero]
    exact h
  · rw [if_neg hzero]
    refine ⟨h.nodup, h.buf, fun b hb => ?_, fun b => ?_⟩
    · have hba : b ≠ a := fun heq => h.notMem_tail ha (heq ▸ hb)
      show ((Stream.set s a _).bufs b).state = _
      rw [set_bufs_of_ne _ _ hba]
      exact h.tail b hb
    · rw [opsOn_push]
      show Held ((Stream.set s a _).bufs b) (decide (b ∈ s.irqqueue)) _
      by_cases hba : b = a
      · subst hba
        rw [set_bufs, if_pos rfl, decide_eq_true hmem]
        have hafter : ∀ c : UvcBuffer, (c.state = .active ∨ c.state = .ready) →
            c.ref = (s.bufs b).ref + 1 → Held c true (opsOn s b + 1) := by
          intro c hc hcref
          have hbusy : c.free = false := by
            rcases hc with hc | hc
            · exact free_eq hc
            · exact free_eq hc
          refine ⟨fun hno => absurd (hno.symm.trans hbusy) (by decide), fun _ => ?_,
            fun _ hno => absurd hno (by decide), fun hno => ?_⟩
          · rw [hcref, href, Bool.toNat_true]
            exact ⟨by omega, by omega⟩
          · rw [hno] at hc
            exact absurd hc (by decide)
        by_cases hlong : data.length > (s.bufs b).length - (s.bufs b).bytesused
        · rw [if_pos hlong]
          exact hafter _ (Or.inr rfl) rfl
        · rw [if_neg hlong]
          exact hafter _ hstate rfl
      · rw [set_bufs_of_ne _ _ hba, if_neg (Ne.symm hba)]
        exact h.held b

/-- A copy operation is taken out of a work item. -/
theorem allOps_perm {k : ℕ} {ops : List CopyOp} (hk : s.works[k]? = some (op :: ops)) :
    (allOps s).Perm (op :: allOps { s with works := s.works.set k ops }) := by
  unfold allOps
  dsimp only
  have hflatten : ∀ (works : List (List CopyOp)) (k : ℕ), works[k]? = some (op :: ops) →
      works.flatten.Perm (op :: (works.set k ops).flatten) := by
    intro works
    induction works with
    | nil =>
      intro k hk
      exact absurd hk (by simp)
    | cons w works ih =>
      intro k hk
      cases k with
      | zero =>
        rw [List.getElem?_cons_zero] at hk
        rw [Option.some.inj hk, List.set_cons_zero, List.flatten_cons, List.flatten_cons]
        exact List.Perm.refl _
      | succ k =>
        rw [List.getElem?_cons_succ] at hk
        rw [List.set_cons_succ, List.flatten_cons, List.flatten_cons]
        exact ((ih k hk).append_left w).trans List.perm_middle
  exact ((hflatten s.works k hk).append_left s.ops).trans List.perm_middle

theorem opsOn_pop {k : ℕ} {ops : List CopyOp} (hk : s.works[k]? = some (op :: ops)) (b : ℕ) :
    opsOn s b = opsOn { s with works := s.works.set k ops } b + (if op.buf = b then 1 else 0) := by
  unfold opsOn
  rw [(allOps_perm hk).countP_eq, List.countP_cons]
  have hiff : (if (op.buf == b) = true then 1 else 0) = if op.buf = b then 1 else 0 := if_congr beq_iff_eq rfl rfl
  rw [hiff]

/-- **A copy operation is run**. -/
theorem Owned.runCopy (h : Owned s) {k : ℕ} {ops : List CopyOp} (hk : s.works[k]? = some (op :: ops)) :
    Owned (runCopy { s with works := s.works.set k ops } op) := by
  have hself := opsOn_pop hk op.buf
  rw [if_pos rfl] at hself
  have hfree : (s.bufs op.buf).free = false := by
    by_contra hno
    have hzero := ((h.held op.buf).free (Bool.eq_true_of_not_eq_false hno)).2
    omega
  have hqueued : (s.bufs op.buf).state ≠ .queued := fun hno => by
    have hzero := ((h.held op.buf).queued hno).2
    omega
  obtain ⟨href, -⟩ := (h.held op.buf).ref hfree
  unfold Uvc.runCopy
  refine Releasing.release ⟨h.nodup, h.buf, fun b hb => ?_, fun b hb => ?_, ?_, ?_, fun hout => ?_, ?_⟩
  · have hba : b ≠ op.buf := fun heq => hqueued (heq ▸ h.tail b hb)
    show ((Stream.set _ op.buf _).bufs b).state = _
    rw [set_bufs_of_ne _ _ hba]
    exact h.tail b hb
  · show Held ((Stream.set _ op.buf _).bufs b) (decide (b ∈ s.irqqueue)) (opsOn { s with works := s.works.set k ops } b)
    have hsame := opsOn_pop hk b
    rw [if_neg (Ne.symm hb), Nat.add_zero] at hsame
    rw [set_bufs_of_ne _ _ hb, ← hsame]
    exact h.held b
  · rw [set_bufs]
    exact hfree
  · rw [set_bufs]
    show (s.bufs op.buf).ref = (decide (op.buf ∈ s.irqqueue)).toNat +
      opsOn { s with works := s.works.set k ops } op.buf + 1
    omega
  · rw [set_bufs]
    exact (h.held op.buf).ready hfree (decide_eq_false hout)
  · rw [set_bufs]
    exact hqueued

/-- **A buffer is queued**. -/
theorem Owned.prepareAndQueue (h : Owned s) (hfree : (s.bufs a).free = true) (mem : Mem UInt8) (length : ℕ) :
    Owned (prepareAndQueue s a mem length) := by
  obtain ⟨hout, hzero⟩ := (h.held a).free hfree
  rw [prepareAndQueue_eq]
  exact owned_enqueue h.nodup h.buf h.tail (fun b _ => h.held b) (of_decide_eq_false hout) hzero rfl rfl rfl

/-! ## Headers -/

/-- What does not change while a header is decoded. -/
structure SameQueue (s t : Stream) : Prop where
  irqqueue : t.irqqueue = s.irqqueue
  buf : t.buf = s.buf
  bulk : t.bulk = s.bulk
  isoc : t.isoc = s.isoc

theorem SameQueue.refl (s : Stream) : SameQueue s s := ⟨rfl, rfl, rfl, rfl⟩

theorem SameQueue.trans {u : Stream} (h : SameQueue s t) (h' : SameQueue t u) : SameQueue s u :=
  ⟨h'.irqqueue.trans h.irqqueue, h'.buf.trans h.buf, h'.bulk.trans h.bulk, h'.isoc.trans h.isoc⟩

/-- The state of the buffer when a header has been decoded. -/
def Decoded (b : UvcBuffer) : Start → Prop
  | .header _ => b.state = .active
  | .again => b.state = .ready
  | _ => True

theorem Owned.detectEnd (h : Owned s) (ha : s.irqqueue.head? = some a) (hactive : (s.bufs a).state = .active) :
    Owned (detectEnd s a data).2 ∧ SameQueue s (detectEnd s a data).2 ∧
      Decoded ((detectEnd s a data).2.bufs a) (detectEnd s a data).1 := by
  unfold Uvc.detectEnd
  split_ifs
  · refine ⟨h.setState ha (Or.inr rfl) rfl, ⟨rfl, rfl, rfl, rfl⟩, ?_⟩
    show ((Stream.set s a _).bufs a).state = .ready
    rw [set_bufs]
  · exact ⟨h.congr rfl rfl rfl rfl fun _ => ⟨rfl, rfl, rfl⟩, ⟨rfl, rfl, rfl, rfl⟩, hactive⟩

theorem Owned.invertFid (h : Owned s) : Owned (invertFid s) ∧ SameQueue s (invertFid s) := by
  unfold Uvc.invertFid
  cases s.noFid with
  | true => exact ⟨h.congr rfl rfl rfl rfl fun _ => ⟨rfl, rfl, rfl⟩, ⟨rfl, rfl, rfl, rfl⟩⟩
  | false => exact ⟨h, SameQueue.refl s⟩

theorem Owned.awaitStart (h : Owned s) (ha : s.irqqueue.head? = some a) :
    Owned (awaitStart s a data).2 ∧ SameQueue s (awaitStart s a data).2 ∧
      Decoded ((awaitStart s a data).2.bufs a) (awaitStart s a data).1 := by
  unfold Uvc.awaitStart
  by_cases hfid : fid data = s.lastFid
  · rw [if_pos hfid]
    cases bit data UVC_STREAM_EOF with
    | true => exact ⟨h.invertFid.1, h.invertFid.2, trivial⟩
    | false => exact ⟨h, SameQueue.refl s, trivial⟩
  · rw [if_neg hfid]
    have hset : Owned (activate s a) := h.setState ha (Or.inl rfl) rfl
    have hstate : ((activate s a).bufs a).state = .active := by
      unfold activate
      rw [set_bufs]
    obtain ⟨howned, ⟨hqueue, hbuf, hbulk, hisoc⟩, hdecoded⟩ := @Owned.detectEnd _ _ data hset ha hstate
    exact ⟨howned, ⟨hqueue, hbuf, hbulk, hisoc⟩, hdecoded⟩

theorem Owned.synchronize (h : Owned s) (ha : s.irqqueue.head? = some a) :
    Owned (synchronize s a data).2 ∧ SameQueue s (synchronize s a data).2 ∧
      Decoded ((synchronize s a data).2.bufs a) (synchronize s a data).1 := by
  unfold Uvc.synchronize
  by_cases hactive : (s.bufs a).state ≠ .active
  · rw [if_pos hactive]
    exact h.awaitStart ha
  · rw [if_neg hactive]
    exact h.detectEnd ha (not_not.mp hactive)

theorem Owned.markError (h : Owned s) : Owned (markError s a data) ∧ SameQueue s (markError s a data) := by
  unfold Uvc.markError
  cases bit data UVC_STREAM_ERR with
  | true => exact ⟨h.setData rfl rfl rfl, ⟨rfl, rfl, rfl, rfl⟩⟩
  | false => exact ⟨h, SameQueue.refl s⟩

theorem Owned.advance (h : Owned s) : Owned (advance s data) ∧ SameQueue s (advance s data) := by
  unfold Uvc.advance
  by_cases hfid : s.lastFid ≠ fid data
  · rw [if_pos hfid]
    exact ⟨h.congr rfl rfl rfl rfl fun _ => ⟨rfl, rfl, rfl⟩, ⟨rfl, rfl, rfl, rfl⟩⟩
  · rw [if_neg hfid]
    exact ⟨h, SameQueue.refl s⟩

/-- **A header is decoded**. -/
theorem Owned.decodeStart (h : Owned s) (data : List UInt8) :
    Owned (decodeStart s data).2 ∧ SameQueue s (decodeStart s data).2 ∧
      (∀ a, s.buf = some a → Decoded ((decodeStart s data).2.bufs a) (decodeStart s data).1) ∧
      (s.buf = none → (decodeStart s data).1 = .inval ∨ (decodeStart s data).1 = .nodata) := by
  unfold Uvc.decodeStart
  by_cases hinvalid : Invalid data
  · rw [if_pos hinvalid]
    exact ⟨h, SameQueue.refl s, fun _ _ => trivial, fun _ => Or.inl rfl⟩
  · rw [if_neg hinvalid]
    dsimp only
    obtain ⟨hadv, hsame⟩ := @Owned.advance _ data h
    cases hbuf : s.buf with
    | none =>
      have hnone : (Uvc.advance s data).buf = none := hsame.buf.trans hbuf
      rw [hnone]
      refine ⟨hadv.congr rfl hnone.symm rfl rfl fun _ => ⟨rfl, rfl, rfl⟩,
        ⟨hsame.irqqueue, hbuf.symm, hsame.bulk, hsame.isoc⟩, fun _ hno => absurd hno (by simp),
        fun _ => Or.inr rfl⟩
    | some a =>
      have hsome : (Uvc.advance s data).buf = some a := hsame.buf.trans hbuf
      rw [hsome]
      obtain ⟨hmark, hsame'⟩ := @Owned.markError _ a data hadv
      have hhead : (Uvc.markError (Uvc.advance s data) a data).irqqueue.head? = some a :=
        hmark.head (hsame'.buf.trans hsome)
      obtain ⟨howned, hsame'', hdecoded⟩ := @Owned.synchronize _ _ data hmark hhead
      refine ⟨howned, (hsame.trans hsame').trans hsame'', fun b hb => ?_, fun hno => absurd hno (by simp)⟩
      obtain rfl := Option.some.inj hb
      exact hdecoded

/-! ## Packets and URBs -/

/-- The queue has the same buffers at its front, and they are as before up to what is in their memory. -/
structure Extends (s t : Stream) : Prop where
  queue : s.irqqueue <+: t.irqqueue
  bufs : ∀ a ∈ s.irqqueue, (t.bufs a).state = (s.bufs a).state ∧ (t.bufs a).error = (s.bufs a).error ∧
    (t.bufs a).length = (s.bufs a).length ∧ (t.bufs a).bytesused = (s.bufs a).bytesused ∧
    (t.bufs a).frame = (s.bufs a).frame

theorem Extends.head? (h : Extends s t) (ha : s.irqqueue.head? = some a) : t.irqqueue.head? = some a := by
  obtain ⟨l, hl⟩ := h.queue
  cases hq : s.irqqueue with
  | nil =>
    rw [hq] at ha
    cases ha
  | cons c q =>
    rw [hq] at ha hl
    rw [← hl]
    exact ha

theorem Extends.trans {u : Stream} (h : Extends s t) (h' : Extends t u) : Extends s u := by
  refine ⟨h.queue.trans h'.queue, fun b hb => ?_⟩
  obtain ⟨hstate, herror, hlength, hbytes, hframe⟩ := h.bufs b hb
  obtain ⟨hstate', herror', hlength', hbytes', hframe'⟩ := h'.bufs b (h.queue.subset hb)
  exact ⟨hstate'.trans hstate, herror'.trans herror, hlength'.trans hlength, hbytes'.trans hbytes,
    hframe'.trans hframe⟩

/-- **What becomes of a buffer** when a reference is dropped. -/
theorem queueBufferRelease_cases (s : Stream) (a : ℕ) :
    ((s.bufs a).ref - 1 ≠ 0 ∧
      queueBufferRelease s a = s.set a { s.bufs a with ref := (s.bufs a).ref - 1 }) ∨
    ((s.bufs a).ref - 1 = 0 ∧ (s.dropCorrupted && (s.bufs a).error) = true ∧
      queueBufferRelease s a =
        { s.set a { s.bufs a with error := false, state := .queued, bytesused := 0, ref := 1 } with
          irqqueue := s.irqqueue ++ [a] }) ∨
    ((s.bufs a).ref - 1 = 0 ∧ ¬ (s.dropCorrupted && (s.bufs a).error) = true ∧
      queueBufferRelease s a =
        { s.set a { s.bufs a with
            ref := (s.bufs a).ref - 1, state := if (s.bufs a).error then .error else .done } with
          given := s.given ++ [⟨(s.bufs a).frame, (s.bufs a).sequence, (s.bufs a).error,
            (s.bufs a).mem.read 0 (s.bufs a).bytesused⟩] }) := by
  have hself := set_bufs s a { s.bufs a with ref := (s.bufs a).ref - 1 }
  unfold queueBufferRelease
  dsimp only
  rw [hself]
  dsimp only
  by_cases hlast : (s.bufs a).ref - 1 = 0
  · rw [if_pos hlast]
    unfold queueBufferComplete
    dsimp only
    rw [hself]
    dsimp only
    by_cases hdrop : (s.dropCorrupted && (s.bufs a).error) = true
    · refine Or.inr (Or.inl ⟨hlast, hdrop, (if_pos hdrop).trans ?_⟩)
      rw [queueBufferRequeue_eq, hself, set_set]
      rfl
    · refine Or.inr (Or.inr ⟨hlast, hdrop, (if_neg hdrop).trans ?_⟩)
      rw [set_set]
      rfl
  · rw [if_neg hlast]
    exact Or.inl ⟨hlast, rfl⟩

/-- Nothing but the queue, the buffers and what has been given back changes with a reference. -/
theorem queueBufferRelease_rest (s : Stream) (a : ℕ) :
    (queueBufferRelease s a).bulk = s.bulk ∧ (queueBufferRelease s a).isoc = s.isoc ∧
      (queueBufferRelease s a).buf = s.buf ∧ allOps (queueBufferRelease s a) = allOps s := by
  rcases queueBufferRelease_cases s a with ⟨-, heq⟩ | ⟨-, -, heq⟩ | ⟨-, -, heq⟩
  · rw [heq]
    exact ⟨rfl, rfl, rfl, rfl⟩
  · rw [heq]
    exact ⟨rfl, rfl, rfl, rfl⟩
  · rw [heq]
    exact ⟨rfl, rfl, rfl, rfl⟩

/-- A buffer is written to that is not in the queue. -/
theorem extends_set (hout : a ∉ s.irqqueue) (c : UvcBuffer) (hqueue : s.irqqueue <+: t.irqqueue)
    (hbufs : t.bufs = (s.set a c).bufs) : Extends s t := by
  refine ⟨hqueue, fun b hb => ?_⟩
  have hne : b ≠ a := fun heq => hout (heq ▸ hb)
  rw [hbufs, set_bufs_of_ne _ _ hne]
  exact ⟨rfl, rfl, rfl, rfl, rfl⟩

/-- The buffers of the queue stay, except for the one whose reference is dropped. -/
theorem extends_release (hout : a ∉ s.irqqueue) : Extends s (queueBufferRelease s a) := by
  rcases queueBufferRelease_cases s a with ⟨-, heq⟩ | ⟨-, -, heq⟩ | ⟨-, -, heq⟩
  · rw [heq]
    exact extends_set hout _ (List.prefix_refl _) rfl
  · rw [heq]
    exact extends_set hout _ (List.prefix_append _ _) rfl
  · rw [heq]
    exact extends_set hout _ (List.prefix_refl _) rfl

/-- A copy operation leaves the queue alone. -/
theorem Owned.extends_runCopy (h : Owned s) {k : ℕ} {ops : List CopyOp} (hk : s.works[k]? = some (op :: ops)) :
    Extends s (Uvc.runCopy { s with works := s.works.set k ops } op) := by
  unfold Uvc.runCopy
  by_cases hin : op.buf ∈ s.irqqueue
  · obtain ⟨href, -⟩ := (h.held op.buf).ref (h.not_free hin)
    have hself := opsOn_pop hk op.buf
    rw [if_pos rfl] at hself
    rw [decide_eq_true hin, Bool.toNat_true] at href
    have hmore : ¬ (s.bufs op.buf).ref - 1 = 0 := by omega
    unfold queueBufferRelease
    dsimp only
    rw [set_bufs, set_bufs, set_set]
    dsimp only
    rw [if_neg hmore]
    refine ⟨List.prefix_refl _, fun b _ => ?_⟩
    by_cases hb : b = op.buf
    · subst hb
      rw [set_bufs]
      exact ⟨rfl, rfl, rfl, rfl, rfl⟩
    · rw [set_bufs_of_ne _ _ hb]
      exact ⟨rfl, rfl, rfl, rfl, rfl⟩
  · have hset : Extends s (({ s with works := s.works.set k ops } : Stream).set op.buf
        { s.bufs op.buf with mem := (s.bufs op.buf).mem.write op.dst op.bytes }) :=
      extends_set hin _ (List.prefix_refl _) rfl
    exact hset.trans (extends_release hin)

/-- A buffer that is queued leaves the others alone. -/
theorem extends_prepareAndQueue (hout : a ∉ s.irqqueue) (mem : Mem UInt8) (length : ℕ) :
    Extends s (prepareAndQueue s a mem length) := by
  rw [prepareAndQueue_eq]
  exact extends_set hout _ (List.prefix_append _ _) rfl

theorem nextBuffers_rest (s : Stream) (a : ℕ) :
    (nextBuffers s a).bulk = s.bulk ∧ (nextBuffers s a).isoc = s.isoc := by
  unfold nextBuffers queueNextBuffer
  dsimp only
  obtain ⟨hbulk, hisoc, -, -⟩ := queueBufferRelease_rest
    { validateBuffer s a with
      completed := (validateBuffer s a).completed ++ [((validateBuffer s a).bufs a).frame]
      irqqueue := (validateBuffer s a).irqqueue.erase a
      buf := ((validateBuffer s a).irqqueue.erase a).head? } a
  rw [hbulk, hisoc]
  unfold validateBuffer
  split_ifs <;> exact ⟨rfl, rfl⟩

/-- **The loop around the header** ends with an active buffer, or with an error. -/
theorem Owned.startLoop (h : Owned s) (rounds : ℕ) (data : List UInt8) :
    Owned (startLoop rounds s data).2 ∧ (startLoop rounds s data).2.bulk = s.bulk ∧
      (startLoop rounds s data).2.isoc = s.isoc ∧
      ∀ n, (startLoop rounds s data).1 = .header n →
        ∃ a, (startLoop rounds s data).2.buf = some a ∧
          ((startLoop rounds s data).2.bufs a).state = .active := by
  induction rounds generalizing s with
  | zero => exact ⟨h, rfl, rfl, fun n hn => by cases hn⟩
  | succ rounds ih =>
    obtain ⟨howned, hsame, hdecoded, hnone⟩ := h.decodeStart data
    unfold Uvc.startLoop
    rcases hstart : Uvc.decodeStart s data with ⟨r, t⟩
    rw [hstart] at howned hsame hdecoded hnone
    dsimp only at howned hsame hdecoded hnone
    cases hbuf : s.buf with
    | none =>
      rcases hnone hbuf with hr | hr
      · subst hr
        exact ⟨howned, hsame.bulk, hsame.isoc, fun n hn => by cases hn⟩
      · subst hr
        exact ⟨howned, hsame.bulk, hsame.isoc, fun n hn => by cases hn⟩
    | some a =>
      have hstate := hdecoded a hbuf
      have hbuf' : t.buf = some a := hsame.buf.trans hbuf
      cases r with
      | header n => exact ⟨howned, hsame.bulk, hsame.isoc, fun _ _ => ⟨a, hbuf', hstate⟩⟩
      | inval => exact ⟨howned, hsame.bulk, hsame.isoc, fun n hn => by cases hn⟩
      | nodata => exact ⟨howned, hsame.bulk, hsame.isoc, fun n hn => by cases hn⟩
      | again =>
        obtain ⟨hbulk, hisoc⟩ := nextBuffers_rest t a
        obtain ⟨hnext, hbulk', hisoc', hheader⟩ := ih (howned.nextBuffers (howned.head hbuf') hstate)
        exact ⟨hnext, hbulk'.trans (hbulk.trans hsame.bulk), hisoc'.trans (hisoc.trans hsame.isoc), hheader⟩

theorem Owned.countFrame (h : Owned s) (data : List UInt8) :
    Owned (countFrame s data) ∧ SameQueue s (countFrame s data) := by
  unfold Uvc.countFrame
  split_ifs
  · exact ⟨h, SameQueue.refl s⟩
  · exact ⟨h.congr rfl rfl rfl rfl fun _ => ⟨rfl, rfl, rfl⟩, ⟨rfl, rfl, rfl, rfl⟩⟩

/-- **A payload starts**. -/
theorem Owned.start (h : Owned s) (data : List UInt8) :
    Owned (start s data).2 ∧ (start s data).2.bulk = s.bulk ∧ (start s data).2.isoc = s.isoc ∧
      ∀ n, (start s data).1 = .header n →
        ∃ a, (start s data).2.buf = some a ∧ ((start s data).2.bufs a).state = .active := by
  obtain ⟨hcount, hsame⟩ := h.countFrame data
  obtain ⟨howned, hbulk, hisoc, hheader⟩ := hcount.startLoop (s.irqqueue.length + 1) data
  exact ⟨howned, hbulk.trans hsame.bulk, hisoc.trans hsame.isoc, hheader⟩

/-- What decoding data and the end of a payload leave alone. -/
theorem decodeData_rest (s : Stream) (a : ℕ) (data : List UInt8) :
    SameQueue s (decodeData s a data) ∧ ((s.bufs a).state = .active ∨ (s.bufs a).state = .ready →
      ((decodeData s a data).bufs a).state = .active ∨ ((decodeData s a data).bufs a).state = .ready) := by
  unfold decodeData
  dsimp only
  by_cases hzero : data.length = 0
  · rw [if_pos hzero]
    exact ⟨SameQueue.refl s, id⟩
  · rw [if_neg hzero]
    refine ⟨⟨rfl, rfl, rfl, rfl⟩, fun hstate => ?_⟩
    show ((Stream.set s a _).bufs a).state = _ ∨ ((Stream.set s a _).bufs a).state = _
    rw [set_bufs]
    by_cases hlong : data.length > (s.bufs a).length - (s.bufs a).bytesused
    · rw [if_pos hlong]
      exact Or.inr rfl
    · rw [if_neg hlong]
      exact hstate

theorem Owned.decodeEnd (h : Owned s) (ha : s.irqqueue.head? = some a) :
    Owned (decodeEnd s a data) ∧ SameQueue s (decodeEnd s a data) := by
  unfold Uvc.decodeEnd
  by_cases heof : bit data UVC_STREAM_EOF = true ∧ (s.bufs a).bytesused ≠ 0
  · rw [if_pos heof]
    obtain ⟨howned, hsame⟩ := (@Owned.setState s a h ha { s.bufs a with state := .ready } (Or.inr rfl) rfl).invertFid
    exact ⟨howned, ⟨hsame.irqqueue, hsame.buf, hsame.bulk, hsame.isoc⟩⟩
  · rw [if_neg heof]
    exact ⟨h, SameQueue.refl s⟩

theorem Owned.nextIfReady (h : Owned s) (ha : s.irqqueue.head? = some a) :
    Owned (nextIfReady s a) ∧ (nextIfReady s a).bulk = s.bulk ∧ (nextIfReady s a).isoc = s.isoc := by
  unfold Uvc.nextIfReady
  split_ifs with hready
  · exact ⟨h.nextBuffers ha hready, nextBuffers_rest s a⟩
  · exact ⟨h, rfl, rfl⟩

theorem withBuf_none (hbuf : s.buf = none) (f : ℕ → Stream) : withBuf s f = s := by
  unfold withBuf
  rw [hbuf]
  rfl

theorem withBuf_some (hbuf : s.buf = some a) (f : ℕ → Stream) : withBuf s f = f a := by
  unfold withBuf
  rw [hbuf]
  rfl

/-- **A packet is decoded**. -/
theorem Owned.decodeIsocPacket (h : Owned s) (lost : Bool) (data : List UInt8) :
    Owned (decodeIsocPacket s lost data) ∧ (decodeIsocPacket s lost data).isoc = s.isoc := by
  unfold Uvc.decodeIsocPacket
  cases lost with
  | true =>
    rw [if_pos rfl]
    cases hbuf : s.buf with
    | none =>
      rw [withBuf_none hbuf]
      exact ⟨h, rfl⟩
    | some a =>
      rw [withBuf_some hbuf]
      exact ⟨h.setData rfl rfl rfl, rfl⟩
  | false =>
    rw [if_neg (by decide)]
    obtain ⟨howned, -, hisoc, hheader⟩ := h.start data
    rcases hstart : Uvc.start s data with ⟨r, t⟩
    rw [hstart] at howned hisoc hheader
    cases r with
    | header n =>
      obtain ⟨a, hbuf, hactive⟩ := hheader n rfl
      dsimp only at hbuf hactive howned hisoc ⊢
      rw [withBuf_some hbuf]
      have hhead := howned.head hbuf
      obtain ⟨hsame, -⟩ := decodeData_rest t a (data.drop n)
      have hdata := @Owned.decodeData _ _ (data.drop n) howned hhead (Or.inl hactive)
      have hhead' : (Uvc.decodeData t a (data.drop n)).irqqueue.head? = some a := by
        rw [hsame.irqqueue]
        exact hhead
      obtain ⟨hend, hsame'⟩ := @Owned.decodeEnd _ _ data hdata hhead'
      have hhead'' : (Uvc.decodeEnd (Uvc.decodeData t a (data.drop n)) a data).irqqueue.head? = some a := by
        rw [hsame'.irqqueue]
        exact hhead'
      obtain ⟨hnext, -, hisoc'⟩ := hend.nextIfReady hhead''
      exact ⟨hnext, hisoc'.trans (hsame'.isoc.trans (hsame.isoc.trans hisoc))⟩
    | inval => exact ⟨howned, hisoc⟩
    | nodata => exact ⟨howned, hisoc⟩
    | again => exact ⟨howned, hisoc⟩

/-- Inside a bulk payload that is not skipped the buffer is in use. -/
def Mid (s : Stream) : Prop :=
  s.isoc = false → s.bulk.headerSize ≠ 0 → s.bulk.skipPayload = false →
    ∃ a, s.irqqueue.head? = some a ∧ ((s.bufs a).state = .active ∨ (s.bufs a).state = .ready)

/-- Every reference is accounted for, and a bulk payload has its buffer. -/
structure Running (s : Stream) : Prop where
  owned : Owned s
  mid : Mid s

theorem Mid.extends (h : Mid s) (hext : Extends s t) (hbulk : t.bulk = s.bulk) (hisoc : t.isoc = s.isoc) : Mid t := by
  intro hkind hsize hskip
  rw [hisoc] at hkind
  rw [hbulk] at hsize hskip
  obtain ⟨a, ha, hstate⟩ := h hkind hsize hskip
  refine ⟨a, hext.head? ha, ?_⟩
  rw [(hext.bufs a (mem_of_head? ha)).1]
  exact hstate

theorem Owned.setBulk (h : Owned s) (bulk : Bulk) : Owned { s with bulk := bulk } :=
  h.congr rfl rfl rfl rfl fun _ => ⟨rfl, rfl, rfl⟩

/-- The first URB of a bulk payload. -/
theorem Owned.bulkStart (h : Owned s) (data : List UInt8) :
    Running (bulkStart s data).2 ∧ (bulkStart s data).2.isoc = s.isoc ∧
      ((bulkStart s data).2.bulk.skipPayload = false →
        ∃ a, (bulkStart s data).2.buf = some a ∧ ((bulkStart s data).2.bufs a).state = .active) := by
  obtain ⟨howned, -, hisoc, hheader⟩ := h.start data
  unfold Uvc.bulkStart
  rcases hstart : Uvc.start s data with ⟨r, t⟩
  rw [hstart] at howned hisoc hheader
  have hskipped : Running { t with bulk.skipPayload := true } :=
    ⟨howned.setBulk _, fun _ _ hno => absurd hno (by simp)⟩
  cases r with
  | header n =>
    obtain ⟨a, hbuf, hactive⟩ := hheader n rfl
    dsimp only at hbuf hactive howned hisoc ⊢
    rw [if_pos (by rw [hbuf]; rfl)]
    exact ⟨⟨howned.setBulk _, fun _ _ _ => ⟨a, howned.head hbuf, Or.inl hactive⟩⟩, hisoc, fun _ =>
      ⟨a, hbuf, hactive⟩⟩
  | inval => exact ⟨hskipped, hisoc, fun hno => absurd hno (by simp)⟩
  | nodata => exact ⟨hskipped, hisoc, fun hno => absurd hno (by simp)⟩
  | again => exact ⟨hskipped, hisoc, fun hno => absurd hno (by simp)⟩

/-- The data of a bulk URB. -/
theorem Running.bulkData (h : Running s) (data : List UInt8)
    (hstate : ∀ a, s.buf = some a → s.bulk.skipPayload = false →
      (s.bufs a).state = .active ∨ (s.bufs a).state = .ready) :
    Running (bulkData s data) ∧ (bulkData s data).isoc = s.isoc := by
  unfold Uvc.bulkData
  cases hskip : s.bulk.skipPayload with
  | true =>
    rw [if_pos rfl]
    exact ⟨h, rfl⟩
  | false =>
    rw [if_neg (by decide)]
    cases hbuf : s.buf with
    | none =>
      rw [withBuf_none hbuf]
      exact ⟨h, rfl⟩
    | some a =>
      rw [withBuf_some hbuf]
      have hhead := h.owned.head hbuf
      have hbusy := hstate a hbuf hskip
      obtain ⟨hsame, hstill⟩ := decodeData_rest s a data
      refine ⟨⟨h.owned.decodeData hhead hbusy, fun _ _ _ => ⟨a, ?_, hstill hbusy⟩⟩, hsame.isoc⟩
      rw [hsame.irqqueue]
      exact hhead

/-- The end of a bulk payload. -/
theorem Owned.bulkEnd (h : Owned s) : Running (bulkEnd s) ∧ (bulkEnd s).isoc = s.isoc := by
  have hfinish : Owned (bulkFinish s) ∧ (bulkFinish s).isoc = s.isoc := by
    unfold bulkFinish
    cases s.bulk.skipPayload with
    | true =>
      rw [if_pos rfl]
      exact ⟨h, rfl⟩
    | false =>
      rw [if_neg (by decide)]
      cases hbuf : s.buf with
      | none =>
        rw [withBuf_none hbuf]
        exact ⟨h, rfl⟩
      | some a =>
        rw [withBuf_some hbuf]
        have hhead := h.head hbuf
        obtain ⟨hend, hsame⟩ := @Owned.decodeEnd _ _ s.bulk.header h hhead
        have hhead' : (Uvc.decodeEnd s a s.bulk.header).irqqueue.head? = some a := by
          rw [hsame.irqqueue]
          exact hhead
        obtain ⟨hnext, -, hisoc⟩ := hend.nextIfReady hhead'
        exact ⟨hnext, hisoc.trans hsame.isoc⟩
  exact ⟨⟨hfinish.1.setBulk _, fun _ hno => absurd rfl hno⟩, hfinish.2⟩

/-- The data of a bulk URB, its header and its end. -/
theorem Running.decodeUrb (h : Running s) (hkind : s.isoc = false) (data : List UInt8) (transferLength : ℕ) :
    Running (decodeUrb s data transferLength) ∧ (decodeUrb s data transferLength).isoc = s.isoc := by
  have hlast : ∀ (u : Stream) (p : Prop) [Decidable p], Running u ∧ u.isoc = s.isoc →
      Running (if p then Uvc.bulkEnd u else u) ∧ (if p then Uvc.bulkEnd u else u).isoc = s.isoc := by
    intro u p _ hu
    by_cases hp : p
    · rw [if_pos hp]
      exact ⟨hu.1.owned.bulkEnd.1, hu.1.owned.bulkEnd.2.trans hu.2⟩
    · rw [if_neg hp]
      exact hu
  unfold Uvc.decodeUrb
  dsimp only
  by_cases hfirst : s.bulk.headerSize = 0 ∧ ¬ s.bulk.skipPayload = true
  · rw [if_pos hfirst]
    obtain ⟨hstart, hisoc, hactive⟩ := h.owned.bulkStart data
    have hdata := hstart.bulkData (Uvc.bulkStart s data).1 fun a hbuf hskip => by
      obtain ⟨b, hb, hstate⟩ := hactive hskip
      obtain rfl := Option.some.inj (hb.symm.trans hbuf)
      exact Or.inl hstate
    exact hlast _ _ ⟨hdata.1, hdata.2.trans hisoc⟩
  · rw [if_neg hfirst]
    have hdata := h.bulkData data fun a hbuf hskip => by
      have hsize : s.bulk.headerSize ≠ 0 := fun hzero => hfirst ⟨hzero, by
        rw [hskip]
        decide⟩
      obtain ⟨b, hb, hstate⟩ := h.mid hkind hsize hskip
      obtain rfl := Option.some.inj (hb.symm.trans (h.owned.head hbuf))
      exact hstate
    exact hlast _ _ hdata

/-- **A bulk URB is decoded**. -/
theorem Running.decodeBulk (h : Running s) (hkind : s.isoc = false) (data : List UInt8) (transferLength : ℕ) :
    Running (decodeBulk s data transferLength) ∧ (decodeBulk s data transferLength).isoc = s.isoc := by
  unfold Uvc.decodeBulk
  by_cases hnone : data.length = 0 ∧ s.bulk.headerSize = 0
  · rw [if_pos hnone]
    exact ⟨h, rfl⟩
  · rw [if_neg hnone]
    have hrunning : Running { s with bulk.payloadSize := (s.bulk.payloadSize + data.length) % 2 ^ 32 } :=
      ⟨h.owned.setBulk _, h.mid⟩
    exact hrunning.decodeUrb hkind data transferLength

/-! ## Runs -/

variable {e : Event} {es : List Event}

/-- The copy operations stay the same when they are put into a work item. -/
theorem opsOn_queueWork (s : Stream) (a : ℕ) :
    opsOn { s with works := if s.ops = [] then s.works else s.works ++ [s.ops], ops := [] } a = opsOn s a := by
  unfold opsOn allOps
  dsimp only
  by_cases hops : s.ops = []
  · rw [if_pos hops, hops]
  · rw [if_neg hops, List.nil_append, List.flatten_append, List.flatten_singleton, List.countP_append,
      List.countP_append, Nat.add_comm]

/-- **Each step** accounts for every reference. -/
theorem Running.step (h : Running s) (hstep : Uvc.step s e = some t) : Running t ∧ t.isoc = s.isoc := by
  cases e with
  | queue a mem length =>
    unfold Uvc.step at hstep
    dsimp only at hstep
    split_ifs at hstep with hfree
    obtain rfl := Option.some.inj hstep
    have hout := of_decide_eq_false ((h.owned.held a).free hfree).1
    refine ⟨⟨h.owned.prepareAndQueue hfree mem length, ?_⟩, by rw [prepareAndQueue_eq]; rfl⟩
    exact h.mid.extends (extends_prepareAndQueue hout mem length) (by rw [prepareAndQueue_eq]; rfl)
      (by rw [prepareAndQueue_eq]; rfl)
  | complete =>
    unfold Uvc.step at hstep
    dsimp only at hstep
    split_ifs at hstep
    obtain rfl := Option.some.inj hstep
    exact ⟨⟨⟨h.owned.nodup, Or.inr rfl, h.owned.tail, h.owned.held⟩, h.mid⟩, rfl⟩
  | packet lost data =>
    unfold Uvc.step at hstep
    dsimp only at hstep
    split_ifs at hstep with hkind
    obtain rfl := Option.some.inj hstep
    obtain ⟨howned, hisoc⟩ := h.owned.decodeIsocPacket lost data
    refine ⟨⟨howned, fun hno => ?_⟩, hisoc⟩
    rw [hisoc, hkind] at hno
    exact absurd hno (by decide)
  | bulk data transferLength =>
    unfold Uvc.step at hstep
    dsimp only at hstep
    split_ifs at hstep with hkind
    obtain rfl := Option.some.inj hstep
    exact h.decodeBulk (Bool.eq_false_of_not_eq_true hkind) data transferLength
  | queueWork =>
    obtain rfl := Option.some.inj hstep
    refine ⟨⟨⟨h.owned.nodup, h.owned.buf, h.owned.tail, fun a => ?_⟩, h.mid⟩, rfl⟩
    have hheld := h.owned.held a
    rw [← opsOn_queueWork] at hheld
    exact hheld
  | copy k =>
    unfold Uvc.step at hstep
    dsimp only at hstep
    split at hstep
    · rename_i op ops hk
      obtain rfl := Option.some.inj hstep
      obtain ⟨hbulk, hisoc, -, -⟩ := queueBufferRelease_rest
        (({ s with works := s.works.set k ops } : Stream).set op.buf
          { s.bufs op.buf with mem := (s.bufs op.buf).mem.write op.dst op.bytes }) op.buf
      exact ⟨⟨h.owned.runCopy hk, h.mid.extends (h.owned.extends_runCopy hk) hbulk hisoc⟩, hisoc⟩
    · cases hstep

theorem running_init (isoc : Bool) (dwMaxVideoFrameSize maxPayloadSize : ℕ)
    (compressed noFid dropCorrupted : Bool) (bufs : ℕ → UvcBuffer) :
    Running (Stream.init isoc dwMaxVideoFrameSize maxPayloadSize compressed noFid dropCorrupted bufs) :=
  ⟨⟨List.nodup_nil, Or.inl rfl, fun _ ha => absurd ha List.not_mem_nil, fun _ =>
    ⟨fun _ => ⟨rfl, rfl⟩, fun hno => absurd ((@free_eq _ .idle rfl).symm.trans hno) (by decide),
      fun hno => absurd ((@free_eq _ .idle rfl).symm.trans hno) (by decide), fun hno => by cases hno⟩⟩,
    fun _ hno => absurd rfl hno⟩

/-- **Every run** accounts for every reference. -/
theorem run_running (h : Running s) (hrun : run Uvc.step s es = some t) : Running t :=
  run_inv (fun _ _ _ hs hstep => (Running.step hs hstep).1) h hrun

/-- **Who has a buffer**, whatever the payloads are and in whatever order the work items run: one that the driver does
not have is not in the queue, and no copy operation on it is left.  Any other has one reference for the queue, and one
for each copy operation. -/
theorem references_run {isoc : Bool} {dwMaxVideoFrameSize maxPayloadSize : ℕ} {compressed noFid dropCorrupted : Bool}
    {bufs : ℕ → UvcBuffer} (hrun : run Uvc.step (Stream.init isoc dwMaxVideoFrameSize maxPayloadSize compressed noFid
      dropCorrupted bufs) es = some t) (a : ℕ) :
    if (t.bufs a).free then a ∉ t.irqqueue ∧ opsOn t a = 0
    else (t.bufs a).ref = (decide (a ∈ t.irqqueue)).toNat + opsOn t a ∧ 0 < (t.bufs a).ref := by
  have hheld := (run_running (running_init ..) hrun).owned.held a
  split
  · next hfree =>
    obtain ⟨hout, hops⟩ := hheld.free hfree
    exact ⟨of_decide_eq_false hout, hops⟩
  · next hbusy => exact hheld.ref (Bool.eq_false_of_not_eq_true hbusy)

/-- The second packet of a frame is copied first, and the buffer is kept for the first one. -/
theorem references_run_swapped : ∃ t : Stream, (t.bufs 0).ref = 1 ∧ ∀ a,
    if (t.bufs a).free then a ∉ t.irqqueue ∧ opsOn t a = 0
    else (t.bufs a).ref = (decide (a ∈ t.irqqueue)).toNat + opsOn t a ∧ 0 < (t.bufs a).ref := by
  obtain ⟨t, hrun, href⟩ := Option.map_eq_some_iff.mp (show (run Uvc.step (Stream.init true 4 4 false false false
    fun _ => ⟨.idle, false, fun _ => 0, 0, 0, 0, 0, 0⟩) [.queue 0 (fun _ => 0) 4, .complete, .packet false [2, 0, 7, 8],
      .queueWork, .complete, .packet false [2, 2, 9, 10], .queueWork, .copy 1]).map (fun t => (t.bufs 0).ref) =
        some 1 by decide +kernel)
  exact ⟨t, href, references_run hrun⟩

end Uvc
end TbsMedia
